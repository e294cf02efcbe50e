import DocDrift.Decimal.Nearest
import DocDrift.Json.Printer
import DocDrift.Scoring.Encoding

/-!
What the store keeps: for each documented file the digest that was documented, for each repository
the last commit that was processed, the symbols that are documented, what generating documents
cost, and the outcomes of scored changes.
-/

set_option autoImplicit false

namespace DocDrift.Store

/-- What was documented of a file. -/
structure LedgerRow where
  digest : String
  document : Option String
  updatedAt : String
  deriving DecidableEq, Repr, Inhabited

/-- The last commit that was processed in a repository. -/
structure MarkerRow where
  commit : String
  updatedAt : String
  deriving DecidableEq, Repr, Inhabited

/-- Since when a symbol is documented, and the digest of the file that listed it last. -/
structure SymbolRow where
  since : String
  digest : String
  deriving DecidableEq, Repr, Inhabited

/-- What the generation of a document cost. -/
structure Usage where
  model : String
  input : Int
  output : Int
  cost : Float
  path : Option String
  deriving Inhabited

/-- A row of the usage ledger; rows are numbered from one. -/
structure UsageRow where
  number : Nat
  usage : Usage
  time : String
  deriving Inhabited

/-- A change of a file between two texts. -/
structure Pair where
  path : String
  old : String
  new : String
  deriving DecidableEq, Repr, Inhabited

/-- The outcome of a scored change as it is kept: whole numbers and text. -/
structure AnalysisRow where
  /-- Nothing if what is kept is no whole number. -/
  score : Option Int
  classification : String
  recommendation : String
  time : String
  deriving DecidableEq, Repr, Inhabited

/-- The outcome of a scored change. -/
structure Verdict where
  score : Nat
  classification : Classification
  recommendation : Recommendation
  time : String

/-! ### Columns of whole numbers -/

def isColumnSpace (c : Char) : Bool :=
  c == ' ' || (9 ≤ c.toNat && c.toNat ≤ 13)

/-- The sign in front of a number, and what follows it. -/
def signOf : List Char → Bool × List Char
  | '-' :: rest => (true, rest)
  | '+' :: rest => (false, rest)
  | text => (false, text)

/-- The digits at the start of a text, and what follows them. -/
def leadingDigits (text : List Char) : List Char × List Char :=
  text.span Char.isDigit

def numberOf (digits : List Char) : Nat :=
  digits.foldl (fun value c => value * 10 + (c.toNat - 0x30)) 0

/-- The exponent that a text consists of; an empty text is no exponent. -/
def exponentOf? : List Char → Option Int
  | [] => some 0
  | mark :: rest =>
      let (negative, rest) := signOf rest
      let (digits, rest) := leadingDigits rest
      if (mark == 'e' || mark == 'E') && !digits.isEmpty && rest.isEmpty then
        some (if negative then -(numberOf digits : Int) else numberOf digits)
      else none

/-- The whole number that a column of whole numbers keeps of a text: of a number without a
fraction its value, and nothing of any other text. -/
def columnWhole? (text : String) : Option Int := do
  let inside := (text.toList.dropWhile isColumnSpace).reverse.dropWhile isColumnSpace
  let (negative, rest) := signOf inside.reverse
  let (whole, rest) := leadingDigits rest
  let (places, rest) :=
    match rest with
    | '.' :: rest => leadingDigits rest
    | _ => ([], rest)
  if whole.isEmpty && places.isEmpty then none
  else
    let magnitude := Decimal.nearest (numberOf (whole ++ places))
      ((← exponentOf? rest) - places.length)
    if magnitude == magnitude.floor && magnitude < 9.0e18 then
      let value : Int := magnitude.toUInt64.toNat
      return if negative then -value else value
    else none

namespace Verdict

def toRow (verdict : Verdict) : AnalysisRow :=
  { score := some verdict.score
    classification := verdict.classification.toJson.compact
    recommendation := verdict.recommendation.toJson.compact
    time := verdict.time }

/-- A value kept as JSON text. -/
def column? {α : Type} (schema : Schema) (read : Json → Option α) (text : String) : Option α :=
  match Json.ofText schema text with
  | .ok json => read json
  | .error _ => none

/-- The verdict that a row keeps, if it does keep one. -/
def ofRow? (row : AnalysisRow) : Option Verdict := do
  let score ← row.score
  if 0 ≤ score ∧ score ≤ 4294967295 then
    return {
      score := score.toNat
      classification := ← column? Classification.schema Classification.ofJson? row.classification
      recommendation := ← column? Recommendation.schema Recommendation.ofJson? row.recommendation
      time := row.time }
  else none

end Verdict

end DocDrift.Store
