import DocDrift.Json.Error
import DocDrift.Json.Schema

/-!
Reading JSON text of a given form. The text is read once, from left to right: a value that does not
have the form asked for is refused where it stands, before what follows it is looked at. Fields
that the form does not know are passed over, but have to be well formed.
-/

set_option autoImplicit false

namespace DocDrift.Json

/-- What remains of a text, and the place reached: the line and the bytes read of it. -/
structure Cursor where
  rest : List Char
  line : Nat
  column : Nat

/-- A reader of text. -/
abbrev Read := StateT Cursor (Except Error)

namespace Cursor

/-- The place behind a character. -/
def past (cursor : Cursor) (c : Char) : Cursor :=
  if c == '\n' then { cursor with line := cursor.line + 1, column := 0 }
  else { cursor with column := cursor.column + c.utf8Size }

def advance : Nat → Cursor → Cursor
  | 0, cursor => cursor
  | count + 1, cursor =>
      match cursor.rest with
      | [] => cursor
      | c :: rest => advance count { cursor.past c with rest := rest }

/-- An error at the place reached. -/
def errorHere (cursor : Cursor) (fault : Fault) : Error :=
  ⟨fault, cursor.line, cursor.column⟩

/-- An error at the next byte. -/
def errorAhead (cursor : Cursor) (fault : Fault) : Error :=
  match cursor.rest with
  | [] => cursor.errorHere fault
  | c :: _ =>
      if c == '\n' then ⟨fault, cursor.line + 1, 0⟩ else ⟨fault, cursor.line, cursor.column + 1⟩

end Cursor

namespace Read

def failHere {α : Type} (fault : Fault) : Read α := do
  throw ((← get).errorHere fault)

def failAhead {α : Type} (fault : Fault) : Read α := do
  throw ((← get).errorAhead fault)

def skip (count : Nat) : Read Unit :=
  modify (Cursor.advance count)

/-- The next character, which stays. -/
def peek : Read (Option Char) :=
  return (← get).rest.head?

def next : Read (Option Char) := do
  let found ← peek
  skip 1
  return found

/-- Characters that may stand between the parts of a value. -/
def isSpace (c : Char) : Bool :=
  c == ' ' || c == '\n' || c == '\t' || c == '\r'

/-- The next character that is no space, which stays. -/
def peekPart : Read (Option Char) := do
  skip ((← get).rest.takeWhile isSpace).length
  peek

/-- The rest of a literal. -/
def literal : List Char → Read Unit
  | [] => return ()
  | expected :: rest => do
      match ← next with
      | none => failHere (.unfinished "a value")
      | some c => if c == expected then literal rest else failHere .expectedLiteral

/-! ### Numbers -/

/-- A number as text gives it. -/
inductive Number
  | whole (value : Int)
  | real (value : Float)

/-- The greatest whole number that is kept exactly. -/
def greatestWhole : Nat := 18446744073709551615

/-- Takes up digits as long as the number stays exact; how many were taken comes second. -/
def absorb : Nat → List Char → Nat × Nat
  | significand, [] => (significand, 0)
  | significand, digit :: rest =>
      let more := significand * 10 + (digit.toNat - 0x30)
      if more ≤ greatestWhole then
        let (final, count) := absorb more rest
        (final, count + 1)
      else (significand, 0)

def powerOfTen (exponent : Nat) : Float :=
  Float.ofScientific 1 false exponent

/-- The floating-point number made from a significand and a power of ten in steps that each round;
nothing if it is too large. -/
def scaled? : Nat → Float → Int → Option Float
  | 0, value, _ => some value
  | count + 1, value, exponent =>
      if exponent.natAbs ≤ 308 then
        if 0 ≤ exponent then
          let product := value * powerOfTen exponent.natAbs
          if product.isInf then none else some product
        else some (value / powerOfTen exponent.natAbs)
      else if value == 0.0 then some value
      else if 0 ≤ exponent then none
      else scaled? count (value / powerOfTen 308) (exponent + 308)

def real (positive : Bool) (significand : Nat) (exponent : Int) : Read Number := do
  match scaled? 4 (Float.ofNat significand) exponent with
  | none => failHere .numberTooLarge
  | some value => return .real (if positive then value else -value)

def digits : Read (List Char) := do
  let found := (← get).rest.takeWhile Char.isDigit
  skip found.length
  return found

def digitsValue (digits : List Char) : Nat :=
  digits.foldl (fun value digit => value * 10 + (digit.toNat - 0x30)) 0

/-- The number of leading digits after which an exponent is too large to be kept, if it is. -/
def tooLong? (digits : List Char) : Option Nat :=
  (List.range (digits.length + 1)).find? (fun count => 2147483647 < digitsValue (digits.take count))

def exponentDigits (positive : Bool) (significand : Nat) (exponent : Int) (up : Bool) :
    Read Number := do
  match ← peek with
  | none => failHere (.unfinished "a value")
  | some c =>
      if c.isDigit then
        let found := (← get).rest.takeWhile Char.isDigit
        match tooLong? found with
        | some count =>
            if significand != 0 && up then
              skip count
              failHere .numberTooLarge
            else
              skip found.length
              return .real (if positive then 0.0 else -0.0)
        | none =>
            skip found.length
            let value : Int := digitsValue found
            let total := if up then exponent + value else exponent - value
            real positive significand (max (-2147483648) (min 2147483647 total))
      else
        skip 1
        failHere .badNumber

def exponentPart (positive : Bool) (significand : Nat) (exponent : Int) : Read Number := do
  skip 1
  let sign ← peek
  if sign == some '+' || sign == some '-' then
    skip 1
    exponentDigits positive significand exponent (sign == some '+')
  else exponentDigits positive significand exponent true

def beginsExponent (c : Option Char) : Bool :=
  c == some 'e' || c == some 'E'

/-- The digits in front of a point; a leading zero stands alone. -/
def wholeDigits : Read (List Char) := do
  if (← peek) == some '0' then
    skip 1
    match ← peek with
    | some c => if c.isDigit then failAhead .badNumber else return ['0']
    | none => return ['0']
  else digits

/-- A number from its point on. -/
def fractionPart (positive : Bool) (significand dropped : Nat) : Read Number := do
  skip 1
  let part ← digits
  if part.isEmpty then
    match ← peek with
    | none => failAhead (.unfinished "a value")
    | some _ => failAhead .badNumber
  else
    let (significand, used) := absorb significand part
    let exponent : Int := (dropped : Int) - used
    if beginsExponent (← peek) then exponentPart positive significand exponent
    else real positive significand exponent

/-- A number behind its sign. -/
def number (positive : Bool) : Read Number := do
  match ← peek with
  | none => failHere (.unfinished "a value")
  | some first =>
      if !first.isDigit then
        skip 1
        failHere .badNumber
      else
        let whole ← wholeDigits
        let (significand, used) := absorb 0 whole
        let dropped := whole.length - used
        let mark ← peek
        if mark == some '.' then fractionPart positive significand dropped
        else if beginsExponent mark then exponentPart positive significand dropped
        else if dropped != 0 then real positive significand dropped
        else if positive then return .whole significand
        else if significand == 0 || 9223372036854775808 < significand then
          return .real (-Float.ofNat significand)
        else return .whole (-(significand : Int))

def signedNumber : Read Number := do
  if (← peek) == some '-' then
    skip 1
    number false
  else number true

def Number.found : Number → Found
  | .whole value => .whole value
  | .real value => .real value

/-! ### Strings -/

def hexValue? (c : Char) : Option Nat :=
  if c.isDigit then some (c.toNat - 0x30)
  else if 'a' ≤ c && c ≤ 'f' then some (c.toNat - 0x57)
  else if 'A' ≤ c && c ≤ 'F' then some (c.toNat - 0x37)
  else none

/-- Four hexadecimal digits. -/
def hexEscape : Read Nat := do
  let found := (← get).rest.take 4
  let bytes : Nat := found.foldl (fun size c => size + c.utf8Size) 0
  skip found.length
  if bytes < 4 then failHere (.unfinished "a string")
  match found.mapM hexValue? with
  | none => failHere .badEscape
  | some values => return values.foldl (fun value digit => value * 16 + digit) 0

/-- The second half of a surrogate pair, and the character that both halves stand for. -/
def secondHalf (first : Nat) : Read Char := do
  match ← next with
  | none => failHere (.unfinished "a string")
  | some c => if c != '\\' then failHere .brokenSurrogate
  match ← next with
  | none => failHere (.unfinished "a string")
  | some c => if c != 'u' then failHere .brokenSurrogate
  let second ← hexEscape
  if second < 0xDC00 || 0xDFFF < second then failHere .loneSurrogate
  return Char.ofNat ((first - 0xD800) * 0x400 + (second - 0xDC00) + 0x10000)

/-- The character that the rest of an escape stands for. -/
def escape : Read Char := do
  match ← next with
  | none => failHere (.unfinished "a string")
  | some '"' => return '"'
  | some '\\' => return '\\'
  | some '/' => return '/'
  | some 'b' => return '\x08'
  | some 'f' => return '\x0c'
  | some 'n' => return '\n'
  | some 'r' => return '\r'
  | some 't' => return '\t'
  | some 'u' =>
      let first ← hexEscape
      if 0xDC00 ≤ first && first ≤ 0xDFFF then failHere .loneSurrogate
      else if 0xD800 ≤ first && first ≤ 0xDBFF then secondHalf first
      else return Char.ofNat first
  | some _ => failHere .badEscape

/-- The characters of a string up to its closing quote, last first; the bound is on their number. -/
def characters : Nat → List Char → Read (List Char)
  | 0, _ => failHere (.unfinished "a string")
  | count + 1, found => do
      match ← next with
      | none => failHere (.unfinished "a string")
      | some '"' => return found
      | some '\\' => characters count ((← escape) :: found)
      | some c =>
          if c.toNat < 0x20 then failHere .controlCharacter else characters count (c :: found)

def string : Read String := do
  let found ← characters ((← get).rest.length + 1) []
  return String.ofList found.reverse

/-! ### Values that are passed over -/

/-- Passes over a string behind its opening quote. -/
def passString : Nat → Read Unit
  | 0 => failHere (.unfinished "a string")
  | count + 1 => do
      match ← peek with
      | none => failHere (.unfinished "a string")
      | some '"' => skip 1
      | some '\\' =>
          skip 1
          match ← next with
          | none => failHere (.unfinished "a string")
          | some 'u' =>
              let _ ← hexEscape
          | some c => unless ['"', '\\', '/', 'b', 'f', 'n', 'r', 't'].contains c do failHere .badEscape
          passString count
      | some c =>
          if c.toNat < 0x20 then failHere .controlCharacter
          skip 1
          passString count

/-- Passes over a number behind its sign. -/
def passNumber : Read Unit := do
  match ← next with
  | some '0' =>
      if ((← peek).map Char.isDigit).getD false then failAhead .badNumber
  | some c =>
      if c.isDigit then
        let _ ← digits
      else failHere .badNumber
  | none => failHere .badNumber
  if (← peek) == some '.' then
    skip 1
    if (← digits).isEmpty then failAhead .badNumber
  if beginsExponent (← peek) then
    skip 1
    let sign ← peek
    if sign == some '+' || sign == some '-' then skip 1
    match ← next with
    | some c => unless c.isDigit do failHere .badNumber
    | none => failHere .badNumber
    let _ ← digits

mutual

/-- Passes over a value of any form. -/
def passValue : Nat → Read Unit
  | 0 => failHere .expectedValue
  | count + 1 => do
      match ← peekPart with
      | none => failAhead (.unfinished "a value")
      | some 'n' => skip 1; literal ['u', 'l', 'l']
      | some 't' => skip 1; literal ['r', 'u', 'e']
      | some 'f' => skip 1; literal ['a', 'l', 's', 'e']
      | some '-' => skip 1; passNumber
      | some '"' => skip 1; passString ((← get).rest.length + 1)
      | some '[' =>
          skip 1
          match ← peekPart with
          | none => failAhead (.unfinished "a list")
          | some ']' => skip 1
          | some _ => passItems count
      | some '{' =>
          skip 1
          match ← peekPart with
          | none => failAhead (.unfinished "an object")
          | some '}' => skip 1
          | some _ => passFields count
      | some c => if c.isDigit then passNumber else failAhead .expectedValue

def passItems : Nat → Read Unit
  | 0 => failHere .expectedValue
  | count + 1 => do
      passValue count
      match ← peekPart with
      | none => failAhead (.unfinished "a list")
      | some ',' => skip 1; passItems count
      | some ']' => skip 1
      | some _ => failAhead (.expectedComma ']')

def passFields : Nat → Read Unit
  | 0 => failHere .expectedValue
  | count + 1 => do
      match ← peekPart with
      | none => failAhead (.unfinished "an object")
      | some '"' => skip 1; passString ((← get).rest.length + 1)
      | some _ => failAhead .keyNotText
      match ← peekPart with
      | none => failAhead (.unfinished "an object")
      | some ':' => skip 1
      | some _ => failAhead .expectedColon
      passValue count
      match ← peekPart with
      | none => failAhead (.unfinished "an object")
      | some ',' => skip 1; passFields count
      | some '}' => skip 1
      | some _ => failAhead (.expectedComma '}')

end

/-! ### Values of a given form -/

/-- Refuses the value that is next, since another one is expected. -/
def refuse {α : Type} (expected : String) : Read α := do
  match ← peek with
  | some 'n' => skip 1; literal ['u', 'l', 'l']; failHere (.wrongType .null expected)
  | some 't' => skip 1; literal ['r', 'u', 'e']; failHere (.wrongType (.bool true) expected)
  | some 'f' => skip 1; literal ['a', 'l', 's', 'e']; failHere (.wrongType (.bool false) expected)
  | some '"' =>
      skip 1
      let value ← string
      failHere (.wrongType (.text value) expected)
  | some '[' => failHere (.wrongType .list expected)
  | some '{' => failHere (.wrongType .object expected)
  | some c =>
      if c == '-' || c.isDigit then
        let value ← signedNumber
        failHere (.wrongType value.found expected)
      else failAhead .expectedValue
  | none => failAhead .expectedValue

/-- The first character of a value. -/
def opening : Read Char := do
  match ← peekPart with
  | none => failAhead (.unfinished "a value")
  | some c => return c

def boolean : Read Json := do
  match ← opening with
  | 't' => skip 1; literal ['r', 'u', 'e']; return .bool true
  | 'f' => skip 1; literal ['a', 'l', 's', 'e']; return .bool false
  | _ => refuse "a boolean"

def beginsNumber (c : Char) : Bool :=
  c == '-' || c.isDigit

def integer (low high : Int) (name : String) : Read Json := do
  if beginsNumber (← opening) then
    match ← signedNumber with
    | .whole value =>
        if low ≤ value ∧ value ≤ high then return .whole value
        else failHere (.outOfRange value name)
    | .real value => failHere (.wrongType (.real value) name)
  else refuse name

def floating : Read Json := do
  if beginsNumber (← opening) then
    match ← signedNumber with
    | .whole value => return .real (Float.ofInt value)
    | .real value => return .real value
  else refuse "f64"

/-- A string where another thing may be expected under a name. -/
def textFor (expected : String) : Read String := do
  match ← opening with
  | '"' => skip 1; string
  | _ => refuse expected

/-- One of some words, alone or as the name of an empty field. -/
def choice (words : List String) : Read Json := do
  let known (word : String) : Read Json := do
    if words.contains word then return .text word else failHere (.unknownWord word words)
  match ← opening with
  | '"' =>
      skip 1
      known (← string)
  | '{' =>
      skip 1
      let found ← known (← textFor "variant identifier")
      match ← peekPart with
      | none => failAhead (.unfinished "an object")
      | some ':' => skip 1
      | some _ => failAhead .expectedColon
      match ← opening with
      | 'n' => skip 1; literal ['u', 'l', 'l']
      | _ => refuse "unit"
      match ← peekPart with
      | none => failHere (.unfinished "an object")
      | some '}' => skip 1; return found
      | some _ => failHere .expectedValue
  | _ => failAhead .expectedValue

/-- The colon behind a field's name. -/
def colon : Read Unit := do
  match ← peekPart with
  | none => failAhead (.unfinished "an object")
  | some ':' => skip 1
  | some _ => failAhead .expectedColon

/-- The name of the next field of an object, if there is one; a comma stands before every field
but the first. -/
def fieldName? (first : Bool) : Read (Option String) := do
  match ← peekPart with
  | none => failAhead (.unfinished "an object")
  | some '}' => return none
  | some c =>
      if first then
        if c == '"' then
          skip 1
          return some (← string)
        else failAhead .keyNotText
      else if c == ',' then
        skip 1
        match ← peekPart with
        | none => failAhead (.unfinished "a value")
        | some '"' => skip 1; return some (← string)
        | some '}' => failAhead .trailingComma
        | some _ => failAhead .keyNotText
      else failAhead (.expectedComma '}')

/-- Whether there is a further item in a list; a comma stands before every item but the first. -/
def hasItem (first : Bool) : Read Bool := do
  match ← peekPart with
  | none => failAhead (.unfinished "a list")
  | some ']' => return false
  | some c =>
      if first then return true
      else if c == ',' then
        skip 1
        match ← peekPart with
        | none => failAhead (.unfinished "a value")
        | some ']' => failAhead .trailingComma
        | some _ => return true
      else failAhead (.expectedComma ']')

def closeObject : Read Unit := do
  match ← peekPart with
  | none => failAhead (.unfinished "an object")
  | some '}' => skip 1
  | some ',' => failAhead .trailingComma
  | some _ => failAhead .trailingText

def closeList : Read Unit := do
  match ← peekPart with
  | none => failAhead (.unfinished "a list")
  | some ']' => skip 1
  | some ',' =>
      skip 1
      if (← peekPart) == some ']' then failAhead .trailingComma else failAhead .trailingText
  | some _ => failAhead .trailingText

/-- Ends a record that has a fault of its own, which is reported behind the closing mark if that
is next. -/
def failClosing {α : Type} (close : Char) (fault : Fault) : Read α := do
  if (← peekPart) == some close then skip 1
  failHere fault

/-- A reader of a field: its name, its value, and what it holds when it is absent. -/
structure FieldReader where
  name : String
  read : Read Json
  /-- What the field holds when an object lacks it. -/
  absent : Option Json
  /-- What the field holds when a list ends before it. -/
  short : Option Json

/-- The items of a list, last first. -/
def items (item : Read Json) : Nat → List Json → Read (List Json)
  | 0, found => return found
  | count + 1, found => do
      if ← hasItem found.isEmpty then items item count ((← item) :: found) else return found

/-- The entries of a map, last first. -/
def entries (item : Read Json) : Nat → List (String × Json) → Read (List (String × Json))
  | 0, found => return found
  | count + 1, found => do
      match ← fieldName? found.isEmpty with
      | none => return found
      | some name =>
          colon
          entries item count ((name, ← item) :: found)

/-- The known fields of an object in the order of the text, or the fault of a repeated one. -/
def recordEntries (readers : List FieldReader) :
    Nat → Bool → List (String × Json) → Read (Except Fault (List (String × Json)))
  | 0, _, found => return .ok found
  | count + 1, first, found => do
      match ← fieldName? first with
      | none => return .ok found
      | some name =>
          match readers.find? (fun reader => reader.name == name) with
          | none =>
              colon
              passValue ((← get).rest.length + 1)
              recordEntries readers count false found
          | some reader =>
              if found.any (fun entry => entry.1 == name) then return .error (.duplicateField name)
              else
                colon
                recordEntries readers count false ((name, ← reader.read) :: found)

/-- The fields of a record in order, each from the entries found or from its default. -/
def filled (found : List (String × Json)) : List FieldReader → Except Fault (List (String × Json))
  | [] => .ok []
  | reader :: rest =>
      match (found.find? (fun entry => entry.1 == reader.name)).map Prod.snd <|> reader.absent with
      | none => .error (.missingField reader.name)
      | some value => (filled found rest).map ((reader.name, value) :: ·)

/-- The fields of a record from a list, or the fault of a list that is too short. -/
def recordItems (expected : String) :
    List FieldReader → Nat → Read (Except Fault (List (String × Json)))
  | [], _ => return .ok []
  | reader :: rest, index => do
      if ← hasItem (index == 0) then
        let value ← reader.read
        return (← recordItems expected rest (index + 1)).map ((reader.name, value) :: ·)
      else
        match reader.short with
        | none => return .error (.wrongLength index expected)
        | some value =>
            return (← recordItems expected rest (index + 1)).map ((reader.name, value) :: ·)

/-- A record, as an object or as the list of its fields. -/
def record (name : String) (readers : List FieldReader) : Read Json := do
  match ← opening with
  | '{' =>
      skip 1
      let found ← recordEntries readers ((← get).rest.length + 1) true []
      match found.bind (fun entries => filled entries readers) with
      | .error fault => failClosing '}' fault
      | .ok fields =>
          closeObject
          return .object fields
  | '[' =>
      skip 1
      let unit := if readers.length = 1 then " element" else " elements"
      let expected := "struct " ++ name ++ " with " ++ toString readers.length ++ unit
      match ← recordItems expected readers 0 with
      | .error fault => failClosing ']' fault
      | .ok fields =>
          closeList
          return .object fields
  | _ => refuse ("struct " ++ name)

mutual

def value : Schema → Read Json
  | .boolean => boolean
  | .integer low high name => integer low high name
  | .real => floating
  | .text => (textFor "a string").map Json.text
  | .optional inner => do
      if (← peekPart) == some 'n' then
        skip 1
        literal ['u', 'l', 'l']
        return .null
      else value inner
  | .list inner => do
      match ← opening with
      | '[' =>
          skip 1
          let found ← items (value inner) ((← get).rest.length + 1) []
          closeList
          return .list found.reverse
      | _ => refuse "a sequence"
  | .map inner => do
      match ← opening with
      | '{' =>
          skip 1
          let found ← entries (value inner) ((← get).rest.length + 1) []
          closeObject
          return .object (NameMap.ofList found.reverse)
      | _ => refuse "a map"
  | .choice words => choice words
  | .record name fields => record name (fieldReaders fields)

def fieldReaders : List (String × Schema × Option Json) → List FieldReader
  | [] => []
  | (name, schema, fallback) :: rest =>
      { name := name
        read := value schema
        absent := Schema.whenAbsent? (schema, fallback)
        short := fallback } :: fieldReaders rest

end

/-- A value of a given form and nothing behind it. -/
def document (schema : Schema) : Read Json := do
  let found ← value schema
  match ← peekPart with
  | none => return found
  | some _ => failAhead .trailingText

/-! ### Values of any form -/

mutual

def anyValue : Nat → Read Json
  | 0 => failHere .expectedValue
  | count + 1 => do
      match ← opening with
      | 'n' => skip 1; literal ['u', 'l', 'l']; return .null
      | 't' => skip 1; literal ['r', 'u', 'e']; return .bool true
      | 'f' => skip 1; literal ['a', 'l', 's', 'e']; return .bool false
      | '"' => skip 1; return .text (← string)
      | '[' =>
          skip 1
          let found ← anyItems count []
          closeList
          return .list found.reverse
      | '{' =>
          skip 1
          let found ← anyFields count []
          closeObject
          return .object found.reverse
      | c =>
          if beginsNumber c then
            match ← signedNumber with
            | .whole value => return .whole value
            | .real value => return .real value
          else failAhead .expectedValue

def anyItems : Nat → List Json → Read (List Json)
  | 0, found => return found
  | count + 1, found => do
      if ← hasItem found.isEmpty then
        let item ← anyValue count
        anyItems count (item :: found)
      else return found

def anyFields : Nat → List (String × Json) → Read (List (String × Json))
  | 0, found => return found
  | count + 1, found => do
      match ← fieldName? found.isEmpty with
      | none => return found
      | some name =>
          colon
          let item ← anyValue count
          anyFields count ((name, item) :: found)

end

end Read

def Cursor.start (text : String) : Cursor :=
  ⟨text.toList, 1, 0⟩

/-- The value of a given form that a text holds, or why it holds none. -/
def ofText (schema : Schema) (text : String) : Except Error Json :=
  ((Read.document schema).run (Cursor.start text)).map Prod.fst

/-- The value that a text holds, whatever its form. -/
def ofText? (text : String) : Option Json :=
  let read : Read Json := do
    let found ← Read.anyValue (text.length + 1)
    match ← Read.peekPart with
    | none => return found
    | some _ => Read.failAhead .trailingText
  match read.run (Cursor.start text) with
  | .ok (json, _) => some json
  | .error _ => none

end DocDrift.Json
