import DocDrift.Source.Members

/-!
Expressions. Which operators bind more tightly does not matter for whether a text is accepted, so
an expression is read as operands with operators between them; what an operand is decides what may
follow it.
-/

set_option autoImplicit false

namespace DocDrift.Source

open Parse

/-! ### Words and marks with a role in expressions -/

/-- Marks that may stand before an operand. -/
def unaryMarks : List String := ["!", "~", "+", "-", "@", "++", "--"]

/-- Words that may stand before an operand. -/
def unaryWords : List String :=
  ["print", "clone", "throw", "include", "include_once", "require", "require_once"]

/-- Marks between operands. -/
def binaryMarks : List String := [
  "+", "-", "*", "/", "%", "**", ".", "<<", ">>", "&", "|", "^", "&&", "||", "??",
  "==", "!=", "<>", "===", "!==", "<", ">", "<=", ">=", "<=>"]

/-- Words between operands. -/
def binaryWords : List String := ["and", "or", "xor", "instanceof"]

/-- Marks that assign the result of an operation. -/
def assigningMarks : List String := [
  "+=", "-=", "*=", "/=", "%=", "**=", ".=", "<<=", ">>=", "&=", "|=", "^=", "??="]

def castTypes : List String := [
  "int", "integer", "bool", "boolean", "float", "double", "real", "string", "array", "object",
  "binary", "unset"]

/-- Whether nothing that could be an operand is next. -/
def endsOperand : Parse Bool := do
  let token ← peek
  return token.kind = .finish || token.closed ||
    [";", ")", "]", ",", closeBrace, "=>"].any token.isMark

/-! ### Operands -/

/-- A conversion in parentheses or another operator before an operand, if one is next. -/
def unary? : Parse (Option Unit) := do
  let token ← peek
  if token.kind = .mark && unaryMarks.contains token.text then
    let _ ← take
    return some ()
  else if unaryWords.contains token.keyword && !(← ahead 1).isMark "::" then
    let _ ← take
    return some ()
  else if token.isMark "(" && castTypes.contains (← ahead 1).keyword && (← ahead 2).isMark ")" then
    let _ ← take
    let _ ← take
    let _ ← take
    return some ()
  else return none

/-- A variable: marks, then a word or an expression in braces. -/
def variablePart (nested : Nesting) : Parse Unit := do
  mark "$"
  let _ ← many do
    if ← mark? "$" then return some () else return none
  if ← mark? openBrace then
    nested.value
    mark closeBrace
  else
    let _ ← word

/-- The name of a member behind an arrow. -/
def memberPart (nested : Nesting) : Parse Unit := do
  if ← isMark "$" then variablePart nested
  else if ← mark? openBrace then
    nested.value
    mark closeBrace
  else
    let _ ← word

/-- An element of a list; the result tells whether it can only be assigned to. -/
def element (nested : Nesting) : Parse Bool := do
  if ← mark? "..." then
    nested.value
    return false
  else if ← mark? "&" then
    nested.value
    return false
  else
    let first ← nested.expression
    if ← mark? "=>" then
      if ← mark? "&" then
        nested.value
        return false
      else return (← nested.expression) = .pattern
    else return first = .pattern

/-- Elements up to a closing mark; the result tells whether the list can only be assigned to, as
one with gaps can. -/
def elementsUntil (nested : Nesting) (close : String) : Parse Bool := do
  let flags ← many do
    if ← isMark close then return none
    else if ← mark? "," then return some true
    else
      let flag ← element nested
      unless (← mark? ",") || (← isMark close) do unclosed close
      return some flag
  mark close
  return flags.any id

/-- What a new object is made from: a class by name, a variable without calls, an expression in
parentheses, or a class without a name. -/
def newObject (nested : Nesting) : Parse Unit := do
  attributes nested
  let _ ← if (← isKeyword "readonly") && (← ahead 1).keyword == "class" then some <$> advance
    else pure none
  if ← keyword? "class" then
    if ← isMark "(" then arguments nested
    let _ ← typeBody nested .ofClass
  else
    if ← isMark "$" then
      variablePart nested
      let _ ← many do
        if ← mark? "[" then
          unless ← isMark "]" do nested.value
          mark "]"
          return some ()
        else if (← mark? "->") || (← mark? "?->") then
          memberPart nested
          return some ()
        else if ← mark? "::" then
          variablePart nested
          return some ()
        else return none
    else if ← mark? "(" then
      nested.value
      mark ")"
    else
      let _ ← qualifiedName
    if ← isMark "(" then arguments nested

/-- An anonymous function, after its attributes. -/
def closure (nested : Nesting) : Parse Unit := do
  let _ ← keyword? "static"
  if ← keyword? "fn" then
    let _ ← mark? "&"
    let _ ← parameters nested
    let _ ← resultType?
    mark "=>"
    nested.value
  else
    keyword "function"
    let _ ← mark? "&"
    let _ ← parameters nested
    if ← keyword? "use" then
      mark "("
      let _ ← commaListUntil ")" do
        let _ ← mark? "&"
        variableName
      mark ")"
    let _ ← resultType?
    let _ ← nested.block

/-- The arms of a selection, in braces. -/
def selection (nested : Nesting) : Parse Unit := do
  mark "("
  nested.value
  mark ")"
  mark openBrace
  let _ ← commaListUntil closeBrace do
    if (← isKeyword "default") && ((← ahead 1).isMark "=>" || (← ahead 1).isMark ",") then
      let _ ← take
      let _ ← mark? ","
    else
      let _ ← commaListUntil "=>" nested.value
    mark "=>"
    nested.value
  mark closeBrace

/-- A quotation with the code embedded in it; only the whole text is kept. -/
def quotation (nested : Nesting) : Parse Unit := do
  let token ← take
  silently do
    let _ ← many do
      if (← peek).kind = .embed then
        let _ ← advance
        nested.value
        if (← peek).kind = .unembed then
          let _ ← advance
          return some ()
        else misplaced
      else return none
  modify fun cursor => { cursor with line := token.lastLine }

/-- The words of a generator that hands out a value. -/
def handout (nested : Nesting) : Parse Unit := do
  if ← keyword? "from" then nested.value
  else if ← endsOperand then return ()
  else
    nested.value
    if ← mark? "=>" then nested.value

def wordOperand (nested : Nesting) : Parse Shape := do
  let next ← ahead 1
  match (← peek).keyword with
  | "new" =>
      let _ ← take
      newObject nested
      return .base
  | "fn" =>
      closure nested
      return .value
  | "function" =>
      closure nested
      return .value
  | "static" =>
      if next.keyword == "fn" || next.keyword == "function" then
        closure nested
        return .value
      else
        let _ ← take
        return .base
  | "yield" =>
      let _ ← take
      handout nested
      return .value
  | "match" =>
      let _ ← take
      selection nested
      return .value
  | "array" =>
      let _ ← take
      mark "("
      if ← elementsUntil nested ")" then return .pattern else return .base
  | "list" =>
      let _ ← take
      mark "("
      let _ ← elementsUntil nested ")"
      return .pattern
  | _ =>
      let _ ← qualifiedName
      return .base

/-- An operand without what may follow it. -/
def primary (nested : Nesting) : Parse Shape := do
  let token ← peek
  match token.kind with
  | .word _ => wordOperand nested
  | .number =>
      let _ ← take
      return .value
  | .quotation =>
      quotation nested
      return .base
  | .mark =>
      match token.text with
      | "$" =>
          variablePart nested
          return .place
      | "\\" =>
          let _ ← qualifiedName
          return .base
      | "(" =>
          let _ ← take
          nested.value
          mark ")"
          return .base
      | "[" =>
          let _ ← take
          if ← elementsUntil nested "]" then return .pattern else return .list
      | "#[" =>
          attributes nested
          closure nested
          return .value
      | _ => misplaced
  | _ => misplaced

/-- One step further into an operand, if one is next. -/
def further? (nested : Nesting) (shape : Shape) : Parse (Option Shape) := do
  if shape = .pattern || shape = .value then return none
  match (← peek).text, (← peek).kind with
  | "[", .mark =>
      let _ ← take
      unless ← isMark "]" do nested.value
      mark "]"
      return some .place
  | "(", .mark =>
      arguments nested
      return some .place
  | "->", .mark =>
      let _ ← take
      memberPart nested
      return some .place
  | "?->", .mark =>
      let _ ← take
      memberPart nested
      return some .place
  | "::", .mark =>
      let _ ← take
      if ← isMark "$" then
        variablePart nested
        return some .place
      else
        memberPart nested
        return some .base
  | "++", .mark =>
      if shape = .place then
        let _ ← take
        return some .value
      else return none
  | "--", .mark =>
      if shape = .place then
        let _ ← take
        return some .value
      else return none
  | _, _ => return none

/-- Everything that leads further into an operand, at most a number of steps. -/
def furtherUpTo (nested : Nesting) : Nat → Shape → Parse Shape
  | 0, shape => return shape
  | count + 1, shape => do
      match ← further? nested shape with
      | none => return shape
      | some next => furtherUpTo nested count next

def operand (nested : Nesting) : Parse Shape := do
  let before ← many unary?
  let first ← primary nested
  let shape ← furtherUpTo nested (← get).bound first
  if shape = .pattern && !before.isEmpty then misplaced
  return shape

/-! ### Operators -/

/-- Whether an operator between operands is next. -/
def isBinary : Parse Bool := do
  let token ← peek
  return (token.kind = .mark && binaryMarks.contains token.text) ||
    binaryWords.contains token.keyword

/-- The operators and operands behind an operand, at most a number of them. -/
def operatorsUpTo (nested : Nesting) : Nat → Shape → Parse Shape
  | 0, shape => return shape
  | count + 1, shape => do
      let token ← peek
      if token.isMark "=" && (shape = .place || shape = .list || shape = .pattern) then
        let _ ← take
        let _ ← mark? "&"
        nested.value
        return .value
      else if shape = .place && token.kind = .mark && assigningMarks.contains token.text then
        let _ ← take
        nested.value
        return .value
      else if shape = .pattern then return .pattern
      else if token.isMark "?" then
        let _ ← take
        unless ← isMark ":" do nested.value
        mark ":"
        nested.value
        return .value
      else if ← isBinary then
        let _ ← take
        let right ← operand nested
        if right = .pattern && !(← isMark "=") then misplaced
        operatorsUpTo nested count right
      else return shape

/-- An expression. The shape of a single operand is kept, since it may be assigned to. -/
def expression (nested : Nesting) : Parse Shape := do
  let first ← operand nested
  let single := !(← isBinary)
  let shape ← operatorsUpTo nested (← get).bound first
  return if single then shape else .value

end DocDrift.Source
