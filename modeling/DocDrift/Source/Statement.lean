import DocDrift.Source.Expression

/-!
Statements. A statement yields the declarations that it makes at the level of the file: those of
nested blocks count, those inside functions, closures, types and enumerations do not.
-/

set_option autoImplicit false

namespace DocDrift.Source

open Parse

def condition (nested : Nesting) : Parse Unit := do
  mark "("
  nested.value
  mark ")"

/-- Expressions with commas between them, up to a closing mark. -/
def valuesUntil (nested : Nesting) (close : String) : Parse Unit := do
  unless ← isMark close do
    let _ ← commaList nested.value
  mark close

/-- Whether one of these keywords is next. -/
def stopsAt (keywords : List String) (token : Token) : Bool :=
  keywords.contains token.keyword

/-- The body of a loop: a statement, or statements between a colon and a closing keyword. -/
def loopBody (nested : Nesting) (close : String) : Parse (List Item) := do
  if ← mark? ":" then
    let items ← nested.statementsUntil (stopsAt [close])
    keyword close
    semicolon
    return items
  else nested.statement

/-! ### Branches -/

/-- The branches of a conditional whose bodies follow a colon. -/
def colonBranches (nested : Nesting) : Parse (List Item) := do
  let stops := stopsAt ["elseif", "else", "endif"]
  let first ← nested.statementsUntil stops
  let more ← many do
    if ← keyword? "elseif" then
      condition nested
      mark ":"
      return some (← nested.statementsUntil stops)
    else return none
  let last ←
    if ← keyword? "else" then
      mark ":"
      nested.statementsUntil stops
    else pure []
  keyword "endif"
  semicolon
  return first ++ more.flatten ++ last

/-- A conditional after its keyword. -/
def conditional (nested : Nesting) : Parse (List Item) := do
  condition nested
  if ← mark? ":" then colonBranches nested
  else
    let first ← nested.statement
    let more ← many do
      if ← keyword? "elseif" then
        condition nested
        return some (← nested.statement)
      else return none
    let last ← if ← keyword? "else" then nested.statement else pure []
    return first ++ more.flatten ++ last

/-- The cases of a selection, up to its closing token, which stays. -/
def cases (nested : Nesting) (close : Token → Bool) : Parse (List Item) := do
  let groups ← many do
    let token ← peek
    if close token then return none
    else
      if ← keyword? "case" then nested.value else keyword "default"
      unless ← mark? ":" do semicolon
      return some (← nested.statementsUntil
        (fun token => close token || stopsAt ["case", "default"] token))
  return groups.flatten

/-- A selection by value after its keyword. -/
def switch (nested : Nesting) : Parse (List Item) := do
  condition nested
  if ← mark? ":" then
    let items ← cases nested (stopsAt ["endswitch"])
    keyword "endswitch"
    semicolon
    return items
  else
    mark openBrace
    let items ← cases nested (fun token => token.isMark closeBrace)
    mark closeBrace
    return items

/-- A guarded block after its keyword, with the blocks that handle what goes wrong in it. -/
def guarded (nested : Nesting) : Parse (List Item) := do
  let first ← nested.block
  let more ← many do
    if ← keyword? "catch" then
      mark "("
      typeReference
      if ← isMark "$" then
        let _ ← variableName
      mark ")"
      return some (← nested.block)
    else if ← keyword? "finally" then return some (← nested.block)
    else return none
  if more.isEmpty then misplaced
  return first ++ more.flatten

/-! ### Loops -/

def whileLoop (nested : Nesting) : Parse (List Item) := do
  condition nested
  loopBody nested "endwhile"

/-- A loop with its condition at the end, after its keyword. -/
def doLoop (nested : Nesting) : Parse (List Item) := do
  let items ← nested.statement
  keyword "while"
  condition nested
  semicolon
  return items

/-- A counting loop after its keyword. -/
def forLoop (nested : Nesting) : Parse (List Item) := do
  mark "("
  valuesUntil nested ";"
  valuesUntil nested ";"
  valuesUntil nested ")"
  loopBody nested "endfor"

/-- What a loop over elements assigns to. -/
def loopTarget (nested : Nesting) : Parse Unit := do
  let _ ← mark? "&"
  let _ ← nested.expression

/-- A loop over elements after its keyword. -/
def foreachLoop (nested : Nesting) : Parse (List Item) := do
  mark "("
  nested.value
  keyword "as"
  loopTarget nested
  if ← mark? "=>" then loopTarget nested
  mark ")"
  loopBody nested "endforeach"

/-! ### Imports and namespaces -/

/-- The word that an import renames a name to, if it does. -/
def renaming? : Parse (Option String) := do
  if ← keyword? "as" then return some (← word).text else return none

/-- The kind of an import, when it is not a type. -/
def importKind : Parse Unit := do
  unless ← keyword? "function" do
    let _ ← keyword? "const"

/-- An import inside braces. -/
def groupedImport (space : String) : Parse Import := do
  importKind
  let name ← qualifiedName
  return ⟨space ++ "\\" ++ unqualified name, ← renaming?⟩

/-- An import from its name on. -/
def plainImport (name : String) : Parse Import := do
  return ⟨unqualified name, ← renaming?⟩

/-- Imports after their keyword: names with commas between them, or one namespace and the names
that are imported from it. -/
def imports : Parse (List Import) := do
  importKind
  let name ← qualifiedName
  if (← isMark "\\") && (← ahead 1).isMark openBrace then
    mark "\\"
    mark openBrace
    let list ← commaList (groupedImport (Text.trimmed (unqualified name)))
    mark closeBrace
    semicolon
    return list
  else
    let first ← plainImport name
    let more ← many do
      if ← mark? "," then return some (← plainImport (← qualifiedName)) else return none
    semicolon
    return first :: more

/-- A namespace after its keyword: for the rest of the file, or for a block. -/
def spaceDeclaration (nested : Nesting) : Parse (List Item) := do
  if ← isMark openBrace then
    return Item.space none :: (← nested.block)
  else
    let name := unqualified (← qualifiedName)
    if ← isMark openBrace then return Item.space (some name) :: (← nested.block)
    else
      semicolon
      return [.space (some name)]

/-! ### Declarations of types and functions -/

def typeDeclaration (nested : Nesting) (kind : TypeKind) (modifiers : Modifiers)
    (docblock : Option String) : Parse (List Item) := do
  let _ ← take
  let name ← word
  let (parents, interfaces, members) ← typeBody nested kind
  return [.type
    { kind := kind
      name := name
      parents := parents
      interfaces := interfaces
      modifiers := ⟨modifiers.isAbstract, modifiers.isFinal⟩
      members := members
      docblock := docblock }]

/-- An enumeration from its keyword on; a summary does not list it. -/
def enumeration (nested : Nesting) : Parse (List Item) := do
  keyword "enum"
  let _ ← word
  let _ ← resultType?
  let _ ← namesAfter "implements"
  let _ ← body (enumMember nested)
  return []

def functionDeclaration (nested : Nesting) (docblock : Option String) : Parse (List Item) := do
  let callable ← callableHeader nested .isPublic false docblock
  let _ ← nested.block
  return [.function callable]

def modifiedClass (nested : Nesting) (docblock : Option String) : Parse (List Item) := do
  let modifiers ← modifiers
  if ← isKeyword "class" then typeDeclaration nested .ofClass modifiers docblock else misplaced

/-! ### Other statements -/

def expressionStatement (nested : Nesting) : Parse (List Item) := do
  nested.value
  semicolon
  return []

/-- A directive that holds for a statement, a block or the rest of the file, after its keyword. -/
def directive (nested : Nesting) : Parse (List Item) := do
  mark "("
  let _ ← word
  mark "="
  nested.value
  mark ")"
  if ← mark? ";" then return []
  else if (← peek).closed then return []
  else loopBody nested "enddeclare"

/-- Variables that keep their value between calls, after the keyword. -/
def staticVariables (nested : Nesting) : Parse (List Item) := do
  let _ ← commaList do
    let _ ← variableName
    initialValue? nested
  semicolon
  return []

/-- A jump, which may say how many levels or what value it carries, after its keyword. -/
def jump (nested : Nesting) : Parse (List Item) := do
  unless ← endsOperand do nested.value
  semicolon
  return []

/-- The end of the program as a statement, after its keyword. -/
def exitStatement (nested : Nesting) : Parse (List Item) := do
  if ← mark? "(" then
    unless ← isMark ")" do nested.value
    mark ")"
  semicolon
  return []

/-- Expressions with commas between them, ended like a statement. -/
def valuesStatement (nested : Nesting) : Parse (List Item) := do
  let _ ← commaList nested.value
  semicolon
  return []

/-- A declaration that attributes may precede, or an expression. -/
def declaration (nested : Nesting) : Parse (List Item) := do
  let docblock := (← peek).doc
  if ← isMark "#[" then
    let plain ← get
    attributes nested
    let next ← ahead 1
    match (← peek).keyword with
    | "abstract" => modifiedClass nested docblock
    | "final" => modifiedClass nested docblock
    | "readonly" => modifiedClass nested docblock
    | "class" => typeDeclaration nested .ofClass Modifiers.none docblock
    | "interface" => typeDeclaration nested .ofInterface Modifiers.none docblock
    | "trait" => typeDeclaration nested .ofTrait Modifiers.none docblock
    | "enum" => enumeration nested
    | "function" =>
        if next.isWord || next.isMark "&" && (← ahead 2).isWord then
          functionDeclaration nested docblock
        else
          set plain
          expressionStatement nested
    | _ =>
        set plain
        expressionStatement nested
  else expressionStatement nested

def statement (nested : Nesting) : Parse (List Item) := do
  let token ← peek
  let next ← ahead 1
  let docblock := token.doc
  match token.keyword with
  | "" =>
      if token.isMark openBrace then nested.block
      else if ← mark? ";" then return []
      else declaration nested
  | "if" => let _ ← take; conditional nested
  | "switch" => let _ ← take; switch nested
  | "while" => let _ ← take; whileLoop nested
  | "do" => let _ ← take; doLoop nested
  | "for" => let _ ← take; forLoop nested
  | "foreach" => let _ ← take; foreachLoop nested
  | "try" => let _ ← take; guarded nested
  | "return" => let _ ← take; jump nested
  | "break" => let _ ← take; jump nested
  | "continue" => let _ ← take; jump nested
  | "echo" => let _ ← take; valuesStatement nested
  | "exit" => let _ ← take; exitStatement nested
  | "goto" =>
      let _ ← take
      let _ ← word
      semicolon
      return []
  | "global" =>
      let _ ← take
      let _ ← commaList (variablePart nested)
      semicolon
      return []
  | "unset" =>
      let _ ← take
      mark "("
      if ← isMark ")" then misplaced
      let _ ← commaListUntil ")" nested.value
      mark ")"
      semicolon
      return []
  | "declare" => let _ ← take; directive nested
  | "const" =>
      let _ ← take
      constants nested
      return []
  | "use" =>
      let _ ← take
      return [.imports (← imports)]
  | "namespace" =>
      if next.isMark "\\" then expressionStatement nested
      else
        let _ ← take
        spaceDeclaration nested
  | "static" =>
      if next.isMark "$" then
        let _ ← take
        staticVariables nested
      else expressionStatement nested
  | "abstract" => modifiedClass nested docblock
  | "final" => modifiedClass nested docblock
  | "readonly" => modifiedClass nested docblock
  | "class" => typeDeclaration nested .ofClass Modifiers.none docblock
  | "interface" => typeDeclaration nested .ofInterface Modifiers.none docblock
  | "trait" => typeDeclaration nested .ofTrait Modifiers.none docblock
  | "enum" => enumeration nested
  | "function" =>
      if next.isWord || next.isMark "&" && (← ahead 2).isWord then
        functionDeclaration nested docblock
      else expressionStatement nested
  | _ =>
      if next.isMark ":" then
        let _ ← take
        let _ ← take
        return []
      else expressionStatement nested

end DocDrift.Source
