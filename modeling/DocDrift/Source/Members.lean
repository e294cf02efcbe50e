import DocDrift.Source.Callable

/-!
The bodies of types: methods, properties, constants and the use of traits.
-/

set_option autoImplicit false

namespace DocDrift.Source

open Parse

def constant (nested : Nesting) : Parse Unit := do
  let _ ← word
  mark "="
  nested.value

/-- Constants after their keyword, all of one type if one is given. -/
def constants (nested : Nesting) : Parse Unit := do
  unless (← peek).isWord && (← ahead 1).isMark "=" do
    typeReference
  let _ ← commaList (constant nested)
  semicolon

/-- A method of a trait in a rule, with the trait it comes from if that is named. -/
def traitMethod : Parse Unit := do
  let _ ← qualifiedName
  if ← mark? "::" then
    let _ ← word

/-- A rule on the methods of used traits: one excludes another, or has a further name. -/
def traitRule : Parse Unit := do
  traitMethod
  if ← keyword? "insteadof" then
    let _ ← commaList qualifiedName
  else
    keyword "as"
    let visibility ← visibility?
    if visibility.isNone || (← peek).isWord then
      let _ ← word
  semicolon

/-- The use of traits in a type, after its keyword. -/
def traitUse : Parse Unit := do
  let _ ← commaList qualifiedName
  if ← mark? openBrace then
    let _ ← many do
      if ← isMark closeBrace then return none
      traitRule
      return some ()
    mark closeBrace
  else semicolon

/-- What a method does, or the end of its declaration. -/
def methodBody (nested : Nesting) : Parse Unit := do
  if ← isMark openBrace then
    let _ ← nested.block
  else semicolon

def method (nested : Nesting) (modifiers : Modifiers) (docblock : Option String) :
    Parse ClassMember := do
  let callable ← callableHeader nested (modifiers.visibility.getD .isPublic) modifiers.isStatic
    docblock
  methodBody nested
  return .method callable

def properties (nested : Nesting) (modifiers : Modifiers) (docblock : Option String) :
    Parse ClassMember := do
  if modifiers.count = 0 then misplaced
  let type ←
    if ← startsType then (fun typed => some typed.2) <$> captured typeReference else pure none
  let list ← commaList do
    let name ← variableName
    let (_, initial) ← captured (initialValue? nested)
    return { name := name
             visibility := modifiers.visibility.getD .isPublic
             isStatic := modifiers.isStatic
             type := type
             initial := initial
             docblock := docblock : Property }
  if ← isMark openBrace then accessors nested else semicolon
  return .properties list

def classMember (nested : Nesting) : Parse ClassMember := do
  let docblock := (← peek).doc
  attributes nested
  if ← keyword? "use" then
    traitUse
    return .other
  let modifiers ← modifiers
  if ← keyword? "const" then
    constants nested
    return .other
  else if ← isKeyword "function" then method nested modifiers docblock
  else properties nested modifiers docblock

/-- A member of an enumeration: a case, a method or the use of traits. -/
def enumMember (nested : Nesting) : Parse Unit := do
  let docblock := (← peek).doc
  attributes nested
  if ← keyword? "use" then traitUse
  else if ← keyword? "case" then
    let _ ← word
    let _ ← initialValue? nested
    semicolon
  else
    let modifiers ← modifiers
    let _ ← method nested modifiers docblock

/-- Members between braces. -/
def body {α : Type} (member : Parse α) : Parse (List α) := do
  mark openBrace
  let members ← many do
    if ← isMark closeBrace then return none else return some (← member)
  mark closeBrace
  return members

/-- Names after a keyword, if the keyword is there. -/
def namesAfter (text : String) : Parse (List String) := do
  if ← keyword? text then nameList else return []

/-- The parents, the interfaces and the members of a type, after its name if it has one. Only a
class implements interfaces, and a trait has no parents either. -/
def typeBody (nested : Nesting) (kind : TypeKind) :
    Parse (List String × List String × List ClassMember) := do
  let parents ← if kind = .ofTrait then pure [] else namesAfter "extends"
  let interfaces ← if kind = .ofClass then namesAfter "implements" else pure []
  let members ← body (classMember nested)
  return (parents, interfaces, members)

end DocDrift.Source
