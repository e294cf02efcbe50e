import DocDrift.Source.Cursor

/-!
What callables are made of: attributes, arguments, parameters, the accessors of a property, and the
header from the name to the result type.
-/

set_option autoImplicit false

namespace DocDrift.Source

open Parse

/-- The arguments of a call; `(...)` stands for the callable itself. -/
def arguments (nested : Nesting) : Parse Unit := do
  mark "("
  if (← isMark "...") && (← ahead 1).isMark ")" then
    let _ ← take
  else
    let _ ← commaListUntil ")" do
      if (← peek).isWord && (← ahead 1).isMark ":" then
        let _ ← take
        let _ ← take
      let _ ← mark? "&"
      let _ ← mark? "..."
      nested.value
  mark ")"

/-- Attributes before a declaration, none of whose text is kept. -/
def attributes (nested : Nesting) : Parse Unit :=
  silently do
    let _ ← many do
      if ← mark? "#[" then
        let _ ← commaListUntil "]" do
          let _ ← qualifiedName
          if ← isMark "(" then arguments nested
        mark "]"
        return some ()
      else return none

structure Modifiers where
  /-- The first visibility, if one is given; one that is limited to writing counts as public. -/
  visibility : Option Visibility
  isStatic : Bool
  isAbstract : Bool
  isFinal : Bool
  /-- How many modifiers there are. -/
  count : Nat

def Modifiers.none : Modifiers := ⟨.none, false, false, false, 0⟩

def visibilityOf? : String → Option Visibility
  | "public" => some .isPublic
  | "protected" => some .isProtected
  | "private" => some .isPrivate
  | _ => none

/-- A visibility, which may be limited to writing; its text is not kept. -/
def visibility? : Parse (Option Visibility) := do
  match visibilityOf? (← peek).keyword with
  | none => return none
  | some visibility =>
      let _ ← advance
      if (← isMark "(") && (← ahead 1).keyword == "set" && (← ahead 2).isMark ")" then
        let _ ← advance
        let _ ← advance
        let _ ← advance
        return some .isPublic
      else return some visibility

/-- One more modifier, if one is next. -/
def modifier? (sofar : Modifiers) : Parse (Option Modifiers) := do
  match ← visibility? with
  | some visibility =>
      return some { sofar with
        visibility := some (sofar.visibility.getD visibility)
        count := sofar.count + 1 }
  | none =>
      let counted := { sofar with count := sofar.count + 1 }
      match (← peek).keyword with
      | "static" => let _ ← take; return some { counted with isStatic := true }
      | "abstract" => let _ ← take; return some { counted with isAbstract := true }
      | "final" => let _ ← take; return some { counted with isFinal := true }
      | "var" => let _ ← take; return some counted
      | "readonly" => let _ ← advance; return some counted
      | _ => return none

/-- All modifiers that are next, at most a number of them. -/
def modifiersUpTo : Nat → Modifiers → Parse Modifiers
  | 0, sofar => return sofar
  | count + 1, sofar => do
      match ← modifier? sofar with
      | none => return sofar
      | some more => modifiersUpTo count more

def modifiers : Parse Modifiers := do
  modifiersUpTo (← get).bound Modifiers.none

/-- A variable's mark and its word. -/
def variableName : Parse PropertyName := do
  mark "$"
  let gap := (← peek).gap
  return ⟨gap, ← word⟩

def initialValue? (nested : Nesting) : Parse Bool := do
  if ← mark? "=" then
    let _ ← mark? "&"
    nested.value
    return true
  else return false

/-- Whether a type stands before the variable that must follow. -/
def startsType : Parse Bool := do
  let token ← peek
  return !(token.isMark "$" || token.isMark "&" || token.isMark "...")

/-- The body of an accessor or of a short function. -/
def accessorBody (nested : Nesting) : Parse Unit := do
  if ← mark? ";" then return ()
  else if ← mark? "=>" then
    nested.value
    semicolon
  else
    let _ ← nested.block

mutual

/-- A parameter; with a visibility it declares a property too, unless it is taken by reference. -/
def parameterAt (nested : Nesting) : Nat → Parse Parameter
  | 0 => misplaced
  | depth + 1 => do
      let (promoted, leaves) ← captured do
        attributes nested
        let visibility ← visibility?
        if visibility.isSome && (← isKeyword "readonly") then
          let _ ← advance
        let type ←
          if ← startsType then (fun typed => some typed.2) <$> captured typeReference
          else pure none
        let byReference ← mark? "&"
        if visibility.isNone then
          let _ ← mark? "..."
        let name ← variableName
        let _ ← initialValue? nested
        match visibility with
        | none => return none
        | some visibility =>
            if ← isMark openBrace then accessorsAt nested depth
            if byReference then return none
            else
              return some
                { name := name
                  visibility := visibility
                  isStatic := false
                  type := type
                  initial := []
                  docblock := none : Property }
      return ⟨leaves, promoted⟩

/-- The accessors of a property between braces. -/
def accessorsAt (nested : Nesting) : Nat → Parse Unit
  | 0 => misplaced
  | depth + 1 => do
      mark openBrace
      let _ ← many do
        if ← isMark closeBrace then return none
        attributes nested
        let _ ← modifiers
        let _ ← mark? "&"
        let _ ← word
        if ← isMark "(" then
          mark "("
          let _ ← commaListUntil ")" (parameterAt nested depth)
          mark ")"
        accessorBody nested
        return some ()
      mark closeBrace

end

def accessors (nested : Nesting) : Parse Unit := do
  accessorsAt nested (← get).bound

/-- The parameters of a callable, in parentheses. -/
def parameters (nested : Nesting) : Parse (List Parameter) := do
  let depth := (← get).bound
  mark "("
  let list ← commaListUntil ")" (parameterAt nested depth)
  mark ")"
  return list

/-- The type after a colon, if there is one. -/
def resultType? : Parse (Option (List String)) := do
  if ← mark? ":" then
    let ((), leaves) ← captured typeReference
    return some leaves
  else return none

/-- A named callable from its keyword to its result type. -/
def callableHeader (nested : Nesting) (visibility : Visibility) (isStatic : Bool)
    (docblock : Option String) : Parse Callable := do
  keyword "function"
  let _ ← mark? "&"
  let name ← word
  let parameters ← parameters nested
  let result ← resultType?
  return ⟨name, visibility, isStatic, parameters, result, docblock⟩

end DocDrift.Source
