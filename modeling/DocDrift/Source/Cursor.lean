import DocDrift.Source.Declared
import DocDrift.Source.SyntaxError
import DocDrift.Source.Token

/-!
Reading tokens from left to right. A reader takes tokens off a list, keeps the texts that
signatures are laid out from, and fails at the first token that does not fit. Expressions and
statements contain one another to any depth; a `Nesting` stands for the readers of what is nested.
-/

set_option autoImplicit false

namespace DocDrift.Source

/-- What remains of a text, and what was read of it. -/
structure Cursor where
  rest : List Token
  /-- The token that stands for the end of the text. -/
  finish : Token
  /-- More than the number of tokens of the whole text. -/
  bound : Nat
  /-- The line on which the last token read ends. -/
  line : Nat
  /-- The texts kept so far, last first. -/
  leaves : List String

abbrev Parse := StateT Cursor (Except SyntaxError)

namespace Parse

/-- The token some places ahead. -/
def ahead (count : Nat) : Parse Token := do
  let cursor ← get
  return (cursor.rest[count]?).getD cursor.finish

def peek : Parse Token := ahead 0

/-- Takes a token without keeping its text. -/
def advance : Parse Token := do
  let cursor ← get
  match cursor.rest with
  | [] => return cursor.finish
  | token :: rest =>
      set { cursor with rest := rest, line := token.lastLine }
      return token

/-- Takes a token and keeps its text. -/
def take : Parse Token := do
  let token ← advance
  modify fun cursor => { cursor with leaves := token.text :: cursor.leaves }
  return token

/-- Fails at the next token. -/
def misplaced {α : Type} : Parse α := do
  let token ← peek
  throw ⟨.misplaced token.text, token.firstLine⟩

/-- Fails behind the last token. -/
def missing {α : Type} (mark : String) : Parse α := do
  throw ⟨.missing mark, (← get).line⟩

def isMark (text : String) : Parse Bool :=
  return (← peek).isMark text

/-- From how many bytes on a token is too long to be one too many. -/
def longToken : Nat := 10

/-- Fails where a closing mark has to be. If the mark stands behind a short token, that token is
one too many; otherwise the mark is absent. -/
def unclosed {α : Type} (mark : String) : Parse α := do
  let token ← peek
  if (← ahead 1).isMark mark && token.text.utf8ByteSize < longToken then misplaced
  else missing mark

def isKeyword (text : String) : Parse Bool :=
  return (← peek).keyword == text

/-- Takes a mark if it is next. -/
def mark? (text : String) : Parse Bool := do
  if ← isMark text then
    let _ ← take
    return true
  else return false

/-- Takes a keyword if it is next. -/
def keyword? (text : String) : Parse Bool := do
  if ← isKeyword text then
    let _ ← take
    return true
  else return false

/-- Takes a mark that must be next. -/
def mark (text : String) : Parse Unit := do
  if ← mark? text then return ()
  else if text == ";" || text == ")" || text == "]" then unclosed text
  else misplaced

/-- Takes a keyword that must be next. -/
def keyword (text : String) : Parse Unit := do
  if ← keyword? text then return () else misplaced

/-- Ends a statement: a close tag does as well as the mark. -/
def semicolon : Parse Unit := do
  if ← mark? ";" then return ()
  else if (← peek).closed then return ()
  else unclosed ";"

/-- Takes a word that must be next. -/
def word : Parse Word := do
  match (← peek).kind with
  | .word spelling =>
      let _ ← take
      return spelling
  | _ => misplaced

/-- Repeats a reader until it finds nothing more, at most a number of times. -/
def manyUpTo {α : Type} (item : Parse (Option α)) : Nat → Parse (List α)
  | 0 => return []
  | count + 1 => do
      match ← item with
      | none => return []
      | some found => return found :: (← manyUpTo item count)

/-- Repeats a reader, which takes at least a token each time, until it finds nothing more. -/
def many {α : Type} (item : Parse (Option α)) : Parse (List α) := do
  manyUpTo item (← get).bound

/-- One or more items with a comma between neighbours. -/
def commaList {α : Type} (item : Parse α) : Parse (List α) := do
  let first ← item
  let more ← many do
    if ← mark? "," then return some (← item) else return none
  return first :: more

/-- Items up to a closing mark, which stays; a comma may follow the last one. -/
def commaListUntil {α : Type} (close : String) (item : Parse α) : Parse (List α) := do
  if ← isMark close then return []
  let first ← item
  let more ← many do
    if ← mark? "," then
      if ← isMark close then return none else return some (← item)
    else return none
  return first :: more

/-- A reader together with the texts it keeps. -/
def captured {α : Type} (reader : Parse α) : Parse (α × List String) := do
  let before := (← get).leaves
  modify fun cursor => { cursor with leaves := [] }
  let found ← reader
  let own := (← get).leaves
  modify fun cursor => { cursor with leaves := own ++ before }
  return (found, own.reverse)

/-- A reader that keeps no text. -/
def silently {α : Type} (reader : Parse α) : Parse α := do
  let before := (← get).leaves
  let found ← reader
  modify fun cursor => { cursor with leaves := before }
  return found

/-! ### Names and types -/

/-- A name of one or more parts, as it stands in the source. -/
def qualifiedName : Parse String := do
  let root ← if ← isMark "\\" then some <$> take else pure none
  let first ← peek
  let _ ← word
  let more ← many do
    if (← isMark "\\") && (← ahead 1).isWord then
      let separator ← take
      let part ← take
      return some (separator.gap ++ separator.text ++ part.gap ++ part.text)
    else return none
  let start := match root with
    | some separator => separator.text ++ first.gap ++ first.text
    | none => first.text
  return start ++ String.join more

/-- Names with a comma between neighbours, without the mark that a name may begin with. -/
def nameList : Parse (List String) :=
  commaList (unqualified <$> qualifiedName)

/-- A part of a union: a name, or an intersection in parentheses. -/
def typePart : Parse Unit := do
  if ← mark? "(" then
    let _ ← qualifiedName
    let _ ← many do
      if ← mark? "&" then
        let _ ← qualifiedName
        return some ()
      else return none
    mark ")"
  else
    let _ ← qualifiedName

/-- A type: optional, a union, an intersection or a single name. An `&` that stands before a
parameter is not part of its type. -/
def typeReference : Parse Unit := do
  if ← mark? "?" then
    let _ ← qualifiedName
  else
    typePart
    if ← isMark "|" then
      let _ ← many do
        if ← mark? "|" then
          typePart
          return some ()
        else return none
    else
      let _ ← many do
        if (← isMark "&") && ((← ahead 1).isWord || (← ahead 1).isMark "\\") then
          let _ ← take
          let _ ← qualifiedName
          return some ()
        else return none

end Parse

/-! ### Nesting -/

/-- What an operand allows to follow. -/
inductive Shape
  /-- A variable, a member or a call: it may be assigned to and read further into. -/
  | place
  /-- A list of elements, which an assignment may take apart. -/
  | list
  /-- A list with gaps, which is good for nothing else. -/
  | pattern
  /-- A name, a quotation or a parenthesis, which may be read further into. -/
  | base
  /-- A value that nothing but an operator may follow. -/
  | value
  deriving DecidableEq

/-- The readers of what is nested in a construct. -/
structure Nesting where
  expression : Parse Shape
  statement : Parse (List Item)

namespace Nesting

/-- An expression that has a value, so no list with gaps. -/
def value (nested : Nesting) : Parse Unit := do
  if (← nested.expression) = .pattern then Parse.misplaced

/-- Statements up to a token of some kind, which stays. -/
def statementsUntil (nested : Nesting) (stop : Token → Bool) : Parse (List Item) := do
  let groups ← Parse.many do
    let token ← Parse.peek
    if token.kind = .finish || stop token then return none
    else return some (← nested.statement)
  return groups.flatten

/-- Statements between braces. -/
def block (nested : Nesting) : Parse (List Item) := do
  Parse.mark openBrace
  let items ← nested.statementsUntil (fun token => token.isMark closeBrace)
  Parse.mark closeBrace
  return items

end Nesting

end DocDrift.Source
