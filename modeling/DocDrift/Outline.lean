import DocDrift.Source.Program
import DocDrift.Text.Line

/-!
The outline of a source file: a document that lists the declared types with their members, and the
free functions, in the order of the summary.
-/

set_option autoImplicit false

namespace DocDrift.Outline

/-- A text without the copies of another one that it starts with. -/
def withoutStarts (start : List Char) : Nat → List Char → List Char
  | 0, text => text
  | count + 1, text =>
      if !start.isEmpty && start.isPrefixOf text then
        withoutStarts start count (text.drop start.length)
      else text

/-- A documentation comment without its marks. -/
def bareComment (comment : String) : List Char :=
  let chars := comment.toList
  let opened := withoutStarts ['/', '*', '*'] chars.length chars
  (withoutStarts ['/', '*'] opened.length opened.reverse).reverse

/-- The lines of a documentation comment that describe what is documented: no blank lines, and none
that give a property of it. -/
def description (comment : String) : List (List Char) :=
  let bare (line : List Char) : List Char :=
    Text.trim ((Text.trim line).dropWhile (· == '*'))
  ((Text.plainLines (bareComment comment)).map bare).filter
    (fun line => !line.isEmpty && line.head? != some '@')

def line (text : String) : String :=
  text ++ "\n"

def code (text : String) : String :=
  "\x60" ++ text ++ "\x60"

/-- The entry of a method or a function, with the first line of its description. -/
def callableEntry (start : String) (member : Member) : String :=
  let entry := "- " ++ code (start ++ " " ++ member.name ++ member.signature)
  match (member.docblock.map description).getD [] with
  | first :: _ => line (entry ++ ": " ++ String.ofList first)
  | [] => line entry

def propertyEntry (property : Member) : String :=
  line ("- " ++ code (property.visibility.label ++ " $" ++ property.name) ++ " " ++
    property.signature)

/-- Entries under a heading, unless there are none. -/
def group (heading : String) (entries : List String) : String :=
  if entries.isEmpty then "" else "\n" ++ line heading ++ "\n" ++ String.join entries

def typeHeading (declared : TypeDeclaration) : String :=
  "\n" ++ line ("## " ++ declared.kind.label ++ " " ++ code declared.name) ++ "\n"

/-- What an outline says about a type before it lists the members. -/
def typeFacts (declared : TypeDeclaration) : String :=
  let about := (declared.docblock.map description).getD []
  (if about.isEmpty then ""
    else line (String.ofList (['\n'].intercalate about)) ++ "\n") ++
  (match declared.parent with
    | some parent => line ("- Extends: " ++ code parent)
    | none => "") ++
  (if declared.interfaces.isEmpty then ""
    else line ("- Implements: " ++ code ("\x60, \x60".intercalate declared.interfaces))) ++
  (if declared.modifiers.isAbstract then line "- Abstract" else "") ++
  (if declared.modifiers.isFinal then line "- Final" else "")

def typeSection (declared : TypeDeclaration) : String :=
  typeHeading declared ++ typeFacts declared ++
    group "### Properties" (declared.properties.map propertyEntry) ++
    group "### Methods"
      (declared.methods.map fun method => callableEntry method.visibility.label method)

def render (path : String) (summary : Summary) : String :=
  line ("# " ++ code path) ++
  (match summary.space with
    | some space => "\n" ++ line ("Namespace: " ++ code space)
    | none => "") ++
  String.join (summary.types.map typeSection) ++
  group "## Functions" (summary.functions.map (callableEntry "function"))

def ofSource (path source : String) : Except Source.SyntaxError String :=
  (Summary.ofSource source).map (render path)

end DocDrift.Outline
