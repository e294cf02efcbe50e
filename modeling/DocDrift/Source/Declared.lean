import DocDrift.Source.Word
import DocDrift.Summary
import DocDrift.Text.Blank
import DocDrift.Text.WordChar

/-!
What a source text declares, with every name still a word of the source. `summarize` turns the
declarations of a text into its summary; the signatures in it are laid out from the leaf texts that
the grammar keeps, so that neither blanks nor comments reach them.
-/

set_option autoImplicit false

namespace DocDrift.Source

/-! ### Signatures -/

/-- Whether a space belongs between two neighbouring leaf texts. -/
def spaced (left right : String) : Bool :=
  let joins (c : Char) : Bool := Text.isAlphanumeric c || c == '_'
  let leftJoins := (left.toList.getLast?.map joins).getD false
  let rightJoins := (right.toList.head?.map (fun c => joins c || c == '$')).getD false
  (leftJoins && rightJoins) || right == "=" || right == "=>" ||
    left == "=" || left == "=>" || left == ","

/-- Leaf texts on one line. -/
def layout : List String → String
  | [] => ""
  | [leaf] => leaf
  | left :: right :: rest =>
      left ++ (if spaced left right then " " else "") ++ layout (right :: rest)

/-! ### Declarations -/

/-- The name of a property: a word, after whatever stands between the mark and the word. -/
structure PropertyName where
  gap : String
  word : Word

def PropertyName.text (name : PropertyName) : String :=
  name.gap ++ name.word.text

/-- A declared property; a list of properties after one type shares the type. -/
structure Property where
  name : PropertyName
  visibility : Visibility
  isStatic : Bool
  type : Option (List String)
  /-- The leaf texts of the initial value with the mark before it. -/
  initial : List String
  docblock : Option String

/-- A parameter and the property it declares if it is promoted. -/
structure Parameter where
  leaves : List String
  promoted : Option Property

/-- A function or a method. -/
structure Callable where
  name : Word
  visibility : Visibility
  isStatic : Bool
  parameters : List Parameter
  result : Option (List String)
  docblock : Option String

inductive ClassMember
  | method (callable : Callable)
  | properties (list : List Property)
  | other

structure DeclaredType where
  kind : TypeKind
  name : Word
  parents : List String
  interfaces : List String
  modifiers : TypeModifiers
  members : List ClassMember
  docblock : Option String

/-- What one statement contributes to a summary. -/
inductive Item
  | space (name : Option String)
  | imports (list : List Import)
  | type (declared : DeclaredType)
  | function (callable : Callable)

/-! ### Summaries -/

/-- A property's type and initial value. -/
def Property.signature (property : Property) : String :=
  let static := if property.isStatic then ["static"] else []
  let type := match property.type with
    | some leaves => [layout leaves]
    | none => []
  let initial := match property.initial with
    | [] => []
    | leaves => [layout leaves]
  " ".intercalate (static ++ type ++ initial)

def Property.member (property : Property) : Member :=
  { name := property.name.text
    visibility := property.visibility
    signature := property.signature
    docblock := property.docblock }

/-- A callable's parameters and its result. -/
def Callable.signature (callable : Callable) : String :=
  let parameters := ", ".intercalate (callable.parameters.map (fun p => layout p.leaves))
  let result := match callable.result with
    | some leaves => ": " ++ layout leaves
    | none => ""
  (if callable.isStatic then "static " else "") ++ "(" ++ parameters ++ ")" ++ result

def Callable.member (callable : Callable) : Member :=
  { name := callable.name.text
    visibility := callable.visibility
    signature := callable.signature
    docblock := callable.docblock }

def ClassMember.methods : ClassMember → List Callable
  | .method callable => [callable]
  | _ => []

def ClassMember.ownProperties : ClassMember → List Property
  | .properties list => list
  | _ => []

/-- The properties that a method declares by promoting its parameters. -/
def Callable.promoted (callable : Callable) : List Property :=
  callable.parameters.filterMap Parameter.promoted

def DeclaredType.methods (declared : DeclaredType) : List Callable :=
  declared.members.flatMap ClassMember.methods

/-- The properties of a type; those that methods promote come last. -/
def DeclaredType.properties (declared : DeclaredType) : List Property :=
  declared.members.flatMap ClassMember.ownProperties ++
    declared.methods.flatMap Callable.promoted

def DeclaredType.declaration (declared : DeclaredType) : TypeDeclaration :=
  { kind := declared.kind
    name := declared.name.text
    parent := if declared.parents = [] then none else some (", ".intercalate declared.parents)
    interfaces := declared.interfaces
    modifiers := declared.modifiers
    methods := declared.methods.map Callable.member
    properties := declared.properties.map Property.member
    docblock := declared.docblock }

namespace Item

def spaceName? : Item → Option String
  | .space name => name
  | _ => none

def importList : Item → List Import
  | .imports list => list
  | _ => []

def types : Item → List DeclaredType
  | .type declared => [declared]
  | _ => []

def functions : Item → List Callable
  | .function callable => [callable]
  | _ => []

end Item

/-- The summary of a text that declares these items: its namespace is the first one named. -/
def summarize (items : List Item) : Summary :=
  { space := items.findSome? Item.spaceName?
    imports := items.flatMap Item.importList
    types := (items.flatMap Item.types).map DeclaredType.declaration
    functions := (items.flatMap Item.functions).map Callable.member }

/-- A name without the blanks around it and the marks it begins with. -/
def unqualified (name : String) : String :=
  String.ofList ((Text.trim name.toList).dropWhile (· == '\\'))

end DocDrift.Source
