/-!
The structural summary of one source file: its namespace, its imports, the types it declares with
their members, and its free functions. Everything that a document about the file could describe has
a symbol name, listed by `Summary.symbolNames`.
-/

set_option autoImplicit false

namespace DocDrift

/-- Who may use a member. -/
inductive Visibility
  | isPublic
  | isProtected
  | isPrivate
  deriving DecidableEq, Repr, Inhabited

namespace Visibility

def label : Visibility → String
  | .isPublic => "public"
  | .isProtected => "protected"
  | .isPrivate => "private"

def all : List Visibility := [.isPublic, .isProtected, .isPrivate]

end Visibility

/-- The kinds of declared types that a summary lists. -/
inductive TypeKind
  | ofClass
  | ofInterface
  | ofTrait
  deriving DecidableEq, Repr, Inhabited

namespace TypeKind

def label : TypeKind → String
  | .ofClass => "class"
  | .ofInterface => "interface"
  | .ofTrait => "trait"

def all : List TypeKind := [.ofClass, .ofInterface, .ofTrait]

end TypeKind

/-- The modifiers of a type that its summary keeps. -/
structure TypeModifiers where
  isAbstract : Bool
  isFinal : Bool
  deriving DecidableEq, Repr, Inhabited

/-- An imported name and the name it is known by, if it was renamed. -/
structure Import where
  name : String
  renamed : Option String
  deriving DecidableEq, Repr, Inhabited

/-- A method, a property or a free function. -/
structure Member where
  name : String
  visibility : Visibility
  /-- Parameters and result, or type and initial value, free of layout. -/
  signature : String
  docblock : Option String
  deriving DecidableEq, Repr, Inhabited

structure TypeDeclaration where
  kind : TypeKind
  name : String
  parent : Option String
  interfaces : List String
  modifiers : TypeModifiers
  methods : List Member
  properties : List Member
  docblock : Option String
  deriving DecidableEq, Repr, Inhabited

/-- The declarations of one source file, in document order. -/
structure Summary where
  space : Option String
  imports : List Import
  types : List TypeDeclaration
  functions : List Member
  deriving DecidableEq, Repr, Inhabited

def memberSymbol (typeName member : String) : String :=
  typeName ++ "::" ++ member

namespace TypeDeclaration

def members (declared : TypeDeclaration) : List Member :=
  declared.methods ++ declared.properties

end TypeDeclaration

namespace Summary

def empty : Summary := ⟨none, [], [], []⟩

/-- Every symbol that a document could describe: a type, then its members, and the free functions
after all types. -/
def symbolNames (summary : Summary) : List String :=
  summary.types.flatMap (fun declared =>
    declared.name :: declared.members.map (fun member => memberSymbol declared.name member.name)) ++
  summary.functions.map Member.name

def privateMembers (summary : Summary) : List String :=
  summary.types.flatMap (fun declared =>
    (declared.members.filter (fun member => member.visibility == .isPrivate)).map
      (fun member => memberSymbol declared.name member.name))

end Summary

end DocDrift
