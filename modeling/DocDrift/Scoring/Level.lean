/-!
The scales on which a change is placed: levels for impact, relevance and priority, the main kind of
a change, and the categories it falls into.
-/

set_option autoImplicit false

namespace DocDrift

/-- A scale from nothing to high. -/
inductive Level
  | none
  | low
  | medium
  | high
  deriving DecidableEq, Repr, Inhabited

namespace Level

def all : List Level := [.none, .low, .medium, .high]

def rank : Level → Nat
  | .none => 0
  | .low => 1
  | .medium => 2
  | .high => 3

def highest (left right : Level) : Level :=
  if left.rank < right.rank then right else left

def label : Level → String
  | .none => "none"
  | .low => "low"
  | .medium => "medium"
  | .high => "high"

end Level

inductive PrimaryType
  | formatting
  | documentation
  | structural
  | semantic
  | functional
  | dependencies
  | minor
  deriving DecidableEq, Repr, Inhabited

namespace PrimaryType

def all : List PrimaryType :=
  [.formatting, .documentation, .structural, .semantic, .functional, .dependencies, .minor]

def label : PrimaryType → String
  | .formatting => "formatting"
  | .documentation => "documentation"
  | .structural => "structural"
  | .semantic => "semantic"
  | .functional => "functional"
  | .dependencies => "dependencies"
  | .minor => "minor"

end PrimaryType

/-- A kind of change that is found in a change. -/
inductive Category
  | whitespace
  | comments
  | structural
  | semantic
  | namespaces
  | types
  | members
  | interfaces
  | functions
  | imports
  deriving DecidableEq, Repr, Inhabited

namespace Category

def all : List Category :=
  [.whitespace, .comments, .structural, .semantic, .namespaces, .types, .members, .interfaces,
    .functions, .imports]

def label : Category → String
  | .whitespace => "whitespace"
  | .comments => "comments"
  | .structural => "structural"
  | .semantic => "semantic"
  | .namespaces => "namespace"
  | .types => "types"
  | .members => "members"
  | .interfaces => "interfaces"
  | .functions => "functions"
  | .imports => "imports"

/-- The categories of a list, each once and in the order of the scale. -/
def normalized (found : List Category) : List Category :=
  all.filter (fun category => found.contains category)

end Category

end DocDrift
