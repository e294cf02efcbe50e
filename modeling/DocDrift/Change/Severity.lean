/-!
How far a structural change reaches.
-/

set_option autoImplicit false

namespace DocDrift

/-- The magnitude of a structural change. -/
inductive Severity
  | minimal
  | minor
  | major
  deriving DecidableEq, Repr, Inhabited

namespace Severity

def label : Severity → String
  | .minimal => "minimal"
  | .minor => "minor"
  | .major => "major"

def all : List Severity := [.minimal, .minor, .major]

end Severity

end DocDrift
