import DocDrift.Scoring.Encoding
import DocDrift.Source.Program

/-!
The whole analysis of a change from one source text to another, without any knowledge of what is
documented.
-/

set_option autoImplicit false

namespace DocDrift

/-- A change of a source text and what it amounts to. -/
structure Analysis where
  change : TextChange
  delta : Delta
  result : Significance

namespace Analysis

/-- The structural change between two source texts; nothing is known of it if one of them is not
accepted. -/
def deltaBetween (old new : String) : Delta :=
  match Summary.ofSource old, Summary.ofSource new with
  | .ok before, .ok after => Delta.between before after
  | _, _ => .empty

def between (policy : Policy) (old new : String) : Analysis :=
  let change := TextChange.between old new
  let delta := deltaBetween old new
  ⟨change, delta, Significance.ofValid policy change delta .empty⟩

def toJson (analysis : Analysis) : Json :=
  .object [
    ("diff", analysis.change.toJson),
    ("delta", analysis.delta.toJson),
    ("result", analysis.result.toJson)]

end Analysis

end DocDrift
