import DocDrift.Scoring.Level
import DocDrift.Whole

/-!
The numbers that scoring works with: points, bands and confidences. Points are numbers of sixty-four
bits. All of the numbers can be configured; `Policy.standard` holds the values that are used
otherwise.
-/

set_option autoImplicit false

namespace DocDrift

/-- Points for a change with more than a number of hunks. -/
structure HunkBand where
  above : Nat
  points : Int64
  deriving Repr, Inhabited, DecidableEq

/-- What is recommended for scores from a least score up. -/
structure ScoreBand where
  least : Nat
  confidence : Float
  priority : Level
  deriving Inhabited, BEq

/-- The numbers that scoring works with. -/
structure Policy where
  structuralPoints : Int64
  semanticPoints : Int64
  commentsPoints : Int64
  layoutPoints : Int64
  spacePoints : Int64
  typeChurnPoints : Int64
  parentPoints : Int64
  implementsPoints : Int64
  methodChurnPoints : Int64
  methodModifiedPoints : Int64
  propertyChurnPoints : Int64
  propertyModifiedPoints : Int64
  modifierPoints : Int64
  interfacePoints : Int64
  functionPoints : Int64
  importPoints : Int64
  majorPoints : Int64
  minorPoints : Int64
  minimalPoints : Int64
  /-- Added when a documented symbol that is not private is touched. -/
  documentedBonus : Int64
  /-- Taken off when nothing but undocumented private members is touched. -/
  privatePenalty : Int64
  skipConfidence : Float
  relevanceBoost : Float
  confidenceCap : Float
  irrelevantConfidence : Float
  formattingConfidence : Float
  interfaceConfidence : Float
  /-- The first band that a number of hunks exceeds counts. -/
  hunkBands : List HunkBand
  /-- The first band that a score reaches counts. -/
  scoreBands : List ScoreBand
  deriving BEq

namespace Policy

def standard : Policy :=
  { structuralPoints := 40
    semanticPoints := 25
    commentsPoints := 5
    layoutPoints := 1
    spacePoints := 20
    typeChurnPoints := 15
    parentPoints := 20
    implementsPoints := 15
    methodChurnPoints := 10
    methodModifiedPoints := 8
    propertyChurnPoints := 5
    propertyModifiedPoints := 3
    modifierPoints := 15
    interfacePoints := 25
    functionPoints := 20
    importPoints := 10
    majorPoints := 30
    minorPoints := 15
    minimalPoints := 5
    documentedBonus := 10
    privatePenalty := 10
    skipConfidence := 0.85
    relevanceBoost := 0.2
    confidenceCap := 0.95
    irrelevantConfidence := 0.90
    formattingConfidence := 0.95
    interfaceConfidence := 0.90
    hunkBands := [⟨10, 15⟩, ⟨5, 10⟩, ⟨1, 5⟩]
    scoreBands := [⟨70, 0.95, .high⟩, ⟨40, 0.75, .medium⟩, ⟨20, 0.50, .low⟩] }

def hunkPoints (policy : Policy) (hunks : Nat) : Int64 :=
  match policy.hunkBands.find? (fun band => band.above < hunks) with
  | some band => band.points
  | none => 0

def bandFor? (policy : Policy) (score : Nat) : Option ScoreBand :=
  policy.scoreBands.find? (fun band => band.least ≤ score)

end Policy

end DocDrift
