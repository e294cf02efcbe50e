import DocDrift.Change.Delta
import DocDrift.Change.TextChange
import DocDrift.Scoring.Policy

/-!
How much a change matters for the documentation. The change of the text and the structural change
are turned into points and a classification; a list of rules turns both into a recommendation. The
rules apply one after another, each to the outcome of the one before, and each that applies leaves
a reason.
-/

set_option autoImplicit false

namespace DocDrift

/-- What kind of change it is, and how far it matters. -/
structure Classification where
  primary : PrimaryType
  categories : List Category
  impact : Level
  relevance : Level
  deriving DecidableEq, Repr, Inhabited

structure Recommendation where
  regenerate : Bool
  confidence : Float
  priority : Level
  /-- Why, in the order in which the reasons were found. -/
  reasons : List String
  deriving Inhabited

structure Significance where
  score : Nat
  classification : Classification
  recommendation : Recommendation
  deriving Inhabited

/-- What is known about the symbols of a file. -/
structure SymbolContext where
  /-- The symbols that are documented. -/
  documented : List String
  /-- The private members before or after the change. -/
  privates : List String
  deriving Repr, Inhabited

namespace SymbolContext

def empty : SymbolContext := ⟨[], []⟩

end SymbolContext

/-! ### Points

Points are added and multiplied in sixty-four bits. They wrap around at the ends of that range, so
that the order of the additions makes no difference.
-/

namespace Scoring

def pointsIf (holds : Bool) (points : Int64) : Int64 :=
  if holds then points else 0

def textPoints (policy : Policy) (change : TextChange) : Int64 :=
  pointsIf change.structural policy.structuralPoints +
    pointsIf change.semantic policy.semanticPoints +
    pointsIf change.commentsOnly policy.commentsPoints +
    pointsIf change.layoutOnly policy.layoutPoints +
    policy.hunkPoints change.counts.total

def pointsFor (count : Nat) (points : Int64) : Int64 :=
  Int64.ofNat count * points

def typePoints (policy : Policy) (change : TypeDelta) : Int64 :=
  pointsIf change.parent.isSome policy.parentPoints +
    pointsIf change.interfaces.hasChanges policy.implementsPoints +
    pointsIf change.modifiers.isSome policy.modifierPoints +
    pointsFor change.methods.churn policy.methodChurnPoints +
    pointsFor change.methods.modified.length policy.methodModifiedPoints +
    pointsFor change.properties.churn policy.propertyChurnPoints +
    pointsFor change.properties.modified.length policy.propertyModifiedPoints

def severityPoints (policy : Policy) : Severity → Int64
  | .major => policy.majorPoints
  | .minor => policy.minorPoints
  | .minimal => policy.minimalPoints

def deltaPoints (policy : Policy) (delta : Delta) : Int64 :=
  pointsIf delta.spaceChanged policy.spacePoints +
    pointsFor delta.types.churn policy.typeChurnPoints +
    delta.types.modified.values.foldr (fun change points => typePoints policy change + points) 0 +
    pointsIf delta.interfaces.hasChanges policy.interfacePoints +
    pointsIf delta.functions.hasChanges policy.functionPoints +
    pointsIf delta.imports.hasChanges policy.importPoints +
    severityPoints policy delta.severity

/-- The points for the symbols that are touched, and the reason for them. -/
def contextPoints (policy : Policy) (delta : Delta) (context : SymbolContext) :
    Int64 × List String :=
  let touched := delta.touchedSymbols
  let isDocumented (symbol : String) : Bool := context.documented.contains symbol
  let isPrivate (symbol : String) : Bool := context.privates.contains symbol
  match touched.find? (fun symbol => isDocumented symbol && !isPrivate symbol) with
  | some symbol => (policy.documentedBonus, ["touches documented public symbol " ++ symbol])
  | none =>
      if !touched.isEmpty && touched.all isPrivate && !touched.any isDocumented then
        (-policy.privatePenalty, ["only undocumented private members changed"])
      else (0, [])

end Scoring

/-! ### Classification -/

namespace Classification

/-- Nothing found yet. -/
def start : Classification := ⟨.minor, [], .none, .none⟩

/-- Records a category if something holds; levels only go up. -/
def raiseIf (holds : Bool) (category : Category) (impact relevance : Level)
    (found : Classification) : Classification :=
  if holds then
    { found with
      categories := Category.normalized (category :: found.categories)
      impact := found.impact.highest impact
      relevance := found.relevance.highest relevance }
  else found

def raiseForType (found : Classification) (change : TypeDelta) : Classification :=
  let raised := raiseIf (change.changesHierarchy || change.modifiers.isSome) .types .high .high found
  if change.methods.hasChanges then raiseIf true .members .medium .medium raised
  else raiseIf change.properties.hasChanges .members .low .medium raised

/-- The main kind of a change that is not one of layout. -/
def primaryOf (change : TextChange) (delta : Delta) : PrimaryType :=
  if change.commentsOnly then .documentation
  else if change.structural then .structural
  else if change.semantic then .semantic
  else if delta.types.hasChanges || delta.interfaces.hasChanges || delta.spaceChanged then
    .structural
  else if delta.functions.hasChanges then .functional
  else if delta.imports.hasChanges then .dependencies
  else .minor

/-- The classification of a change that is not one of layout. -/
def ofContent (change : TextChange) (delta : Delta) : Classification :=
  let text := raiseIf change.semantic .semantic .medium .low
    (raiseIf change.structural .structural .medium .medium
      (raiseIf change.commentsOnly .comments .low .low start))
  let types := delta.types.modified.values.foldl raiseForType
    (raiseIf (0 < delta.types.churn) .types .high .high
      (raiseIf delta.spaceChanged .namespaces .high .high text))
  let interfaces :=
    raiseIf (delta.interfaces.hasChanges || delta.implementsChanged) .interfaces .high .high types
  let functions :=
    if 0 < delta.functions.churn then raiseIf true .functions .medium .high interfaces
    else raiseIf (!delta.functions.modified.isEmpty) .functions .medium .medium interfaces
  { raiseIf delta.imports.hasChanges .imports .low .low functions with
    primary := primaryOf change delta }

def of (change : TextChange) (delta : Delta) : Classification :=
  if change.layoutOnly then ⟨.formatting, [.whitespace], .none, .none⟩
  else ofContent change delta

def touchesInterfacesOrSpace (classification : Classification) : Bool :=
  classification.categories.contains .interfaces || classification.categories.contains .namespaces

end Classification

/-! ### Rules -/

abbrev Rule := Policy → Significance → Significance

namespace Rule

/-- The smaller of two numbers; a number that is undefined gives way to the other one. -/
def smaller (left right : Float) : Float :=
  if left.isNaN then right
  else if right.isNaN then left
  else if right < left then right
  else left

/-- Sets the recommendation and adds a reason. -/
def verdict (result : Significance) (regenerate : Bool) (confidence : Float) (priority : Level)
    (reason : String) : Significance :=
  { result with
    recommendation :=
      ⟨regenerate, confidence, priority, result.recommendation.reasons ++ [reason]⟩ }

/-- The band that the score reaches decides. -/
def threshold : Rule := fun policy result =>
  match policy.bandFor? result.score with
  | some band =>
      verdict result true band.confidence band.priority
        ("score " ++ toString result.score ++ " reaches the " ++ band.priority.label ++
          " priority band")
  | none =>
      verdict result false policy.skipConfidence .none
        ("score " ++ toString result.score ++ " is below the regeneration threshold")

def highRelevance : Rule := fun policy result =>
  if result.classification.relevance = .high then
    let sofar := result.recommendation
    let priority := if sofar.regenerate then sofar.priority else sofar.priority.highest .medium
    verdict result true (smaller (sofar.confidence + policy.relevanceBoost) policy.confidenceCap)
      priority "high documentation relevance forces regeneration"
  else result

/-- A change without relevance is never documented. -/
def noRelevance : Rule := fun policy result =>
  if result.classification.relevance = .none then
    verdict result false policy.irrelevantConfidence .none
      "change has no documentation relevance"
  else result

/-- A change of layout is never documented. -/
def formatting : Rule := fun policy result =>
  if result.classification.primary = .formatting then
    verdict result false policy.formattingConfidence .none
      "formatting-only change never needs new docs"
  else result

def interfaces : Rule := fun policy result =>
  if result.classification.touchesInterfacesOrSpace then
    verdict result true policy.interfaceConfidence .high
      "interface or namespace change forces regeneration"
  else result

/-- The rules in the order in which they apply. -/
def all : List Rule := [threshold, highRelevance, noRelevance, formatting, interfaces]

def applyAll : Rule := fun policy result =>
  all.foldl (fun sofar rule => rule policy sofar) result

end Rule

/-! ### Scoring -/

namespace Recommendation

/-- No recommendation yet, for some reasons. -/
def undecided (reasons : List String) : Recommendation := ⟨false, 0.0, .none, reasons⟩

end Recommendation

namespace Significance

def scoreOf (points : Int) : Nat :=
  (max 0 (min 100 points)).toNat

/-- The points of a change before they are made a score, and the reasons for those that depend on
the symbols touched. A change of layout has no points for its structure. -/
def pointsOf (policy : Policy) (change : TextChange) (delta : Delta) (context : SymbolContext) :
    Int64 × List String :=
  if change.layoutOnly then
    let (bias, reasons) := Scoring.contextPoints policy .empty context
    (Scoring.textPoints policy change + bias, reasons)
  else
    let (bias, reasons) := Scoring.contextPoints policy delta context
    (Scoring.textPoints policy change + bias + Scoring.deltaPoints policy delta, reasons)

def of (policy : Policy) (change : TextChange) (delta : Delta) (context : SymbolContext) :
    Significance :=
  let (points, reasons) := pointsOf policy change delta context
  Rule.applyAll policy
    { score := scoreOf points
      classification := Classification.of change delta
      recommendation := .undecided reasons }

def unscored (fault : InputFault) : Significance :=
  { score := 0
    classification := .start
    recommendation := .undecided ["cannot score: " ++ fault.report] }

/-- The significance of a change, if its descriptions do not contradict themselves. -/
def ofValid (policy : Policy) (change : TextChange) (delta : Delta) (context : SymbolContext) :
    Significance :=
  match change.validate, delta.validate with
  | .error fault, _ => unscored fault
  | .ok (), .error fault => unscored fault
  | .ok (), .ok () => of policy change delta context

end Significance

end DocDrift
