import DocDrift.Proofs.Scoring.Regeneration
import Mathlib.Data.List.Basic

/-!
What points add up to. Scoring adds them in sixty-four bits, where a sum may wrap around. Beside
each of its sums stands the same sum of whole numbers without a bound: the points of a change are
that sum, wrapped around once, and they are just that sum where it stays in the range.
-/

set_option autoImplicit false

namespace DocDrift

/-- A change touches a symbol that is documented and not private. -/
def Delta.TouchesDocumented (delta : Delta) (context : SymbolContext) : Prop :=
  ∃ symbol ∈ delta.touchedSymbols, symbol ∈ context.documented ∧ symbol ∉ context.privates

/-- A change touches symbols, and all of them are private and none documented. -/
def Delta.TouchesHidden (delta : Delta) (context : SymbolContext) : Prop :=
  delta.touchedSymbols ≠ [] ∧
    ∀ symbol ∈ delta.touchedSymbols, symbol ∈ context.privates ∧ symbol ∉ context.documented

instance (delta : Delta) (context : SymbolContext) : Decidable (delta.TouchesDocumented context) :=
  inferInstanceAs (Decidable (∃ symbol ∈ delta.touchedSymbols, _))

instance (delta : Delta) (context : SymbolContext) : Decidable (delta.TouchesHidden context) :=
  inferInstanceAs (Decidable (_ ∧ ∀ symbol ∈ delta.touchedSymbols, _))

theorem Delta.TouchesHidden.not_touchesDocumented {delta : Delta} {context : SymbolContext}
    (hidden : delta.TouchesHidden context) : ¬delta.TouchesDocumented context := by
  rintro ⟨symbol, touched, documented, _shown⟩
  exact (hidden.2 symbol touched).2 documented

theorem Delta.not_touchesDocumented_empty (delta : Delta) : ¬delta.TouchesDocumented .empty := by
  rintro ⟨symbol, _touched, documented, _shown⟩
  cases documented

theorem Delta.not_touchesHidden_empty (delta : Delta) : ¬delta.TouchesHidden .empty := by
  rintro ⟨some, all⟩
  obtain ⟨symbol, touched⟩ := List.exists_mem_of_ne_nil _ some
  cases (all symbol touched).1

namespace Scoring

/-! ### The term for the symbols -/

section Context

variable (policy : Policy) {delta : Delta} {context : SymbolContext}

theorem contextPoints_touches (touches : delta.TouchesDocumented context) :
    ∃ symbol, contextPoints policy delta context =
      (policy.documentedBonus, ["touches documented public symbol " ++ symbol]) := by
  obtain ⟨symbol, touched, documented, shown⟩ := touches
  unfold contextPoints
  dsimp only
  split
  · exact ⟨_, rfl⟩
  · rename_i none
    refine absurd ?_ (List.find?_eq_none.mp none symbol touched)
    rw [List.contains_iff_mem.mpr documented, Bool.true_and, Bool.not_eq_true',
      List.contains_eq_mem, decide_eq_false shown]

theorem contextPoints_undocumented (others : ¬delta.TouchesDocumented context) :
    contextPoints policy delta context =
      if delta.TouchesHidden context then
        (-policy.privatePenalty, ["only undocumented private members changed"])
      else (0, []) := by
  have none : delta.touchedSymbols.find? (fun symbol =>
      context.documented.contains symbol && !context.privates.contains symbol) = none := by
    rw [List.find?_eq_none]
    intro symbol touched both
    rw [Bool.and_eq_true, List.contains_iff_mem, Bool.not_eq_true', List.contains_eq_mem,
      decide_eq_false_iff_not] at both
    exact others ⟨symbol, touched, both⟩
  unfold contextPoints
  dsimp only
  rw [none]
  refine if_congr ?_ rfl rfl
  simp only [Bool.and_eq_true, Bool.not_eq_true', List.isEmpty_eq_false_iff, List.all_eq_true,
    List.any_eq_false, List.contains_iff_mem, and_assoc, ← forall₂_and, Delta.TouchesHidden]

theorem contextPoints_fst : (contextPoints policy delta context).1 =
    if delta.TouchesDocumented context then policy.documentedBonus
    else if delta.TouchesHidden context then -policy.privatePenalty
    else 0 := by
  by_cases touches : delta.TouchesDocumented context
  · obtain ⟨symbol, points⟩ := contextPoints_touches policy touches
    rw [points, if_pos touches]
  · rw [contextPoints_undocumented policy touches, if_neg touches, apply_ite Prod.fst]

theorem contextPoints_empty (delta : Delta) : contextPoints policy delta .empty = (0, []) := by
  rw [contextPoints_undocumented policy delta.not_touchesDocumented_empty,
    if_neg delta.not_touchesHidden_empty]

end Context

/-! ### Sums without a bound -/

def sumIf (holds : Bool) (points : Int64) : Int :=
  if holds then points else 0

def sumFor (count : Nat) (points : Int64) : Int :=
  count * points.toInt

def textSum (policy : Policy) (change : TextChange) : Int :=
  sumIf change.structural policy.structuralPoints +
    sumIf change.semantic policy.semanticPoints +
    sumIf change.commentsOnly policy.commentsPoints +
    sumIf change.layoutOnly policy.layoutPoints +
    policy.hunkPoints change.counts.total

def typeSum (policy : Policy) (change : TypeDelta) : Int :=
  sumIf change.parent.isSome policy.parentPoints +
    sumIf change.interfaces.hasChanges policy.implementsPoints +
    sumIf change.modifiers.isSome policy.modifierPoints +
    sumFor change.methods.churn policy.methodChurnPoints +
    sumFor change.methods.modified.length policy.methodModifiedPoints +
    sumFor change.properties.churn policy.propertyChurnPoints +
    sumFor change.properties.modified.length policy.propertyModifiedPoints

def totalSum (policy : Policy) (types : NameMap TypeDelta) : Int :=
  types.values.foldr (fun change sum => typeSum policy change + sum) 0

def deltaSum (policy : Policy) (delta : Delta) : Int :=
  sumIf delta.spaceChanged policy.spacePoints +
    sumFor delta.types.churn policy.typeChurnPoints +
    totalSum policy delta.types.modified +
    sumIf delta.interfaces.hasChanges policy.interfacePoints +
    sumIf delta.functions.hasChanges policy.functionPoints +
    sumIf delta.imports.hasChanges policy.importPoints +
    severityPoints policy delta.severity

def contextSum (policy : Policy) (delta : Delta) (context : SymbolContext) : Int :=
  if delta.TouchesDocumented context then policy.documentedBonus
  else if delta.TouchesHidden context then -policy.privatePenalty.toInt
  else 0

theorem contextSum_empty (policy : Policy) (delta : Delta) :
    contextSum policy delta .empty = 0 := by
  rw [contextSum, if_neg delta.not_touchesDocumented_empty, if_neg delta.not_touchesHidden_empty]

/-! ### The sums wrapped around -/

variable (policy : Policy)

theorem pointsIf_eq (holds : Bool) (points : Int64) :
    pointsIf holds points = Int64.ofInt (sumIf holds points) := by
  cases holds with
  | false => rfl
  | true => exact (Int64.ofInt_toInt points).symm

theorem pointsFor_eq (count : Nat) (points : Int64) :
    pointsFor count points = Int64.ofInt (sumFor count points) := by
  rw [pointsFor, sumFor, Int64.ofInt_mul, Int64.ofInt_toInt, Int64.ofInt_eq_ofNat]

theorem textPoints_eq (change : TextChange) :
    textPoints policy change = Int64.ofInt (textSum policy change) := by
  simp only [textPoints, textSum, pointsIf_eq, Int64.ofInt_add, Int64.ofInt_toInt]

theorem typePoints_eq (change : TypeDelta) :
    typePoints policy change = Int64.ofInt (typeSum policy change) := by
  simp only [typePoints, typeSum, pointsIf_eq, pointsFor_eq, Int64.ofInt_add]

theorem totalPoints_eq (types : NameMap TypeDelta) :
    types.values.foldr (fun change points => typePoints policy change + points) 0 =
      Int64.ofInt (totalSum policy types) := by
  unfold totalSum
  induction types.values with
  | nil => rfl
  | cons change rest ih =>
      rw [List.foldr_cons, List.foldr_cons, ih, typePoints_eq, Int64.ofInt_add]

theorem deltaPoints_eq (delta : Delta) :
    deltaPoints policy delta = Int64.ofInt (deltaSum policy delta) := by
  simp only [deltaPoints, deltaSum, pointsIf_eq, pointsFor_eq, totalPoints_eq, Int64.ofInt_add,
    Int64.ofInt_toInt]

theorem contextPoints_eq (delta : Delta) (context : SymbolContext) :
    (contextPoints policy delta context).1 = Int64.ofInt (contextSum policy delta context) := by
  rw [contextPoints_fst, contextSum]
  split_ifs
  · exact (Int64.ofInt_toInt _).symm
  · rw [Int64.ofInt_neg, Int64.ofInt_toInt]
  · rfl

end Scoring

/-! ### The points of a change -/

namespace Significance

variable (policy : Policy) (change : TextChange) (delta : Delta) (context : SymbolContext)

/-- What the points of a change add up to if no bound is put on them. -/
def sumOf : Int :=
  if change.layoutOnly then Scoring.textSum policy change
  else
    Scoring.textSum policy change + Scoring.contextSum policy delta context +
      Scoring.deltaSum policy delta

/-- The points of a change add up to a number of sixty-four bits. -/
def AddsUp : Prop :=
  InRange (sumOf policy change delta context)

instance : Decidable (AddsUp policy change delta context) :=
  inferInstanceAs (Decidable (InRange _))

theorem pointsOf_eq :
    (pointsOf policy change delta context).1 = Int64.ofInt (sumOf policy change delta context) := by
  unfold pointsOf sumOf
  split
  case isTrue layout =>
    have nothing : Scoring.contextSum policy .empty context = 0 := rfl
    dsimp only
    rw [Scoring.textPoints_eq, Scoring.contextPoints_eq, ← Int64.ofInt_add, nothing, Int.add_zero]
  case isFalse content =>
    dsimp only
    rw [Scoring.textPoints_eq, Scoring.contextPoints_eq, Scoring.deltaPoints_eq, ← Int64.ofInt_add,
      ← Int64.ofInt_add]

variable {policy change delta context}

theorem toInt_pointsOf (adds : AddsUp policy change delta context) :
    (pointsOf policy change delta context).1.toInt = sumOf policy change delta context := by
  rw [pointsOf_eq, toInt_ofInt adds]

theorem score_of_addsUp (adds : AddsUp policy change delta context) :
    (of policy change delta context).score = scoreOf (sumOf policy change delta context) := by
  rw [of_score, toInt_pointsOf adds]

end Significance

end DocDrift
