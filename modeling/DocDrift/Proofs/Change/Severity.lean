import DocDrift.Change.Delta

/-!
What the severity of a structural change stands for: which of its sets of changes make it major, and
which make it minor.
-/

set_option autoImplicit false

namespace DocDrift

theorem ChangeSet.hasChanges_iff {μ : Type} {changes : ChangeSet μ} :
    changes.hasChanges = true ↔ 0 < changes.churn ∨ changes.modified ≠ [] := by
  rw [hasChanges, churn, Bool.or_eq_true, Bool.or_eq_true, Bool.not_eq_true', Bool.not_eq_true',
    Bool.not_eq_true', Nat.add_pos_iff_pos_or_pos, List.length_pos_iff, List.length_pos_iff,
    List.isEmpty_eq_false_iff, List.isEmpty_eq_false_iff, List.isEmpty_eq_false_iff]

namespace Delta

variable {delta : Delta}

theorem hasChanges_iff : delta.hasChanges = true ↔
    delta.spaceChanged = true ∨ delta.types.hasChanges = true ∨
      delta.interfaces.hasChanges = true ∨ delta.functions.hasChanges = true ∨
      delta.imports.hasChanges = true := by
  simp only [hasChanges, Bool.or_eq_true, or_assoc]

theorem implementsChanged_iff : delta.implementsChanged = true ↔
    ∃ type ∈ delta.types.modified.values, type.interfaces.hasChanges = true :=
  List.any_eq_true

/-- Some declaration comes or goes, or some type moves in the hierarchy. -/
def IsMajor (delta : Delta) : Prop :=
  delta.spaceChanged = true ∨ 0 < delta.types.churn ∨ 0 < delta.interfaces.churn ∨
    0 < delta.functions.churn ∨ ∃ type ∈ delta.types.modified.values, type.changesHierarchy = true

/-- The severities that the sets of changes imply, and when they imply which. -/
inductive Implies (delta : Delta) : Severity → Prop
  | major (moved : delta.IsMajor) : Implies delta .major
  | minor (calm : ¬delta.IsMajor)
      (some : delta.types.modified ≠ [] ∨ delta.functions.modified ≠ []) : Implies delta .minor
  | minimal (calm : ¬delta.IsMajor) (types : delta.types.modified = [])
      (functions : delta.functions.modified = []) : Implies delta .minimal

theorem implies_impliedSeverity (delta : Delta) : delta.Implies delta.impliedSeverity := by
  have decided : (delta.spaceChanged || 0 < delta.types.churn || 0 < delta.interfaces.churn ||
      0 < delta.functions.churn ||
      delta.types.modified.values.any TypeDelta.changesHierarchy) = true ↔ delta.IsMajor := by
    simp only [Bool.or_eq_true, decide_eq_true_eq, List.any_eq_true, or_assoc, IsMajor]
  unfold impliedSeverity
  split
  case isTrue moved => exact .major (decided.mp moved)
  case isFalse still =>
    have calm : ¬delta.IsMajor := fun moved => still (decided.mpr moved)
    split
    case isTrue some =>
      rw [Bool.or_eq_true, Bool.not_eq_true', Bool.not_eq_true', List.isEmpty_eq_false_iff,
        List.isEmpty_eq_false_iff] at some
      exact .minor calm some
    case isFalse none =>
      rw [Bool.or_eq_true, not_or, Bool.not_eq_true', Bool.not_eq_true', Bool.not_eq_false,
        Bool.not_eq_false, List.isEmpty_iff, List.isEmpty_iff] at none
      exact .minimal calm none.1 none.2

theorem impliedSeverity_major : delta.impliedSeverity = .major ↔ delta.IsMajor := by
  have implied := implies_impliedSeverity delta
  generalize delta.impliedSeverity = severity at implied
  cases implied with
  | major moved => exact ⟨fun _ => moved, fun _ => rfl⟩
  | minor calm some => exact ⟨nofun, fun moved => absurd moved calm⟩
  | minimal calm types functions => exact ⟨nofun, fun moved => absurd moved calm⟩

theorem impliedSeverity_minor : delta.impliedSeverity = .minor ↔
    ¬delta.IsMajor ∧ (delta.types.modified ≠ [] ∨ delta.functions.modified ≠ []) := by
  have implied := implies_impliedSeverity delta
  generalize delta.impliedSeverity = severity at implied
  cases implied with
  | major moved => exact ⟨nofun, fun calm => absurd moved calm.1⟩
  | minor calm some => exact ⟨fun _ => ⟨calm, some⟩, fun _ => rfl⟩
  | minimal calm types functions => simp [types, functions]

theorem impliedSeverity_minimal : delta.impliedSeverity = .minimal ↔
    ¬delta.IsMajor ∧ ¬(delta.types.modified ≠ [] ∨ delta.functions.modified ≠ []) := by
  have implied := implies_impliedSeverity delta
  generalize delta.impliedSeverity = severity at implied
  cases implied with
  | major moved => exact ⟨nofun, fun calm => absurd moved calm.1⟩
  | minor calm some => exact ⟨nofun, fun none => absurd some none.2⟩
  | minimal calm types functions => simp [calm, types, functions]

end Delta

end DocDrift
