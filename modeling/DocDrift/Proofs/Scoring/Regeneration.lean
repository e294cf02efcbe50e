import DocDrift.Proofs.Change.Severity
import DocDrift.Proofs.Scoring.Findings
import DocDrift.Proofs.Scoring.Rules

/-!
Which changes are documented anew. A change that reaches far always is, whatever the policy and the
symbols that are documented; one that matters is if its score reaches a band; no other change is.
-/

set_option autoImplicit false

namespace DocDrift

/-! ### Reach -/

/-- Declarations come or go, or the place or the modifiers of a type change. -/
def Delta.ReachesFar (delta : Delta) : Prop :=
  delta.spaceChanged = true ∨ 0 < delta.types.churn ∨
    (∃ change ∈ delta.types.modified.values, change.parent.isSome = true ∨
      change.interfaces.hasChanges = true ∨ change.modifiers.isSome = true) ∨
    delta.interfaces.hasChanges = true ∨ 0 < delta.functions.churn

/-- The text changes in more than layout, or a type, a function or an import changes. -/
def Delta.Matters (change : TextChange) (delta : Delta) : Prop :=
  (change.commentsOnly = true ∨ change.structural = true ∨ change.semantic = true) ∨
    (∃ type ∈ delta.types.modified.values, type.hasChanges = true) ∨
    delta.functions.hasChanges = true ∨ delta.imports.hasChanges = true

section Reach

variable {change : TextChange} {delta : Delta}

theorem TypeFinding.far {type : TypeDelta} {category : Category} {impact : Level}
    (found : TypeFinding type category impact .high) : type.parent.isSome = true ∨
      type.interfaces.hasChanges = true ∨ type.modifiers.isSome = true := by
  cases found with
  | place moved =>
      rw [TypeDelta.changesHierarchy, Bool.or_eq_true] at moved
      exact or_assoc.mp moved

theorem Finding.far {category : Category} {impact : Level}
    (finding : Finding change delta category impact .high) : delta.ReachesFar := by
  cases finding with
  | space changed => exact .inl changed
  | churned some => exact .inr (.inl some)
  | modified type mem _ _ _ found => exact .inr (.inr (.inl ⟨type, mem, found.far⟩))
  | interfaces changed =>
      rcases changed with changed | implemented
      · exact .inr (.inr (.inr (.inl changed)))
      · obtain ⟨type, mem, changed⟩ := Delta.implementsChanged_iff.mp implemented
        exact .inr (.inr (.inl ⟨type, mem, .inr (.inl changed)⟩))
  | functions churned => exact .inr (.inr (.inr (.inr churned)))

theorem finding_of_far (change : TextChange) (far : delta.ReachesFar) :
    ∃ category impact, Finding change delta category impact .high := by
  rcases far with space | churned | ⟨type, mem, moved⟩ | interfaces | functions
  · exact ⟨_, _, .space space⟩
  · exact ⟨_, _, .churned churned⟩
  · refine ⟨_, _, .modified type mem _ _ _ (.place ?_)⟩
    rw [TypeDelta.changesHierarchy, Bool.or_eq_true]
    exact or_assoc.mpr moved
  · exact ⟨_, _, .interfaces (.inl interfaces)⟩
  · exact ⟨_, _, .functions functions⟩

theorem TypeFinding.hasChanges {type : TypeDelta} {category : Category} {impact relevance : Level}
    (found : TypeFinding type category impact relevance) : type.hasChanges = true := by
  unfold TypeDelta.hasChanges
  cases found with
  | place moved => rcases moved with moved | moved <;> simp [moved]
  | methods changed => simp [changed]
  | properties same changed => simp [changed]

theorem typeFinding_of_hasChanges {type : TypeDelta} (changed : type.hasChanges = true) :
    ∃ category impact relevance, TypeFinding type category impact relevance := by
  rw [TypeDelta.hasChanges, Bool.or_eq_true, Bool.or_eq_true, Bool.or_eq_true] at changed
  rcases changed with (moved | methods) | properties
  · exact ⟨_, _, _, .place moved⟩
  · exact ⟨_, _, _, .methods methods⟩
  · cases methods : type.methods.hasChanges with
    | true => exact ⟨_, _, _, .methods methods⟩
    | false => exact ⟨_, _, _, .properties methods properties⟩

theorem finding_some :
    (∃ category impact relevance, Finding change delta category impact relevance) ↔
      delta.ReachesFar ∨ delta.Matters change := by
  constructor
  · rintro ⟨category, impact, relevance, finding⟩
    by_cases high : relevance = .high
    · subst high
      exact .inl finding.far
    · cases finding with
      | comments only => exact .inr (.inl (.inl only))
      | structural some => exact .inr (.inl (.inr (.inl some)))
      | semantic some => exact .inr (.inl (.inr (.inr some)))
      | modified type mem _ _ _ found => exact .inr (.inr (.inl ⟨type, mem, found.hasChanges⟩))
      | signatures still some =>
          have changed : delta.functions.hasChanges = true :=
            ChangeSet.hasChanges_iff.mpr (.inr (List.isEmpty_eq_false_iff.mp some))
          exact .inr (.inr (.inr (.inl changed)))
      | imports changed => exact .inr (.inr (.inr (.inr changed)))
      | _ => exact absurd rfl high
  · rintro (far | (only | some | some) | ⟨type, mem, changed⟩ | functions | imports)
    · obtain ⟨category, impact, finding⟩ := finding_of_far change far
      exact ⟨_, _, _, finding⟩
    · exact ⟨_, _, _, .comments only⟩
    · exact ⟨_, _, _, .structural some⟩
    · exact ⟨_, _, _, .semantic some⟩
    · obtain ⟨category, impact, relevance, found⟩ := typeFinding_of_hasChanges changed
      exact ⟨_, _, _, .modified type mem _ _ _ found⟩
    · by_cases churned : 0 < delta.functions.churn
      · exact ⟨_, _, _, .functions churned⟩
      · have modified := (ChangeSet.hasChanges_iff.mp functions).resolve_left churned
        exact ⟨_, _, _, .signatures churned (List.isEmpty_eq_false_iff.mpr modified)⟩
    · exact ⟨_, _, _, .imports imports⟩

theorem hasChanges_of_modified {type : TypeDelta} (mem : type ∈ delta.types.modified.values) :
    delta.types.hasChanges = true := by
  apply ChangeSet.hasChanges_iff.mpr
  refine .inr fun none => ?_
  rw [none] at mem
  cases mem

theorem Delta.ReachesFar.hasChanges (far : delta.ReachesFar) : delta.hasChanges = true := by
  apply Delta.hasChanges_iff.mpr
  rcases far with space | churned | ⟨type, mem, moved⟩ | interfaces | churned
  · exact .inl space
  · exact .inr (.inl (ChangeSet.hasChanges_iff.mpr (.inl churned)))
  · exact .inr (.inl (hasChanges_of_modified mem))
  · exact .inr (.inr (.inl interfaces))
  · exact .inr (.inr (.inr (.inl (ChangeSet.hasChanges_iff.mpr (.inl churned)))))

theorem Delta.IsMajor.far (major : delta.IsMajor) : delta.ReachesFar := by
  rcases major with space | types | interfaces | functions | ⟨type, mem, moved⟩
  · exact .inl space
  · exact .inr (.inl types)
  · exact .inr (.inr (.inr (.inl (ChangeSet.hasChanges_iff.mpr (.inl interfaces)))))
  · exact .inr (.inr (.inr (.inr functions)))
  · rw [TypeDelta.changesHierarchy, Bool.or_eq_true] at moved
    exact .inr (.inr (.inl ⟨type, mem, or_assoc.mp (.inl moved)⟩))

end Reach

/-! ### Reach and classification -/

namespace Classification

variable (change : TextChange) (delta : Delta)

theorem relevance_high : (ofContent change delta).relevance = .high ↔ delta.ReachesFar := by
  rw [← Level.rank_high, (collects_ofContent change delta).relevance]
  constructor
  · rintro (none | ⟨relevance, ⟨category, impact, finding⟩, high⟩)
    · cases none
    · obtain rfl := (Level.rank_high relevance).mp high
      exact finding.far
  · intro far
    exact .inr ⟨.high, finding_of_far change far, Nat.le_refl _⟩

theorem relevance_none :
    (ofContent change delta).relevance ≠ .none ↔ delta.ReachesFar ∨ delta.Matters change := by
  rw [← Level.rank_low, (collects_ofContent change delta).relevance, ← finding_some]
  constructor
  · rintro (none | ⟨relevance, ⟨category, impact, finding⟩, _low⟩)
    · cases none
    · exact ⟨category, impact, relevance, finding⟩
  · rintro ⟨category, impact, relevance, finding⟩
    exact .inr ⟨relevance, ⟨category, impact, finding⟩, finding.relevant⟩

theorem far_of_touches (touched : (ofContent change delta).touchesInterfacesOrSpace = true) :
    delta.ReachesFar := by
  rw [touchesInterfacesOrSpace, Bool.or_eq_true, List.contains_iff_mem, List.contains_iff_mem,
    (collects_ofContent change delta).categories,
    (collects_ofContent change delta).categories] at touched
  rcases touched with ⟨impact, relevance, finding⟩ | ⟨impact, relevance, finding⟩
  · cases finding with
    | interfaces changed => exact Finding.far (.interfaces changed : Finding change _ _ _ _)
    | modified type mem _ _ _ found => cases found
  · cases finding with
    | space changed => exact .inl changed
    | modified type mem _ _ _ found => cases found

theorem primaryOf_ne_formatting : primaryOf change delta ≠ .formatting := by
  unfold primaryOf
  grind

end Classification

/-! ### What is documented anew -/

namespace Significance

variable (policy : Policy) (change : TextChange) (delta : Delta) (context : SymbolContext)

theorem of_score : (of policy change delta context).score =
    scoreOf (pointsOf policy change delta context).1 :=
  (Rule.applyAll_keeps policy _).1

theorem of_score_le : (of policy change delta context).score ≤ 100 := by
  rw [of_score, scoreOf]
  omega

theorem of_classification :
    (of policy change delta context).classification = Classification.of change delta :=
  (Rule.applyAll_keeps policy _).2

theorem of_regenerate_layout (layout : change.layoutOnly = true) :
    (of policy change delta context).recommendation.regenerate = false := by
  unfold of
  rw [Rule.applyAll_regenerate, Classification.of, if_pos layout]
  rfl

theorem of_regenerate_content (content : change.layoutOnly = false) :
    (of policy change delta context).recommendation.regenerate = true ↔
      delta.ReachesFar ∨ (delta.Matters change ∧
        (policy.bandFor? (of policy change delta context).score).isSome = true) := by
  have classified : Classification.of change delta = Classification.ofContent change delta :=
    if_neg (Bool.eq_false_iff.mp content)
  have shown : (Classification.ofContent change delta).primary ≠ .formatting :=
    Classification.primaryOf_ne_formatting change delta
  have high := Classification.relevance_high change delta
  have relevant := Classification.relevance_none change delta
  rw [of_score, of, Rule.applyAll_regenerate]
  dsimp only
  rw [classified]
  simp only [Bool.or_eq_true, Bool.and_eq_true, Bool.not_eq_true', decide_eq_true_eq,
    decide_eq_false_iff_not]
  constructor
  · rintro (touched | ⟨_shown, found, reached | banded⟩)
    · exact .inl (Classification.far_of_touches change delta touched)
    · exact .inl (high.mp reached)
    · rcases relevant.mp found with far | matters
      · exact .inl far
      · exact .inr ⟨matters, banded⟩
  · rintro (far | ⟨matters, banded⟩)
    · exact .inr ⟨shown, relevant.mpr (.inl far), .inl (high.mpr far)⟩
    · exact .inr ⟨shown, relevant.mpr (.inr matters), .inr banded⟩

/-- A change is documented anew just if it is not one of layout and either reaches far or matters
with a score that reaches a band. So a change whose severity is rightly major always is, and one
that changes neither more than layout nor any declaration never is. -/
theorem regenerate_iff :
    ((of policy change delta context).recommendation.regenerate = true ↔
      change.layoutOnly = false ∧ (delta.ReachesFar ∨ (delta.Matters change ∧
        (policy.bandFor? (of policy change delta context).score).isSome = true))) ∧
    (change.layoutOnly = false → delta.severity = .major →
      delta.severity = delta.impliedSeverity →
      (of policy change delta context).recommendation.regenerate = true) ∧
    (change.layoutOnly = false → change.commentsOnly = false → change.structural = false →
      change.semantic = false → delta.hasChanges = false →
      (of policy change delta context).recommendation.regenerate = false) := by
  refine ⟨?_, ?_, ?_⟩
  · cases layout : change.layoutOnly with
    | true => simp [of_regenerate_layout policy change delta context layout]
    | false => simp [of_regenerate_content policy change delta context layout]
  · intro content major implied
    apply (of_regenerate_content policy change delta context content).mpr
    rw [implied, Delta.impliedSeverity_major] at major
    exact .inl major.far
  · intro content comments structural semantic same
    rw [← Bool.not_eq_true, of_regenerate_content policy change delta context content]
    rintro (far | ⟨(only | some | some) | changed, _banded⟩)
    · exact Bool.false_ne_true (same.symm.trans far.hasChanges)
    · exact Bool.false_ne_true (comments.symm.trans only)
    · exact Bool.false_ne_true (structural.symm.trans some)
    · exact Bool.false_ne_true (semantic.symm.trans some)
    · refine Bool.false_ne_true (same.symm.trans (Delta.hasChanges_iff.mpr ?_))
      rcases changed with ⟨type, mem, _changed⟩ | functions | imports
      · exact .inr (.inl (hasChanges_of_modified mem))
      · exact .inr (.inr (.inr (.inl functions)))
      · exact .inr (.inr (.inr (.inr imports)))

end Significance

end DocDrift
