import DocDrift.Scoring.Significance

/-!
What a classification is made of. A change that is not one of layout leaves findings, each with a
category, an impact and a relevance; the classification has their categories and the highest of
their levels.
-/

set_option autoImplicit false

namespace DocDrift

/-! ### Levels and categories -/

namespace Level

theorem rank_none (level : Level) : level.rank ≤ Level.none.rank ↔ level = .none := by
  cases level <;> decide

theorem rank_high (level : Level) : Level.high.rank ≤ level.rank ↔ level = .high := by
  cases level <;> decide

theorem rank_low (level : Level) : Level.low.rank ≤ level.rank ↔ level ≠ .none := by
  cases level <;> decide

theorem le_highest (level left right : Level) :
    level.rank ≤ (left.highest right).rank ↔
      level.rank ≤ left.rank ∨ level.rank ≤ right.rank := by
  unfold highest
  split <;> omega

/-- A level is the highest of some levels, or nothing if there are none. -/
def IsHighest (best : Level) (found : Level → Prop) : Prop :=
  ∀ level : Level, level.rank ≤ best.rank ↔
    level = .none ∨ ∃ other, found other ∧ level.rank ≤ other.rank

theorem isHighest_none : Level.none.IsHighest (fun _ => False) := by
  intro level
  simp [rank_none]

theorem IsHighest.highest {best : Level} {found : Level → Prop} (highest : best.IsHighest found)
    (added : Level) : (best.highest added).IsHighest (fun other => found other ∨ other = added) := by
  intro level
  rw [le_highest, highest level]
  constructor
  · rintro ((none | ⟨other, earlier, reached⟩) | reached)
    · exact .inl none
    · exact .inr ⟨other, .inl earlier, reached⟩
    · exact .inr ⟨added, .inr rfl, reached⟩
  · rintro (none | ⟨other, earlier | rfl, reached⟩)
    · exact .inl (.inl none)
    · exact .inl (.inr ⟨other, earlier, reached⟩)
    · exact .inr reached

theorem IsHighest.congr {best : Level} {found found' : Level → Prop}
    (highest : best.IsHighest found) (same : ∀ level, found level ↔ found' level) :
    best.IsHighest found' := by
  have equal : found = found' := funext fun level => propext (same level)
  exact equal ▸ highest

end Level

theorem Category.mem_normalized (found : List Category) (category : Category) :
    category ∈ normalized found ↔ category ∈ found := by
  have listed : category ∈ all := by cases category <;> decide
  rw [normalized, List.mem_filter, List.contains_iff_mem]
  exact and_iff_right listed

/-! ### Findings -/

/-- What the change of a type that stayed adds to a classification. -/
inductive TypeFinding (change : TypeDelta) : Category → Level → Level → Prop
  | place (moved : change.changesHierarchy = true ∨ change.modifiers.isSome = true) :
      TypeFinding change .types .high .high
  | methods (changed : change.methods.hasChanges = true) :
      TypeFinding change .members .medium .medium
  | properties (same : change.methods.hasChanges = false)
      (changed : change.properties.hasChanges = true) : TypeFinding change .members .low .medium

/-- What a change that is not one of layout adds to its classification: category, impact and
relevance. -/
inductive Finding (change : TextChange) (delta : Delta) : Category → Level → Level → Prop
  | comments (only : change.commentsOnly = true) : Finding change delta .comments .low .low
  | structural (some : change.structural = true) :
      Finding change delta .structural .medium .medium
  | semantic (some : change.semantic = true) : Finding change delta .semantic .medium .low
  | space (changed : delta.spaceChanged = true) : Finding change delta .namespaces .high .high
  | churned (some : 0 < delta.types.churn) : Finding change delta .types .high .high
  | modified (type : TypeDelta) (mem : type ∈ delta.types.modified.values) (category : Category)
      (impact relevance : Level) (found : TypeFinding type category impact relevance) :
      Finding change delta category impact relevance
  | interfaces (changed : delta.interfaces.hasChanges = true ∨ delta.implementsChanged = true) :
      Finding change delta .interfaces .high .high
  | functions (churned : 0 < delta.functions.churn) :
      Finding change delta .functions .medium .high
  | signatures (still : ¬0 < delta.functions.churn)
      (some : delta.functions.modified.isEmpty = false) :
      Finding change delta .functions .medium .medium
  | imports (changed : delta.imports.hasChanges = true) :
      Finding change delta .imports .low .low

theorem Finding.relevant {change : TextChange} {delta : Delta} {category : Category}
    {impact relevance : Level} (finding : Finding change delta category impact relevance) :
    Level.low.rank ≤ relevance.rank := by
  cases finding with
  | modified type mem _ _ _ found => cases found <;> decide
  | _ => decide

namespace Classification

/-- A classification has the categories of its findings and the highest of their levels. -/
structure Collects (classification : Classification)
    (found : Category → Level → Level → Prop) : Prop where
  categories : ∀ category, category ∈ classification.categories ↔
    ∃ impact relevance, found category impact relevance
  impact : classification.impact.IsHighest
    (fun impact => ∃ category relevance, found category impact relevance)
  relevance : classification.relevance.IsHighest
    (fun relevance => ∃ category impact, found category impact relevance)

section Collects

variable {classification : Classification} {found : Category → Level → Level → Prop}

theorem Collects.congr {found' : Category → Level → Level → Prop}
    (collects : classification.Collects found)
    (same : ∀ category impact relevance,
      found category impact relevance ↔ found' category impact relevance) :
    classification.Collects found' := by
  have equal : found = found' := by
    funext category impact relevance
    exact propext (same category impact relevance)
  exact equal ▸ collects

theorem collects_start : start.Collects (fun _ _ _ => False) := by
  refine ⟨by simp [start], ?_, ?_⟩
  · exact Level.isHighest_none.congr (by simp)
  · exact Level.isHighest_none.congr (by simp)

theorem Collects.raiseIf (collects : classification.Collects found) (holds : Bool)
    (category : Category) (impact relevance : Level) :
    (raiseIf holds category impact relevance classification).Collects
      (fun other raised relevant => found other raised relevant ∨
        (holds = true ∧ other = category ∧ raised = impact ∧ relevant = relevance)) := by
  cases holds with
  | false => exact collects.congr (by simp)
  | true =>
      refine ⟨?_, ?_, ?_⟩
      · intro other
        change other ∈ Category.normalized (category :: classification.categories) ↔ _
        rw [Category.mem_normalized, List.mem_cons, collects.categories]
        constructor
        · rintro (rfl | ⟨raised, relevant, earlier⟩)
          · exact ⟨impact, relevance, .inr ⟨rfl, rfl, rfl, rfl⟩⟩
          · exact ⟨raised, relevant, .inl earlier⟩
        · rintro ⟨raised, relevant, earlier | ⟨_, rfl, _, _⟩⟩
          · exact .inr ⟨raised, relevant, earlier⟩
          · exact .inl rfl
      · apply (collects.impact.highest impact).congr
        intro raised
        simp [exists_or]
      · apply (collects.relevance.highest relevance).congr
        intro relevant
        simp [exists_or]

theorem Collects.raiseForType (collects : classification.Collects found) (change : TypeDelta) :
    (raiseForType classification change).Collects
      (fun category impact relevance => found category impact relevance ∨
        TypeFinding change category impact relevance) := by
  have placed := collects.raiseIf (change.changesHierarchy || change.modifiers.isSome) .types
    .high .high
  unfold Classification.raiseForType
  dsimp only
  cases methods : change.methods.hasChanges with
  | true =>
      apply (placed.raiseIf true .members .medium .medium).congr
      intro category impact relevance
      rw [or_assoc, Bool.or_eq_true]
      refine or_congr Iff.rfl ⟨?_, ?_⟩
      · rintro (⟨moved, rfl, rfl, rfl⟩ | ⟨_, rfl, rfl, rfl⟩)
        · exact .place moved
        · exact .methods methods
      · rintro (moved | changed | ⟨same, changed⟩)
        · exact .inl ⟨moved, rfl, rfl, rfl⟩
        · exact .inr ⟨rfl, rfl, rfl, rfl⟩
        · rw [methods] at same
          cases same
  | false =>
      apply (placed.raiseIf change.properties.hasChanges .members .low .medium).congr
      intro category impact relevance
      rw [or_assoc, Bool.or_eq_true]
      refine or_congr Iff.rfl ⟨?_, ?_⟩
      · rintro (⟨moved, rfl, rfl, rfl⟩ | ⟨changed, rfl, rfl, rfl⟩)
        · exact .place moved
        · exact .properties methods changed
      · rintro (moved | changed | ⟨same, changed⟩)
        · exact .inl ⟨moved, rfl, rfl, rfl⟩
        · rw [methods] at changed
          cases changed
        · exact .inr ⟨changed, rfl, rfl, rfl⟩

theorem Collects.raiseForTypes (collects : classification.Collects found)
    (changes : List TypeDelta) :
    (changes.foldl Classification.raiseForType classification).Collects
      (fun category impact relevance => found category impact relevance ∨
        ∃ type ∈ changes, TypeFinding type category impact relevance) := by
  induction changes generalizing classification found with
  | nil => exact collects.congr (by simp)
  | cons change rest ih =>
      rw [List.foldl_cons]
      apply (ih (collects.raiseForType change)).congr
      intro category impact relevance
      simp only [or_assoc, List.mem_cons, exists_eq_or_imp]

theorem Collects.raiseForFunctions (collects : classification.Collects found)
    (functions : ChangeSet MemberDelta) :
    (if 0 < functions.churn then
        Classification.raiseIf true .functions .medium .high classification
      else
        Classification.raiseIf (!functions.modified.isEmpty) .functions .medium .medium
          classification).Collects
      (fun category impact relevance => found category impact relevance ∨
        (0 < functions.churn ∧ category = .functions ∧ impact = .medium ∧ relevance = .high) ∨
        (¬0 < functions.churn ∧ functions.modified.isEmpty = false ∧ category = .functions ∧
          impact = .medium ∧ relevance = .medium)) := by
  by_cases churned : 0 < functions.churn
  · rw [if_pos churned]
    exact (collects.raiseIf true .functions .medium .high).congr (by simp [churned])
  · rw [if_neg churned]
    apply (collects.raiseIf (!functions.modified.isEmpty) .functions .medium .medium).congr
    simp only [churned, Bool.not_eq_true', false_and, not_false_eq_true, true_and, false_or,
      implies_true]

end Collects

/-- The classification of a change that is not one of layout collects its findings. -/
theorem collects_ofContent (change : TextChange) (delta : Delta) :
    (ofContent change delta).Collects (Finding change delta) := by
  have text := ((collects_start.raiseIf change.commentsOnly .comments .low .low).raiseIf
    change.structural .structural .medium .medium).raiseIf change.semantic .semantic .medium .low
  have types := ((text.raiseIf delta.spaceChanged .namespaces .high .high).raiseIf
    (0 < delta.types.churn) .types .high .high).raiseForTypes delta.types.modified.values
  have functions := (types.raiseIf (delta.interfaces.hasChanges || delta.implementsChanged)
    .interfaces .high .high).raiseForFunctions delta.functions
  have all := functions.raiseIf delta.imports.hasChanges .imports .low .low
  have kept : (ofContent change delta).Collects _ := ⟨all.categories, all.impact, all.relevance⟩
  apply kept.congr
  intro category impact relevance
  simp only [false_or, or_assoc, Bool.or_eq_true, decide_eq_true_eq]
  constructor
  · rintro (⟨only, rfl, rfl, rfl⟩ | ⟨some, rfl, rfl, rfl⟩ | ⟨some, rfl, rfl, rfl⟩ |
      ⟨changed, rfl, rfl, rfl⟩ | ⟨some, rfl, rfl, rfl⟩ | ⟨type, mem, found⟩ |
      ⟨changed, rfl, rfl, rfl⟩ | ⟨churned, rfl, rfl, rfl⟩ | ⟨still, some, rfl, rfl, rfl⟩ |
      ⟨changed, rfl, rfl, rfl⟩)
    · exact .comments only
    · exact .structural some
    · exact .semantic some
    · exact .space changed
    · exact .churned some
    · exact .modified type mem _ _ _ found
    · exact .interfaces changed
    · exact .functions churned
    · exact .signatures still some
    · exact .imports changed
  · intro finding
    cases finding with
    | modified type mem _ _ _ found =>
        exact .inr (.inr (.inr (.inr (.inr (.inl ⟨type, mem, found⟩)))))
    | _ => simp [*]

end Classification

end DocDrift
