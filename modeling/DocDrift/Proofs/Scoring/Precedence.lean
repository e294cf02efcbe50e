import DocDrift.Proofs.Scoring.Context

/-!
Which rule has the last word. The rules read from the back are a table of cases of which the first
decides, whatever was recommended before. For a change of layout the case is always the same, so
neither the structure nor what is known of the symbols has a say.
-/

set_option autoImplicit false

namespace DocDrift

/-! ### The first case -/

/-- The rules keep the score and the classification, which alone decide: the first case of the table
that applies. Every rule that applies adds one reason, behind those that were there. -/
theorem Rule.first_case_decides (policy : Policy) (result : Significance) :
    (applyAll policy result).score = result.score ∧
    (applyAll policy result).classification = result.classification ∧
    (applyAll policy result).recommendation.decision =
      .of policy result.score result.classification ∧
    (applyAll policy result).recommendation.reasons =
      result.recommendation.reasons ++
        (Kind.all.filter (Kind.applies result.classification)).map
          (Kind.reason policy result.score) :=
  ⟨(applyAll_keeps policy result).1, (applyAll_keeps policy result).2,
    applyAll_decision policy result, applyAll_reasons policy result⟩

/-! ### Changes of layout -/

namespace Significance

/-- The outcome for a change of layout: its score is that of the text, and the rules for changes
without relevance and of layout apply after that for the score. -/
structure SetAside (policy : Policy) (change : TextChange) (result : Significance) : Prop where
  score : (result.score : Int) = max 0 (min 100 (Scoring.textPoints policy change).toInt)
  classification : result.classification = ⟨.formatting, [.whitespace], .none, .none⟩
  decision : result.recommendation.decision = ⟨false, policy.formattingConfidence, .none⟩
  reasons : result.recommendation.reasons =
    [Rule.Kind.threshold, .noRelevance, .formatting].map (Rule.Kind.reason policy result.score)

theorem scoreOf_eq (points : Int) : (scoreOf points : Int) = max 0 (min 100 points) := by
  unfold scoreOf
  omega

section Layout

variable (policy : Policy) {change : TextChange} (layout : change.layoutOnly = true)
  (delta : Delta) (context : SymbolContext)

include layout

/-- For a change of layout the rules start from its text alone. -/
theorem of_eq_of_layout : of policy change delta context =
    Rule.applyAll policy
      ⟨scoreOf (Scoring.textPoints policy change), ⟨.formatting, [.whitespace], .none, .none⟩,
        .undecided []⟩ := by
  have points : pointsOf policy change delta context = (Scoring.textPoints policy change, []) := by
    rw [pointsOf, if_pos layout, Scoring.contextPoints_indifferent policy (.inl rfl)]
    exact Prod.ext (Int64.add_zero _) rfl
  rw [of, points, Classification.of, if_pos layout]

theorem setAside_of_layout : (of policy change delta context).SetAside policy change := by
  rw [of_eq_of_layout policy layout]
  generalize before :
    (⟨scoreOf (Scoring.textPoints policy change), ⟨.formatting, [.whitespace], .none, .none⟩,
      .undecided []⟩ : Significance) = start
  refine ⟨?_, ?_, ?_, ?_⟩
  · rw [(Rule.applyAll_keeps policy start).1, ← before]
    exact scoreOf_eq _
  · rw [(Rule.applyAll_keeps policy start).2, ← before]
  · rw [Rule.applyAll_decision, ← before]
    rfl
  · rw [Rule.applyAll_reasons, (Rule.applyAll_keeps policy start).1, ← before]
    rfl

/-- The outcome for a change of layout is the same whatever else the text changes, whatever the
structural change is and whatever is known of the symbols: the change is not documented anew. -/
theorem layout_pins_outcome :
    (∀ (delta delta' : Delta) (context context' : SymbolContext),
      of policy change delta context = of policy change delta' context') ∧
    ∀ (delta : Delta) (context : SymbolContext),
      (of policy change delta context).SetAside policy change :=
  ⟨fun delta delta' context context' => (of_eq_of_layout policy layout delta context).trans
      (of_eq_of_layout policy layout delta' context').symm,
    setAside_of_layout policy layout⟩

end Layout

/-- A policy by which every score is a reason to document anew. -/
def eagerPolicy : Policy :=
  { Policy.standard with scoreBands := [⟨0, 1.0, .high⟩] }

/-- A change that is called one of layout, and one of declarations and other code as well. -/
def confusedChange : TextChange :=
  ⟨true, false, true, true, ⟨2, 0, 0, 2⟩⟩

/-- Not even an eager policy documents a change of layout anew, though the namespace is said to
change and a documented function to go. -/
theorem layout_pins_outcome_of_confused :
    confusedChange.layoutOnly = true ∧
    of eagerPolicy confusedChange
        { Delta.empty with spaceChanged := true, functions := ⟨[], ["total"], []⟩ }
        ⟨["total"], []⟩ =
      of eagerPolicy confusedChange .empty .empty ∧
    (of eagerPolicy confusedChange .empty .empty).SetAside eagerPolicy confusedChange ∧
    (of eagerPolicy confusedChange .empty .empty).score = 71 := by
  have layout : confusedChange.layoutOnly = true := rfl
  have pinned := layout_pins_outcome eagerPolicy layout
  exact ⟨layout, pinned.1 _ _ _ _, pinned.2 _ _, by decide +kernel⟩

end Significance

end DocDrift
