import DocDrift.Proofs.Scoring.Growth

/-!
What is known about the symbols of a file has a say in one place only: it adds a term to the points,
and the reason for it. A change of layout gets none, nor does one that touches symbols of both
kinds; everything else of the outcome follows from the score.
-/

set_option autoImplicit false

namespace DocDrift

/-- A change touches nothing, or no symbol that is documented and not private while one that is not
private or is documented. -/
def Delta.Indifferent (delta : Delta) (context : SymbolContext) : Prop :=
  delta.touchedSymbols = [] ∨ ¬delta.TouchesDocumented context ∧
    ∃ symbol ∈ delta.touchedSymbols, symbol ∉ context.privates ∨ symbol ∈ context.documented

theorem Delta.touchesHidden_of_matters {delta : Delta} {context : SymbolContext}
    (others : ¬delta.TouchesDocumented context) (matters : ¬delta.Indifferent context) :
    delta.TouchesHidden context := by
  refine ⟨fun nothing => matters (.inl nothing), ?_⟩
  intro symbol touched
  refine ⟨?_, fun documented => matters (.inr ⟨others, symbol, touched, .inr documented⟩)⟩
  by_contra shown
  exact matters (.inr ⟨others, symbol, touched, .inl shown⟩)

/-! ### The term for the symbols -/

namespace Scoring

section Context

variable (policy : Policy) {delta : Delta} {context : SymbolContext}

theorem contextPoints_indifferent (indifferent : delta.Indifferent context) :
    contextPoints policy delta context = (0, []) := by
  rcases indifferent with nothing | ⟨hidden, symbol, touched, shown⟩
  · rw [contextPoints, nothing]
    rfl
  · rw [contextPoints_undocumented policy hidden, if_neg]
    rintro ⟨_some, all⟩
    obtain ⟨isPrivate, undocumented⟩ := all symbol touched
    exact shown.elim (fun isShown => isShown isPrivate) undocumented

theorem contextSum_documented (touches : delta.TouchesDocumented context) :
    contextSum policy delta context = policy.documentedBonus :=
  if_pos touches

theorem contextSum_hidden (hidden : delta.TouchesHidden context) :
    contextSum policy delta context = -policy.privatePenalty.toInt := by
  rw [contextSum, if_neg hidden.not_touchesDocumented, if_pos hidden]

end Context

end Scoring

/-! ### What follows from the term -/

namespace Significance

/-- The points of a change whose symbols are known differ by a term from those of the same change of
which nothing is known. A sum that leaves the range of sixty-four bits wraps around; where neither
does, the difference is exact. -/
structure Differ (policy : Policy) (change : TextChange) (delta : Delta) (context : SymbolContext)
    (term : Int) : Prop where
  wrapped : (pointsOf policy change delta context).1 =
    (pointsOf policy change delta .empty).1 + Int64.ofInt term
  exact : AddsUp policy change delta context → AddsUp policy change delta .empty →
    (pointsOf policy change delta context).1.toInt =
      (pointsOf policy change delta .empty).1.toInt + term

/-- How the outcome for a change whose symbols are known compares with that for the same change of
which nothing is known. -/
structure Informed (policy : Policy) (change : TextChange) (delta : Delta) (context : SymbolContext)
    (informed plain : Significance) : Prop where
  classification : informed.classification = plain.classification
  score : informed.score = scoreOf (pointsOf policy change delta context).1
  plainScore : plain.score = scoreOf (pointsOf policy change delta .empty).1
  indifferent : change.layoutOnly = true ∨ delta.Indifferent context →
    informed.score = plain.score ∧ informed.recommendation = plain.recommendation
  documented : change.layoutOnly = false → delta.TouchesDocumented context →
    Differ policy change delta context policy.documentedBonus
  privates : change.layoutOnly = false → ¬delta.Indifferent context →
    ¬delta.TouchesDocumented context →
    Differ policy change delta context (-policy.privatePenalty.toInt)

section Context

variable (policy : Policy) {change : TextChange} {delta : Delta} (context : SymbolContext)

theorem sumOf_context (content : change.layoutOnly = false) :
    sumOf policy change delta context =
      sumOf policy change delta .empty + Scoring.contextSum policy delta context := by
  rw [sumOf_content policy change content, sumOf, if_neg (Bool.eq_false_iff.mp content)]
  omega

theorem differ_contextSum (content : change.layoutOnly = false) :
    Differ policy change delta context (Scoring.contextSum policy delta context) where
  wrapped := by
    rw [pointsOf_eq, pointsOf_eq, sumOf_context policy context content, Int64.ofInt_add]
  exact adds adds' := by
    rw [toInt_pointsOf adds, toInt_pointsOf adds', sumOf_context policy context content]

/-- Where the symbols have no say, the outcome is that without them. -/
theorem of_indifferent
    (indifferent : change.layoutOnly = true ∨ delta.Indifferent context) :
    of policy change delta context = of policy change delta .empty := by
  have same : pointsOf policy change delta context = pointsOf policy change delta .empty := by
    unfold pointsOf
    split
    case isTrue layout =>
      rw [Scoring.contextPoints_indifferent policy (.inl rfl), Scoring.contextPoints_empty]
    case isFalse content =>
      rw [Scoring.contextPoints_indifferent policy (indifferent.resolve_left content),
        Scoring.contextPoints_empty]
  rw [of, of, same]

theorem of_informed :
    Informed policy change delta context (of policy change delta context)
      (of policy change delta .empty) where
  classification := by rw [of_classification, of_classification]
  score := of_score ..
  plainScore := of_score ..
  indifferent indifferent := by
    rw [of_indifferent policy context indifferent]
    exact ⟨rfl, rfl⟩
  documented content touches := by
    rw [← Scoring.contextSum_documented policy touches]
    exact differ_contextSum policy context content
  privates content matters others := by
    rw [← Scoring.contextSum_hidden policy (Delta.touchesHidden_of_matters others matters)]
    exact differ_contextSum policy context content

end Context

end Significance

end DocDrift
