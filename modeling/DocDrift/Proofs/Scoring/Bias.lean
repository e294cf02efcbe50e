import DocDrift.Proofs.Scoring.Context

/-!
What more knowledge of the symbols does to an outcome. A symbol that is documented speaks for
documenting a change anew, one that is private against it. If the bonus and the penalty are what
they are called and the points stay in their range, an outcome never gets lower with more documented
symbols, and never higher with more private ones.
-/

set_option autoImplicit false

namespace DocDrift

/-- One context speaks for a change at most as much as another: it documents no other symbols, and
at least the same ones are private. -/
structure SymbolContext.Within (lower higher : SymbolContext) : Prop where
  documented : lower.documented ⊆ higher.documented
  privates : higher.privates ⊆ lower.privates

section Within

variable {lower higher : SymbolContext} (within : lower.Within higher) {delta : Delta}

include within

theorem SymbolContext.Within.touchesDocumented (touches : delta.TouchesDocumented lower) :
    delta.TouchesDocumented higher := by
  obtain ⟨symbol, touched, documented, shown⟩ := touches
  exact ⟨symbol, touched, within.documented documented,
    fun isPrivate => shown (within.privates isPrivate)⟩

theorem SymbolContext.Within.touchesHidden (hidden : delta.TouchesHidden higher) :
    delta.TouchesHidden lower := by
  refine ⟨hidden.1, fun symbol touched => ?_⟩
  obtain ⟨isPrivate, undocumented⟩ := hidden.2 symbol touched
  exact ⟨within.privates isPrivate, fun documented => undocumented (within.documented documented)⟩

end Within

/-! ### The term for the symbols -/

/-- No step from one case to the next lowers the term, for a context that speaks for a change more
leaves the penalty first and then reaches the bonus. -/
theorem Scoring.contextSum_mono {policy : Policy} (bonus : 0 ≤ policy.documentedBonus)
    (penalty : 0 ≤ policy.privatePenalty) (delta : Delta) {lower higher : SymbolContext}
    (within : lower.Within higher) :
    contextSum policy delta lower ≤ contextSum policy delta higher := by
  have gain := toInt_nonneg bonus
  have loss := toInt_nonneg penalty
  have documented : delta.TouchesDocumented lower → delta.TouchesDocumented higher :=
    within.touchesDocumented
  have hidden : delta.TouchesHidden higher → delta.TouchesHidden lower := within.touchesHidden
  by_cases touches : delta.TouchesDocumented higher
  · rw [contextSum_documented policy touches, contextSum]
    split_ifs <;> omega
  · have others : ¬delta.TouchesDocumented lower := mt documented touches
    by_cases calm : delta.TouchesHidden lower
    · rw [contextSum_hidden policy calm, contextSum, if_neg touches]
      split_ifs <;> omega
    · apply Int.le_of_eq
      rw [contextSum, contextSum, if_neg others, if_neg touches, if_neg calm,
        if_neg (mt hidden calm)]

/-! ### Outcomes -/

namespace Significance

section Bias

variable {policy : Policy} (bonus : 0 ≤ policy.documentedBonus)
  (penalty : 0 ≤ policy.privatePenalty) (change : TextChange) (delta : Delta)

include bonus penalty

/-- A context that speaks for a change more does not make its outcome lower. -/
theorem atMost_of_context {lower higher : SymbolContext} (within : lower.Within higher)
    (adds : AddsUp policy change delta lower) (adds' : AddsUp policy change delta higher) :
    (of policy change delta lower).AtMost (of policy change delta higher) := by
  cases layout : change.layoutOnly with
  | true =>
      rw [of_indifferent policy lower (.inl layout), of_indifferent policy higher (.inl layout)]
      exact .refl _
  | false =>
      have score : (of policy change delta lower).score ≤ (of policy change delta higher).score := by
        have points := Scoring.contextSum_mono bonus penalty delta within
        rw [score_of_addsUp adds, score_of_addsUp adds']
        apply scoreOf_mono
        rw [sumOf_context policy lower layout, sumOf_context policy higher layout]
        exact Int.add_le_add_left points _
      refine ⟨score, ?_, ?_⟩
      · rw [of_regenerate_content _ _ _ _ layout, of_regenerate_content _ _ _ _ layout]
        exact Or.imp id (And.imp id (policy.bandFor?_mono score))
      · rw [of_classification, of_classification]
        exact .refl _

end Bias

def methodsChanged : Delta :=
  { Delta.empty with
    types := ⟨[], [],
      [("Cart", ⟨.ofClass, none, ⟨[], []⟩, none, ⟨["add"], ["total"], []⟩, .empty⟩)]⟩
    severity := .minor }

def signatureChange : TextChange :=
  ⟨false, false, false, true, ⟨1, 0, 0, 1⟩⟩

/-- A policy with one band, which the change of two methods reaches without a penalty. -/
def steepPolicy : Policy :=
  { Policy.standard with scoreBands := [⟨55, 0.9, .high⟩] }

end Significance

end DocDrift
