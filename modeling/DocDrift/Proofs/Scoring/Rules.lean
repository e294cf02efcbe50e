import DocDrift.Scoring.Significance

/-!
What the rules decide. No rule changes the score or the classification, so what each of them looks
at is known from the start, and a rule that applies overrules those before it. Read from the back,
the rules are a table of cases of which the first decides. The reasons are those of the rules that
apply, in the order of the rules.
-/

set_option autoImplicit false

namespace DocDrift

/-! ### Cases -/

/-- What is recommended, without the reasons. -/
structure Decision where
  regenerate : Bool
  confidence : Float
  priority : Level

def Recommendation.decision (recommendation : Recommendation) : Decision :=
  ⟨recommendation.regenerate, recommendation.confidence, recommendation.priority⟩

namespace Decision

/-- What a score decides: the first band that it reaches, and against it if there is none. -/
def ofScore (policy : Policy) (score : Nat) : Decision :=
  match policy.bandFor? score with
  | some band => ⟨true, band.confidence, band.priority⟩
  | none => ⟨false, policy.skipConfidence, .none⟩

/-- The decision on a score and a classification: the first case that applies counts. -/
def of (policy : Policy) (score : Nat) (classification : Classification) : Decision :=
  if classification.touchesInterfacesOrSpace then ⟨true, policy.interfaceConfidence, .high⟩
  else if classification.primary = .formatting then ⟨false, policy.formattingConfidence, .none⟩
  else if classification.relevance = .none then ⟨false, policy.irrelevantConfidence, .none⟩
  else if classification.relevance = .high then
    ⟨true,
      Rule.smaller ((ofScore policy score).confidence + policy.relevanceBoost)
        policy.confidenceCap,
      (policy.bandFor? score).elim .medium (·.priority)⟩
  else ofScore policy score

section Cases

variable (policy : Policy) (score : Nat) (classification : Classification)

theorem ofScore_eq : ofScore policy score =
    ⟨(policy.bandFor? score).isSome, (policy.bandFor? score).elim policy.skipConfidence (·.confidence),
      (policy.bandFor? score).elim .none (·.priority)⟩ := by
  unfold ofScore
  cases policy.bandFor? score <;> rfl

theorem of_regenerate : (of policy score classification).regenerate =
    (classification.touchesInterfacesOrSpace ||
      (!decide (classification.primary = .formatting) &&
        (!decide (classification.relevance = .none) &&
          (decide (classification.relevance = .high) || (policy.bandFor? score).isSome)))) := by
  unfold of
  by_cases touches : classification.touchesInterfacesOrSpace = true
  · simp [touches]
  by_cases formatting : classification.primary = .formatting
  · simp [touches, formatting]
  by_cases none : classification.relevance = .none
  · simp [touches, formatting, none]
  by_cases high : classification.relevance = .high
  · simp [touches, formatting, high]
  · simp [touches, formatting, none, high, ofScore_eq]

theorem of_priority : (of policy score classification).priority =
    if classification.touchesInterfacesOrSpace then .high
    else if classification.primary = .formatting then .none
    else if classification.relevance = .none then .none
    else (policy.bandFor? score).elim
      (if classification.relevance = .high then .medium else .none) (·.priority) := by
  unfold of
  by_cases high : classification.relevance = .high
  · simp only [high, if_true, apply_ite priority]
  · simp only [high, if_false, apply_ite priority, ofScore_eq]

end Cases

end Decision

namespace Rule

/-! ### A rule that overrules -/

section Overruling

variable (result : Significance) (applies : Prop) [Decidable applies] (regenerate : Bool)
  (confidence : Float) (priority : Level) (reason : String)

theorem overruled_keeps :
    (if applies then verdict result regenerate confidence priority reason else result).score =
        result.score ∧
      (if applies then verdict result regenerate confidence priority reason
        else result).classification = result.classification := by
  split <;> exact ⟨rfl, rfl⟩

theorem overruled_decision :
    (if applies then verdict result regenerate confidence priority reason
      else result).recommendation.decision =
      if applies then ⟨regenerate, confidence, priority⟩ else result.recommendation.decision := by
  split <;> rfl

theorem overruled_reasons :
    (if applies then verdict result regenerate confidence priority reason
      else result).recommendation.reasons =
      result.recommendation.reasons ++ if applies then [reason] else [] := by
  split
  · rfl
  · rw [List.append_nil]

end Overruling

section Rules

variable (policy : Policy) (result : Significance)

/-! ### What the rules keep -/

theorem threshold_keeps : (threshold policy result).score = result.score ∧
    (threshold policy result).classification = result.classification := by
  unfold threshold
  split <;> exact ⟨rfl, rfl⟩

theorem highRelevance_keeps : (highRelevance policy result).score = result.score ∧
    (highRelevance policy result).classification = result.classification :=
  overruled_keeps ..

theorem noRelevance_keeps : (noRelevance policy result).score = result.score ∧
    (noRelevance policy result).classification = result.classification :=
  overruled_keeps ..

theorem formatting_keeps : (formatting policy result).score = result.score ∧
    (formatting policy result).classification = result.classification :=
  overruled_keeps ..

theorem interfaces_keeps : (interfaces policy result).score = result.score ∧
    (interfaces policy result).classification = result.classification :=
  overruled_keeps ..

theorem applyAll_eq : applyAll policy result =
    interfaces policy (formatting policy (noRelevance policy
      (highRelevance policy (threshold policy result)))) := rfl

theorem applyAll_keeps : (applyAll policy result).score = result.score ∧
    (applyAll policy result).classification = result.classification := by
  rw [applyAll_eq, (interfaces_keeps _ _).1, (interfaces_keeps _ _).2, (formatting_keeps _ _).1,
    (formatting_keeps _ _).2, (noRelevance_keeps _ _).1, (noRelevance_keeps _ _).2,
    (highRelevance_keeps _ _).1, (highRelevance_keeps _ _).2]
  exact threshold_keeps policy result

/-! ### What the rules decide -/

theorem threshold_decision : (threshold policy result).recommendation.decision =
    .ofScore policy result.score := by
  unfold threshold Decision.ofScore
  cases policy.bandFor? result.score <;> rfl

/-- High relevance builds on what the score decides; if that is against it, the change is moderately
urgent. -/
theorem highRelevance_decision :
    (highRelevance policy (threshold policy result)).recommendation.decision =
      if result.classification.relevance = .high then
        ⟨true,
          smaller ((Decision.ofScore policy result.score).confidence + policy.relevanceBoost)
            policy.confidenceCap,
          (policy.bandFor? result.score).elim .medium (·.priority)⟩
      else .ofScore policy result.score := by
  unfold highRelevance
  rw [(threshold_keeps policy result).2]
  split
  case isTrue high =>
    unfold threshold Decision.ofScore
    cases policy.bandFor? result.score <;> rfl
  case isFalse other => exact threshold_decision policy result

theorem applyAll_decision : (applyAll policy result).recommendation.decision =
    .of policy result.score result.classification := by
  have before := highRelevance_decision policy result
  have kept := (highRelevance_keeps policy (threshold policy result)).2.trans
    (threshold_keeps policy result).2
  rw [applyAll_eq]
  generalize highRelevance policy (threshold policy result) = sofar at before kept
  rw [interfaces, overruled_decision, (formatting_keeps _ _).2, (noRelevance_keeps _ _).2,
    formatting, overruled_decision, (noRelevance_keeps _ _).2, noRelevance, overruled_decision,
    kept, before]
  rfl

theorem applyAll_regenerate : (applyAll policy result).recommendation.regenerate =
    (result.classification.touchesInterfacesOrSpace ||
      (!decide (result.classification.primary = .formatting) &&
        (!decide (result.classification.relevance = .none) &&
          (decide (result.classification.relevance = .high) ||
            (policy.bandFor? result.score).isSome)))) :=
  (congrArg Decision.regenerate (applyAll_decision policy result)).trans
    (Decision.of_regenerate policy result.score result.classification)

theorem applyAll_priority : (applyAll policy result).recommendation.priority =
    if result.classification.touchesInterfacesOrSpace then .high
    else if result.classification.primary = .formatting then .none
    else if result.classification.relevance = .none then .none
    else (policy.bandFor? result.score).elim
      (if result.classification.relevance = .high then .medium else .none) (·.priority) :=
  (congrArg Decision.priority (applyAll_decision policy result)).trans
    (Decision.of_priority policy result.score result.classification)

end Rules

/-! ### Reasons -/

/-- The rules by their names. -/
inductive Kind
  | threshold
  | highRelevance
  | noRelevance
  | formatting
  | interfaces
  deriving DecidableEq, Repr

namespace Kind

def all : List Kind := [.threshold, .highRelevance, .noRelevance, .formatting, .interfaces]

def rule : Kind → Rule
  | .threshold => Rule.threshold
  | .highRelevance => Rule.highRelevance
  | .noRelevance => Rule.noRelevance
  | .formatting => Rule.formatting
  | .interfaces => Rule.interfaces

/-- Whether a rule applies, which is a matter of the classification alone. -/
def applies (classification : Classification) : Kind → Bool
  | .threshold => true
  | .highRelevance => classification.relevance = .high
  | .noRelevance => classification.relevance = .none
  | .formatting => classification.primary = .formatting
  | .interfaces => classification.touchesInterfacesOrSpace

def reason (policy : Policy) (score : Nat) : Kind → String
  | .threshold =>
      match policy.bandFor? score with
      | some band =>
          "score " ++ toString score ++ " reaches the " ++ band.priority.label ++ " priority band"
      | none => "score " ++ toString score ++ " is below the regeneration threshold"
  | .highRelevance => "high documentation relevance forces regeneration"
  | .noRelevance => "change has no documentation relevance"
  | .formatting => "formatting-only change never needs new docs"
  | .interfaces => "interface or namespace change forces regeneration"

/-- The reasons of those of some rules that apply. -/
def reasons (policy : Policy) (score : Nat) (classification : Classification)
    (kinds : List Kind) : List String :=
  (kinds.filter (applies classification)).map (reason policy score)

end Kind

theorem all_eq : all = Kind.all.map Kind.rule := rfl

section Reasons

variable (policy : Policy) (result : Significance)

theorem Kind.rule_keeps (kind : Kind) : (kind.rule policy result).score = result.score ∧
    (kind.rule policy result).classification = result.classification := by
  cases kind with
  | threshold => exact threshold_keeps policy result
  | highRelevance => exact highRelevance_keeps policy result
  | noRelevance => exact noRelevance_keeps policy result
  | formatting => exact formatting_keeps policy result
  | interfaces => exact interfaces_keeps policy result

theorem Kind.rule_reasons (kind : Kind) : (kind.rule policy result).recommendation.reasons =
    result.recommendation.reasons ++ reasons policy result.score result.classification [kind] := by
  have single : reasons policy result.score result.classification [kind] =
      if kind.applies result.classification then [kind.reason policy result.score] else [] := by
    rw [reasons, List.filter_cons]
    split <;> rfl
  rw [single]
  cases kind with
  | threshold =>
      dsimp only [rule, applies, reason]
      unfold Rule.threshold
      cases policy.bandFor? result.score <;> rfl
  | highRelevance =>
      simp only [rule, applies, reason, decide_eq_true_eq]
      exact overruled_reasons ..
  | noRelevance =>
      simp only [rule, applies, reason, decide_eq_true_eq]
      exact overruled_reasons ..
  | formatting =>
      simp only [rule, applies, reason, decide_eq_true_eq]
      exact overruled_reasons ..
  | interfaces => exact overruled_reasons ..

theorem foldl_reasons (kinds : List Kind) (result : Significance) :
    ((kinds.map Kind.rule).foldl (fun sofar rule => rule policy sofar)
      result).recommendation.reasons =
      result.recommendation.reasons ++
        Kind.reasons policy result.score result.classification kinds := by
  induction kinds generalizing result with
  | nil => exact (List.append_nil _).symm
  | cons kind rest ih =>
      have joined (score : Nat) (classification : Classification) :
          Kind.reasons policy score classification (kind :: rest) =
            Kind.reasons policy score classification [kind] ++
              Kind.reasons policy score classification rest := by
        rw [Kind.reasons, Kind.reasons, Kind.reasons, ← List.map_append, ← List.filter_append,
          List.singleton_append]
      rw [List.map_cons, List.foldl_cons, ih, (kind.rule_keeps policy result).1,
        (kind.rule_keeps policy result).2, kind.rule_reasons, joined, List.append_assoc]

theorem applyAll_reasons : (applyAll policy result).recommendation.reasons =
    result.recommendation.reasons ++
      Kind.reasons policy result.score result.classification Kind.all := by
  rw [applyAll, all_eq]
  exact foldl_reasons policy Kind.all result

end Reasons

/-! ### What a reason can be -/

/-- A text that goes on from a start is none that starts with another letter. -/
theorem append_ne {start rest text : String} (some : start.toList ≠ [])
    (other : start.toList.head? ≠ text.toList.head?) : start ++ rest ≠ text := by
  rintro rfl
  obtain ⟨c, tail, chars⟩ := List.exists_cons_of_ne_nil some
  rw [String.toList_append, chars] at other
  exact other rfl

/-- The reasons that the rules give. -/
inductive Gives : String → Prop
  | threshold (rest : String) : Gives ("score " ++ rest)
  | highRelevance : Gives "high documentation relevance forces regeneration"
  | noRelevance : Gives "change has no documentation relevance"
  | formatting : Gives "formatting-only change never needs new docs"
  | interfaces : Gives "interface or namespace change forces regeneration"

/-- The reason of the rule that looks at the score names the score first. -/
theorem threshold_reason (policy : Policy) (score : Nat) :
    ∃ rest, Kind.reason policy score .threshold = "score " ++ rest := by
  dsimp only [Kind.reason]
  cases policy.bandFor? score with
  | some band =>
      refine ⟨toString score ++ (" reaches the " ++ (band.priority.label ++ " priority band")), ?_⟩
      simp only [String.append_assoc]
  | none =>
      refine ⟨toString score ++ " is below the regeneration threshold", ?_⟩
      simp only [String.append_assoc]

theorem Kind.gives (policy : Policy) (score : Nat) (kind : Kind) :
    Gives (kind.reason policy score) := by
  cases kind with
  | threshold =>
      obtain ⟨rest, text⟩ := threshold_reason policy score
      exact text ▸ .threshold rest
  | highRelevance => exact .highRelevance
  | noRelevance => exact .noRelevance
  | formatting => exact .formatting
  | interfaces => exact .interfaces

/-- A reason that is there in the end was there before the rules, or is one of theirs. -/
theorem applyAll_gives {policy : Policy} {result : Significance} {reason : String}
    (given : reason ∈ (applyAll policy result).recommendation.reasons) :
    reason ∈ result.recommendation.reasons ∨ Gives reason := by
  rw [applyAll_reasons, List.mem_append] at given
  refine given.imp_right fun ours => ?_
  obtain ⟨kind, _applies, rfl⟩ := List.mem_map.mp ours
  exact kind.gives policy result.score

end Rule

end DocDrift
