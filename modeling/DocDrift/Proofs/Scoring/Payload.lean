import DocDrift.Proofs.Change.Payload
import DocDrift.Scoring.Encoding

/-!
The scoring of a change that is described by JSON text. The text that is written for a change
describes that change, so it is scored as the change is; any other text is scored as the change it
describes, or, where it describes none that can be, it is not scored at all.
-/

set_option autoImplicit false

namespace DocDrift.Significance

open Json (Faithful)

def Describes (text : String) (change : TextChange) (delta : Delta) : Prop :=
  ∃ json, Json.ofText payloadSchema text = .ok json ∧ ofPayload? json = some (change, delta)

/-- The outcome where a change is not scored: no points, no findings, no recommendation and one
reason. -/
structure CannotScore (result : Significance) : Prop where
  score : result.score = 0
  classification : result.classification = .start
  regenerate : result.recommendation.regenerate = false
  confidence : result.recommendation.confidence = 0.0
  priority : result.recommendation.priority = .none
  reason : ∃ fault : InputFault,
    result.recommendation.reasons = ["cannot score: " ++ fault.report]

theorem cannotScore_unscored (fault : InputFault) : CannotScore (unscored fault) :=
  ⟨rfl, rfl, rfl, rfl, rfl, fault, rfl⟩

/-! ### Descriptions -/

theorem payloadSchema_exact : payloadSchema.exact = true := by decide

theorem payload_faithful :
    Faithful payloadSchema (fun described => payload described.1 described.2) ofPayload?
      (fun described => described.1.Bounded ∧ described.2.Sorted) where
  holds := by
    rintro ⟨change, delta⟩ ⟨bounded, sorted⟩
    refine ⟨_, ?_, rfl⟩
    exact TextChange.faithful.fieldsHold bounded (Delta.faithful.fieldsHold sorted rfl)
  only := by
    rintro json ⟨_, each, rfl⟩
    obtain ⟨change, _, rfl, bounded, each⟩ := TextChange.faithful.field each
    obtain ⟨delta, _, rfl, sorted, each⟩ := Delta.faithful.field each
    obtain rfl := each
    exact ⟨(change, delta), ⟨bounded, sorted⟩, rfl⟩
  decodes described := by
    simp [ofPayload?, payload, Json.at?, Json.field?, TextChange.faithful.decodes,
      Delta.faithful.decodes]

theorem describes_payload {change : TextChange} {delta : Delta} (bounded : change.Bounded)
    (sorted : delta.Sorted) : Describes (payload change delta).compact change delta := by
  have fits : (change, delta).1.Bounded ∧ (change, delta).2.Sorted := ⟨bounded, sorted⟩
  have held := payload_faithful.holds fits
  have read := Schema.ofText_compact payloadSchema_exact held
  exact ⟨_, read, payload_faithful.decodes (change, delta)⟩

/-- A text that has the form of a description describes a change whose counts are kept exactly and
whose parts are in order. -/
theorem describes_of_ofText {text : String} {json : Json}
    (held : Json.ofText payloadSchema text = .ok json) :
    ∃ change delta, (change.Bounded ∧ delta.Sorted) ∧ Describes text change delta ∧
      json = payload change delta := by
  have holds := Schema.holds_of_ofText payloadSchema_exact held
  obtain ⟨⟨change, delta⟩, fit, rfl⟩ := payload_faithful.only holds
  exact ⟨change, delta, fit, ⟨_, held, payload_faithful.decodes (change, delta)⟩, rfl⟩

/-! ### Scoring -/

theorem ofPayloadText_of_describes (policy : Policy) {text : String} {change : TextChange}
    {delta : Delta} (describes : Describes text change delta) :
    ofPayloadText policy text = ofValid policy change delta .empty := by
  obtain ⟨json, held, decoded⟩ := describes
  rw [ofPayloadText, held]
  dsimp only
  rw [decoded]

theorem ofValid_of_valid (policy : Policy) {change : TextChange} {delta : Delta}
    (context : SymbolContext) (valid : change.validate = .ok () ∧ delta.validate = .ok ()) :
    ofValid policy change delta context = of policy change delta context := by
  rw [ofValid, valid.1, valid.2]

theorem ofValid_of_invalid (policy : Policy) {change : TextChange} {delta : Delta}
    (context : SymbolContext) (invalid : ¬(change.validate = .ok () ∧ delta.validate = .ok ())) :
    CannotScore (ofValid policy change delta context) := by
  unfold ofValid
  split
  case h_1 | h_2 => exact cannotScore_unscored _
  case h_3 validChange validDelta => exact absurd ⟨validChange, validDelta⟩ invalid

/-- The text that is written for a change is scored as the change; every text is scored as the valid
change that it describes, or it describes none and cannot be scored. -/
theorem payload_scored (policy : Policy) :
    (∀ (change : TextChange) (delta : Delta), change.Bounded → delta.Sorted →
      Describes (payload change delta).compact change delta ∧
        ofPayloadText policy (payload change delta).compact = ofValid policy change delta .empty) ∧
    ∀ text : String,
      (∃ change delta, Describes text change delta ∧
        (change.validate = .ok () ∧ delta.validate = .ok ()) ∧
        ofPayloadText policy text = of policy change delta .empty) ∨
      ((∀ change delta, Describes text change delta →
          ¬(change.validate = .ok () ∧ delta.validate = .ok ())) ∧
        CannotScore (ofPayloadText policy text)) := by
  constructor
  · intro change delta bounded sorted
    have describes := describes_payload bounded sorted
    exact ⟨describes, ofPayloadText_of_describes policy describes⟩
  · intro text
    by_cases valid : ∃ change delta, Describes text change delta ∧
        (change.validate = .ok () ∧ delta.validate = .ok ())
    · obtain ⟨change, delta, describes, valid⟩ := valid
      refine .inl ⟨change, delta, describes, valid, ?_⟩
      rw [ofPayloadText_of_describes policy describes, ofValid_of_valid policy .empty valid]
    · refine .inr ⟨fun change delta describes each => valid ⟨change, delta, describes, each⟩, ?_⟩
      cases held : Json.ofText payloadSchema text with
      | error error =>
          rw [ofPayloadText, held]
          exact cannotScore_unscored _
      | ok json =>
          obtain ⟨change, delta, _fit, describes, _same⟩ := describes_of_ofText held
          rw [ofPayloadText_of_describes policy describes]
          refine ofValid_of_invalid policy .empty (fun each => ?_)
          exact valid ⟨change, delta, describes, each⟩

/-- A change of as many lines as can be counted. -/
def fullChange : TextChange :=
  ⟨false, false, true, true, ⟨18446744073709551615, 3, 0, 7⟩⟩

/-- A change whose names have marks and characters of many scripts in them. -/
def markedDelta : Delta :=
  { spaceChanged := true
    types := ⟨["Straße\n", "a \"b\""], ["\\"], [
      ("Корзина", {
        kind := .ofTrait
        parent := some ⟨none, some "Base/\t"⟩
        interfaces := ⟨["null"], []⟩
        modifiers := some ⟨⟨true, false⟩, ⟨false, true⟩⟩
        methods := ⟨[], ["λ"], [
          ("add", ⟨some ⟨"(int $n)", "(?int $n = null)"⟩, none⟩),
          ("総計", ⟨none, some ⟨.isPublic, .isPrivate⟩⟩)]⟩
        properties := .empty }),
      ("🦀", ⟨.ofClass, none, ⟨[], []⟩, none, .empty, ⟨["x"], [], []⟩⟩)]⟩
    interfaces := .empty
    functions := ⟨[], [], [("", ⟨none, none⟩)]⟩
    imports := ⟨["A"], [], [("B", ⟨some "C", none⟩)]⟩
    severity := .major }

theorem payload_scored_of_marks :
    fullChange.Bounded ∧ markedDelta.Sorted ∧
      ofPayloadText .standard (payload fullChange markedDelta).compact =
        ofValid .standard fullChange markedDelta .empty ∧
      (ofPayloadText .standard (payload fullChange markedDelta).compact).score = 100 := by
  have bounded : fullChange.Bounded := by decide
  have sorted : markedDelta.Sorted := by decide
  have scored := ((payload_scored .standard).1 fullChange markedDelta bounded sorted).2
  refine ⟨bounded, sorted, scored, ?_⟩
  rw [scored]
  decide +kernel

end DocDrift.Significance
