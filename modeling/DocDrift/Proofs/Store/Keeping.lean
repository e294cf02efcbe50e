import DocDrift.Proofs.Json.Unread
import DocDrift.Proofs.Store.Rereading
import DocDrift.Proofs.Store.Writes

/-!
Verdicts that are kept. The verdict on a change is returned as it was given just when its confidence
is read again from its text as the same number. With a finite confidence it is returned in any case,
if need be with another number in its place; a row with a confidence that is not finite cannot be
read. A second verdict on a change takes the place of the first, and nothing else is touched.
-/

set_option autoImplicit false

namespace DocDrift

/-! ### Tables -/

namespace Keyed

variable {κ α : Type} [DecidableEq κ]

theorem put_put (table : Keyed κ α) (key : κ) (first second : α) :
    put key second (put key first table) = put key second table := by
  induction table with
  | nil => simp [put]
  | cons row rest ih =>
      by_cases same : row.1 = key
      · simp [put, same]
      · simp [put, same, ih]

theorem length_put_of_find? (table : Keyed κ α) {key : κ} {kept : α} (value : α)
    (found : table.find? key = some kept) : (put key value table).length = table.length := by
  induction table with
  | nil => cases found
  | cons row rest ih =>
      rw [find?_cons] at found
      rw [put]
      split
      case isTrue same => rfl
      case isFalse different =>
        rw [if_neg different] at found
        rw [List.length_cons, List.length_cons, ih found]

end Keyed

/-! ### Rows -/

/-- A recommendation whose confidence is not finite is not read again: its second field is refused. -/
theorem Recommendation.unread {recommendation : Recommendation}
    (infinite : recommendation.confidence.isFinite = false) :
    ∃ error, Json.ofText schema recommendation.toJson.compact = .error error := by
  refine Json.ofText_of_fails ?_
  refine Json.Read.fails_secondField "Recommendation" (by decide) (.boolean _) fun rest => ?_
  rw [Json.real_compact_of_not_isFinite infinite, Json.Read.value]
  exact Json.Read.floating_fails _

namespace Store

namespace Verdict

def withConfidence (verdict : Verdict) (confidence : Float) : Verdict :=
  { verdict with recommendation := { verdict.recommendation with confidence } }

/-- The score is a number of 32 bits, and the categories are a set. -/
structure Sound (verdict : Verdict) : Prop where
  score : verdict.score ≤ 4294967295
  categories : Category.normalized verdict.classification.categories =
    verdict.classification.categories

section Rows

variable {verdict : Verdict}

theorem Sound.ofRow?_toRow_of (sound : verdict.Sound) {confidence : Float}
    (number : Json.Rereads .real (.real verdict.recommendation.confidence) (.real confidence)) :
    ofRow? verdict.toRow = some (verdict.withConfidence confidence) := by
  rw [Verdict.ofRow?_toRow_of sound.score number, sound.categories]
  rfl

theorem ofRow?_toRow_of_not_isFinite
    (infinite : verdict.recommendation.confidence.isFinite = false) :
    ofRow? verdict.toRow = none := by
  obtain ⟨error, failed⟩ := Recommendation.unread infinite
  have unread : column? Recommendation.schema Recommendation.ofJson?
      verdict.recommendation.toJson.compact = none := by
    rw [column?, failed]
  simp only [ofRow?, toRow, unread, Option.bind_eq_bind, Option.bind_none, Option.bind_fun_none,
    ite_self]

theorem withConfidence_eq_self (confidence : Float) :
    verdict.withConfidence confidence = verdict ↔
      confidence = verdict.recommendation.confidence := by
  constructor
  · intro same
    exact congrArg (fun verdict => verdict.recommendation.confidence) same
  · rintro rfl
    rfl

/-- A verdict is read again as it was just when its confidence survives. -/
theorem Sound.ofRow?_toRow_iff (sound : verdict.Sound) :
    ofRow? verdict.toRow = some verdict ↔ Json.Survives verdict.recommendation.confidence := by
  cases finite : verdict.recommendation.confidence.isFinite with
  | true =>
      obtain ⟨confidence, number, survives⟩ := Json.rereads_real_iff finite
      rw [sound.ofRow?_toRow_of number, survives, Option.some.injEq, withConfidence_eq_self]
  | false =>
      rw [ofRow?_toRow_of_not_isFinite finite]
      refine iff_of_false (by simp) fun survives => ?_
      rw [survives.isFinite] at finite
      cases finite

end Rows

end Verdict

/-! ### Stores -/

section Stores

variable {now : String} {store next : Store} {pair : Pair} {verdict : Verdict}

theorem verdict?_eq_self (sound : verdict.Sound)
    (done : store.write now (.scored pair verdict) = .ok next) :
    next.verdict? pair = .ok (some verdict) ↔
      Json.Survives verdict.recommendation.confidence := by
  rw [← sound.ofRow?_toRow_iff, verdict?_of_scored done]
  cases Verdict.ofRow? verdict.toRow <;> simp

theorem verdict?_of_isFinite (sound : verdict.Sound)
    (finite : verdict.recommendation.confidence.isFinite = true)
    (done : store.write now (.scored pair verdict) = .ok next) :
    ∃ confidence, next.verdict? pair = .ok (some (verdict.withConfidence confidence)) := by
  obtain ⟨confidence, number⟩ := Json.Rereads.real finite
  refine ⟨confidence, ?_⟩
  rw [verdict?_of_scored done, sound.ofRow?_toRow_of number]

theorem verdict?_of_not_isFinite
    (infinite : verdict.recommendation.confidence.isFinite = false)
    (done : store.write now (.scored pair verdict) = .ok next) :
    next.verdict? pair = .error .store := by
  rw [verdict?_of_scored done, Verdict.ofRow?_toRow_of_not_isFinite infinite]

/-- A second verdict on a change leaves nothing of the first and adds no row. -/
theorem scored_again (done : store.write now (.scored pair verdict) = .ok next) (later : String)
    (again : Verdict) :
    next.write later (.scored pair again) = store.write later (.scored pair again) ∧
      ∀ last, next.write later (.scored pair again) = .ok last →
        last.analyses.map List.length = next.analyses.map List.length := by
  obtain ⟨analyses, held, rfl⟩ := write_scored.mp done
  constructor
  · simp [write, found, held, Keyed.put_put, bind, Except.bind]
  · intro last finished
    obtain ⟨kept, same, rfl⟩ := write_scored.mp finished
    cases same
    have present := Keyed.find?_put_self analyses pair verdict.toRow
    simp [Keyed.length_put_of_find? _ _ present]

/-- What is kept of a verdict. It is returned as it was given just when its confidence survives as
text, and with another confidence in its place as long as that is finite; otherwise the row cannot be
read. The verdicts on other changes stay as they are, and a second verdict on the change has the same
effect as if there had been no first one, and adds no row. -/
theorem verdict_returned_iff (whole : store.analyses.isSome) (sound : verdict.Sound) (now : String)
    (pair : Pair) :
    ∃ next, store.write now (.scored pair verdict) = .ok next ∧
      (next.verdict? pair = .ok (some verdict) ↔
        Json.Survives verdict.recommendation.confidence) ∧
      (verdict.recommendation.confidence.isFinite = true →
        ∃ confidence, next.verdict? pair = .ok (some (verdict.withConfidence confidence))) ∧
      (verdict.recommendation.confidence.isFinite = false →
        next.verdict? pair = .error .store) ∧
      (∀ other, other ≠ pair → next.verdict? other = store.verdict? other) ∧
      ∀ later again,
        next.write later (.scored pair again) = store.write later (.scored pair again) ∧
          ∀ last, next.write later (.scored pair again) = .ok last →
            last.analyses.map List.length = next.analyses.map List.length := by
  obtain ⟨analyses, held⟩ := Option.isSome_iff_exists.mp whole
  obtain ⟨next, done⟩ : ∃ next, store.write now (.scored pair verdict) = .ok next :=
    ⟨_, write_scored.mpr ⟨analyses, held, rfl⟩⟩
  refine ⟨next, done, verdict?_eq_self sound done, ?_, ?_, ?_, ?_⟩
  · intro finite
    exact verdict?_of_isFinite sound finite done
  · intro infinite
    exact verdict?_of_not_isFinite infinite done
  · intro other different
    exact verdict?_scored_of_ne different done
  · intro later again
    exact scored_again done later again

end Stores

/-- A verdict with a reason that is written with escapes. -/
def fairVerdict : Verdict :=
  { score := 40
    classification := ⟨.functional, [.functions, .imports], .medium, .high⟩
    recommendation := ⟨true, 0.75, .medium, ["touches \"Ä\"\n"]⟩
    time := "monday" }

theorem verdict_returned_iff_of_fair :
    ∃ next, Store.empty.write "tuesday" (.scored ⟨"a.php", "old", "new"⟩ fairVerdict) = .ok next ∧
      next.verdict? ⟨"a.php", "old", "new"⟩ = .ok (some fairVerdict) := by
  have whole : Store.empty.analyses.isSome := rfl
  have sound : fairVerdict.Sound := ⟨by decide, by decide⟩
  have survives : Json.Survives fairVerdict.recommendation.confidence := rfl
  obtain ⟨next, done, returned, _others⟩ :=
    verdict_returned_iff whole sound "tuesday" ⟨"a.php", "old", "new"⟩
  exact ⟨next, done, returned.mpr survives⟩

/-- A policy of finite numbers, two of which have a sum that is not. -/
def sinkingPolicy : Policy :=
  { Policy.standard with
    relevanceBoost := -1.7e308
    scoreBands := [⟨0, -1.7e308, .low⟩] }

/-- The verdict of that policy on a change of high relevance. -/
def sunkenVerdict : Verdict :=
  let classification : Classification := ⟨.functional, [.functions], .medium, .high⟩
  let result := Rule.applyAll sinkingPolicy ⟨40, classification, .undecided []⟩
  ⟨result.score, result.classification, result.recommendation, "monday"⟩

/-- A verdict that was kept cannot be read again. -/
theorem unreadable_verdict_of_sinking :
    (∀ field ∈ sinkingPolicy.confidenceFields, field.2.isFinite = true) ∧
      (∀ band ∈ sinkingPolicy.scoreBands, band.confidence.isFinite = true) ∧
      sunkenVerdict.Sound ∧
      ∃ next, Store.empty.write "tuesday" (.scored ⟨"a.php", "old", "new"⟩ sunkenVerdict) =
          .ok next ∧
        next.verdict? ⟨"a.php", "old", "new"⟩ = .error .store := by
  have infinite : sunkenVerdict.recommendation.confidence.isFinite = false := by decide +kernel
  have sound : sunkenVerdict.Sound := ⟨by decide +kernel, by decide +kernel⟩
  obtain ⟨next, done⟩ : ∃ next, Store.empty.write "tuesday"
      (.scored ⟨"a.php", "old", "new"⟩ sunkenVerdict) = .ok next := ⟨_, rfl⟩
  refine ⟨by decide +kernel, by decide +kernel, sound, next, done, ?_⟩
  exact verdict?_of_not_isFinite infinite done

end Store

end DocDrift
