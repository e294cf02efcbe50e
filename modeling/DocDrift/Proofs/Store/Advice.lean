import DocDrift.Proofs.Json.Reading
import DocDrift.Store.Row

/-!
The advice of a verdict that is kept. Its row may fail to be read, if a confidence was no number;
but when it is read, it advises what the verdict did.
-/

set_option autoImplicit false

namespace DocDrift

open Json.Read

namespace Recommendation

theorem compact_toList (recommendation : Recommendation) :
    ∃ rest, recommendation.toJson.compact.toList =
      '{' :: (('"' :: "should_regenerate".toList ++ ['"']) ++ (':' ::
        ((if recommendation.regenerate then "true" else "false").toList ++ rest))) := by
  have opened : "\x7b".toList = ['{'] := by decide
  have quotes : (Json.quoted "should_regenerate").toList =
      '"' :: "should_regenerate".toList ++ ['"'] := by decide
  have colon : ":".toList = [':'] := by decide
  rw [toJson, Json.compact, Json.compactFields, Json.compactFields, String.intercalate_cons_cons,
    Json.compact]
  simp only [String.toList_append, opened, quotes, colon]
  simp only [List.append_assoc, List.cons_append, List.nil_append]
  exact ⟨_, rfl⟩

/-- What is read of a recommendation that was written advises what the recommendation does. -/
theorem field?_of_ofText {recommendation : Recommendation} {json : Json}
    (read : Json.ofText schema recommendation.toJson.compact = .ok json) :
    json.field? "should_regenerate" = some (.bool recommendation.regenerate) := by
  obtain ⟨rest, text⟩ := recommendation.compact_toList
  generalize recommendation.toJson.compact = written at read text
  unfold Json.ofText at read
  cases ran : (Json.Read.document schema).run (Json.Cursor.start written) with
  | error error =>
      rw [ran] at read
      cases read
  | ok result =>
      obtain ⟨value, after⟩ := result
      rw [ran] at read
      cases read
      obtain ⟨value, valued, readValue, ended⟩ := bind_ok ran
      obtain ⟨part, _, _, finished⟩ := bind_ok ended
      cases part with
      | some c => cases finished
      | none =>
          cases finished
          have plain : ∀ c ∈ "should_regenerate".toList, Plain c := by
            simp [Plain]
          have named : String.ofList "should_regenerate".toList = "should_regenerate" :=
            String.ofList_toList
          rw [schema, Json.Read.value, Schema.required, fieldReaders, Json.Read.value] at readValue
          have first := record_first plain (List.find?_cons_of_pos (beq_iff_eq.mpr named.symm))
            (yields_boolean _ rest) text readValue
          rw [named] at first
          exact first

end Recommendation

namespace Store.Verdict

/-- A row that keeps a verdict keeps its advice. -/
theorem advice_of_ofRow? {verdict reread : Verdict} (read : ofRow? verdict.toRow = some reread) :
    reread.recommendation.regenerate = verdict.recommendation.regenerate := by
  unfold ofRow? toRow at read
  simp only [Option.bind_eq_bind, Option.bind_some] at read
  split at read
  case isFalse => cases read
  case isTrue =>
    obtain ⟨classification, _readClassification, read⟩ := Option.bind_eq_some_iff.mp read
    obtain ⟨recommendation, readRecommendation, read⟩ := Option.bind_eq_some_iff.mp read
    cases read
    unfold column? at readRecommendation
    split at readRecommendation
    case h_2 => cases readRecommendation
    case h_1 json parsed =>
      have advice := Recommendation.field?_of_ofText parsed
      unfold Recommendation.ofJson? at readRecommendation
      obtain ⟨regenerate, readRegenerate, rest⟩ := Option.bind_eq_some_iff.mp readRecommendation
      obtain ⟨confidence, _, rest⟩ := Option.bind_eq_some_iff.mp rest
      obtain ⟨priority, _, rest⟩ := Option.bind_eq_some_iff.mp rest
      obtain ⟨reasons, _, rest⟩ := Option.bind_eq_some_iff.mp rest
      cases rest
      rw [Json.at?, advice] at readRegenerate
      exact (Option.some.inj readRegenerate).symm

end Store.Verdict

end DocDrift
