import DocDrift.Proofs.Json.FloatText
import DocDrift.Proofs.Tables
import DocDrift.Store.Row

/-!
A verdict that is kept is read again: its score, its recommendation and the reasons as they were,
its categories in their order without repetitions, and a finite confidence as a number, which need
not be the same one.
-/

set_option autoImplicit false

namespace DocDrift

open Json (Rereads FieldsReread)

/-! ### Words and texts -/

theorem Json.Rereads.texts {inner : Schema} {words : List String}
    (each : ∀ word ∈ words, Rereads inner (.text word) (.text word)) :
    Rereads (.list inner) (.ofTexts words) (.ofTexts words) := by
  refine .list (List.forall₂_same.mpr (fun item mem => ?_))
  obtain ⟨word, present, rfl⟩ := List.mem_map.mp mem
  exact each word present

theorem Json.each?_map {α : Type} {read : Json → Option α} {encode : α → Json} {values : List α}
    (each : ∀ value ∈ values, read (encode value) = some value) :
    each? read (.ofList encode values) = some values := by
  change (values.map encode).mapM read = some values
  rw [List.mapM_map]
  exact (mapM_eq_some_map each).trans (congrArg some (List.map_id' values))

theorem Level.label_mem (level : Level) : level.label ∈ all.map label :=
  List.mem_map.mpr ⟨level, by cases level <;> decide, rfl⟩

theorem PrimaryType.label_mem (primary : PrimaryType) : primary.label ∈ all.map label :=
  List.mem_map.mpr ⟨primary, by cases primary <;> decide, rfl⟩

theorem Category.label_mem (category : Category) : category.label ∈ all.map label :=
  List.mem_map.mpr ⟨category, by cases category <;> decide, rfl⟩

theorem Level.ofJson?_toJson (level : Level) : ofJson? level.toJson = some level := by
  cases level <;> decide

theorem PrimaryType.word?_label (primary : PrimaryType) :
    Json.word? all label (.text primary.label) = some primary := by
  cases primary <;> decide

theorem Category.word?_label (category : Category) :
    Json.word? all label (.text category.label) = some category := by
  cases category <;> decide

/-! ### Columns -/

namespace Classification

theorem rereads (classification : Classification) :
    Rereads schema classification.toJson classification.toJson := by
  refine .record "Classification" (by decide) ?_
  refine .cons (.choice (PrimaryType.label_mem _)) ?_
  refine .cons (.texts (fun word mem => ?_)) ?_
  · obtain ⟨category, _, rfl⟩ := List.mem_map.mp mem
    exact .choice (Category.label_mem category)
  refine .cons (.choice (Level.label_mem _)) ?_
  exact .cons (.choice (Level.label_mem _)) .nil

theorem ofJson?_toJson (classification : Classification) :
    ofJson? classification.toJson =
      some { classification with categories := Category.normalized classification.categories } := by
  have categories : Json.each? (Json.word? Category.all Category.label)
      (.ofTexts (classification.categories.map Category.label)) = some classification.categories := by
    rw [Json.ofTexts, Json.ofList, List.map_map]
    exact Json.each?_map (fun category _ => Category.word?_label category)
  simp [ofJson?, toJson, Json.at?, Json.field?, PrimaryType.word?_label, categories,
    Level.ofJson?_toJson]

end Classification

namespace Recommendation

/-- A recommendation is read again as its confidence is. -/
theorem rereads_of {recommendation : Recommendation} {confidence : Float}
    (number : Rereads .real (.real recommendation.confidence) (.real confidence)) :
    Rereads schema recommendation.toJson
      { recommendation with confidence := confidence }.toJson := by
  refine .record "Recommendation" (by decide) ?_
  refine .cons (.boolean recommendation.regenerate) ?_
  refine .cons number ?_
  refine .cons (.choice (Level.label_mem _)) ?_
  exact .cons (.texts (fun word _ => .text word)) .nil

theorem ofJson?_toJson (recommendation : Recommendation) :
    ofJson? recommendation.toJson = some recommendation := by
  have reasons : Json.each? Json.text? (.ofTexts recommendation.reasons) =
      some recommendation.reasons :=
    Json.each?_map (fun _ _ => rfl)
  simp [ofJson?, toJson, Json.at?, Json.field?, Json.bool?, Json.real?, reasons,
    Level.ofJson?_toJson]

end Recommendation

/-! ### Rows -/

namespace Store.Verdict

theorem column?_of_rereads {α : Type} {schema : Schema} {written other : Json}
    (rereads : Rereads schema written other) (read : Json → Option α) :
    column? schema read written.compact = read other := by
  rw [column?, rereads.ofText]

/-- A verdict whose score is within bounds is read again as its confidence is. -/
theorem ofRow?_toRow_of {verdict : Verdict} {confidence : Float}
    (score : verdict.score ≤ 4294967295)
    (number : Rereads .real (.real verdict.recommendation.confidence) (.real confidence)) :
    ofRow? verdict.toRow = some { verdict with
      classification := { verdict.classification with
        categories := Category.normalized verdict.classification.categories }
      recommendation := { verdict.recommendation with confidence } } := by
  have bounds : 0 ≤ (verdict.score : Int) ∧ (verdict.score : Int) ≤ 4294967295 := by omega
  simp only [ofRow?, toRow, Option.bind_eq_bind, Option.bind_some]
  rw [if_pos bounds, column?_of_rereads verdict.classification.rereads,
    Classification.ofJson?_toJson, column?_of_rereads (Recommendation.rereads_of number),
    Recommendation.ofJson?_toJson]
  rfl

/-- A verdict whose score and confidence are numbers within bounds is read again. -/
theorem ofRow?_toRow {verdict : Verdict} (score : verdict.score ≤ 4294967295)
    (finite : verdict.recommendation.confidence.isFinite = true) :
    ∃ confidence, ofRow? verdict.toRow = some { verdict with
      classification := { verdict.classification with
        categories := Category.normalized verdict.classification.categories }
      recommendation := { verdict.recommendation with confidence } } := by
  obtain ⟨confidence, number⟩ := Rereads.real finite
  exact ⟨confidence, ofRow?_toRow_of score number⟩

end Store.Verdict

end DocDrift
