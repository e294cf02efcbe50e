import DocDrift.Config
import DocDrift.Proofs.Json.Checking
import DocDrift.Proofs.Store.Rereading
import DocDrift.Proofs.Toml.Documents
import DocDrift.Proofs.Toml.Trees

/-!
The document that a configuration is saved as, and what it describes: the configuration itself, but for
the order in which the lists of bands are mentioned. A list without bands is a value of the table of
scoring, and a list with bands is a list of tables behind it.
-/

set_option autoImplicit false

namespace DocDrift

open Toml (Sets leaves elementsEntry besideTable)
open Schema (FieldsKeep)

/-! ### Numbers -/

def Policy.floats (policy : Policy) : List Float :=
  policy.confidenceFields.map Prod.snd ++ policy.scoreBands.map (·.confidence)

/-- A configuration whose numbers a file can hold: no time and no number of hunks beyond sixty-four
bits with a sign, scores as they are counted, and no floating-point number that is undefined. -/
structure Config.Fits (config : Config) : Prop where
  seconds : config.pollSeconds ≤ 9223372036854775807
  hunks : ∀ band ∈ config.scoring.hunkBands, band.above ≤ 9223372036854775807
  scores : ∀ band ∈ config.scoring.scoreBands, band.least ≤ 4294967295
  numbers : ∀ x ∈ config.scoring.floats, x.isNaN = false

/-! ### What is set in a table -/

theorem itemsToJson?_texts (items : List String) :
    Toml.itemsToJson? (items.map .text) = some (items.map .text) := by
  induction items with
  | nil => rfl
  | cons item items ih => simp [Toml.itemsToJson?, Toml.Value.toJson?, ih]

theorem Config.texts_toJson? (items : List String) :
    (Config.texts items).toJson? = some (.ofTexts items) := by
  rw [Config.texts, Toml.Value.toJson?, itemsToJson?_texts]
  rfl

def HunkBand.fields (band : HunkBand) : List (String × Json) :=
  [("above", .ofNat band.above), ("points", .whole band.points)]

def ScoreBand.fields (band : ScoreBand) : List (String × Json) :=
  [("min_score", .ofNat band.least), ("confidence", .real band.confidence),
    ("priority", band.priority.toJson)]

def emptyEntry {α : Type} (key : String) (items : List α) : List (String × Json) :=
  if items.isEmpty then [(key, .list [])] else []

theorem sets_emptyTables {α : Type} (key : String) (items : List α) :
    Sets (Config.emptyTables key items) (emptyEntry key items) := by
  unfold Config.emptyTables emptyEntry
  split
  · exact .entry rfl .none
  · exact .none

def Policy.scalars (policy : Policy) : List (String × Json) :=
  policy.pointFields.map (fun field => (field.1, .whole field.2)) ++
    policy.confidenceFields.map (fun field => (field.1, .real field.2))

def Policy.values (policy : Policy) : List (String × Json) :=
  policy.scalars ++ emptyEntry "hunk_bands" policy.hunkBands ++
    emptyEntry "score_bands" policy.scoreBands

theorem Policy.sets_values (policy : Policy) :
    Sets (policy.pointFields.map (fun field => .entry [field.1] (.integer field.2)) ++
      policy.confidenceFields.map (fun field => .entry [field.1] (.float field.2)) ++
      Config.emptyTables "hunk_bands" policy.hunkBands ++
      Config.emptyTables "score_bands" policy.scoreBands) policy.values := by
  have points : Sets (policy.pointFields.map fun field => .entry [field.1] (.integer field.2))
      (policy.pointFields.map fun field => (field.1, .whole field.2)) :=
    Sets.map fun field _ => rfl
  have confidences :
      Sets (policy.confidenceFields.map fun field => .entry [field.1] (.float field.2))
        (policy.confidenceFields.map fun field => (field.1, .real field.2)) :=
    Sets.map fun field _ => rfl
  have empties := sets_emptyTables "hunk_bands" policy.hunkBands
  exact ((points.append confidences).append empties).append
    (sets_emptyTables "score_bands" policy.scoreBands)

/-- The names of the values in the table of scoring. -/
def Policy.names : List String :=
  Policy.standard.pointFields.map Prod.fst ++ Policy.standard.confidenceFields.map Prod.fst

theorem Policy.names_scalars (policy : Policy) : policy.scalars.map Prod.fst = Policy.names := rfl

theorem Policy.names_distinct :
    (Policy.names ++ ["hunk_bands", "score_bands"]).Nodup := by
  decide

theorem Policy.values_distinct (policy : Policy) : (policy.values.map Prod.fst).Nodup := by
  have all := Policy.names_distinct
  rw [Policy.values, List.map_append, List.map_append, policy.names_scalars]
  refine all.sublist ?_
  rw [List.append_assoc]
  apply List.Sublist.append_left
  unfold emptyEntry
  split <;> split <;> simp

/-! ### What the document describes -/

/-- The entry of a list of tables that is not empty. -/
def tablesEntry {α : Type} (key : String) (encode : α → Json) (items : List α) :
    List (String × Json) :=
  if items.isEmpty then [] else [(key, .ofList encode items)]

theorem entriesToJson_tables {α : Type} (key : String) (fields : α → List (String × Json))
    (items : List α) :
    Toml.entriesToJson (elementsEntry key (items.map fields)) =
      tablesEntry key (fun item => .object (fields item)) items := by
  rw [Toml.entriesToJson_elementsEntry, List.map_map, List.isEmpty_map]
  rfl

/-- The values and lists in the table of scoring, in the order in which they are mentioned. -/
def Policy.described (policy : Policy) : List (String × Json) :=
  policy.values ++ tablesEntry "hunk_bands" HunkBand.toJson policy.hunkBands ++
    tablesEntry "score_bands" ScoreBand.toJson policy.scoreBands

/-- Each list of bands is mentioned once, as a value or as tables. -/
theorem Policy.described_perm (policy : Policy) :
    policy.described.Perm (policy.scalars ++ [
      ("hunk_bands", .ofList HunkBand.toJson policy.hunkBands),
      ("score_bands", .ofList ScoreBand.toJson policy.scoreBands)]) := by
  unfold Policy.described Policy.values
  simp only [List.append_assoc]
  apply List.Perm.append_left
  unfold emptyEntry tablesEntry
  cases policy.hunkBands with
  | nil =>
      cases policy.scoreBands with
      | nil => exact List.Perm.refl _
      | cons band bands => exact List.Perm.refl _
  | cons band bands =>
      cases policy.scoreBands with
      | nil => exact List.Perm.swap _ _ []
      | cons other others => exact List.Perm.refl _

theorem not_mem_values {key : String} {policy : Policy}
    (fresh : key ∉ Policy.names) (hunks : key = "hunk_bands" → policy.hunkBands ≠ [])
    (scores : key = "score_bands" → policy.scoreBands ≠ []) :
    key ∉ policy.values.map Prod.fst := by
  rw [Policy.values, List.map_append, List.map_append, policy.names_scalars]
  unfold emptyEntry
  intro mem
  simp only [List.mem_append] at mem
  obtain (named | hunk) | score := mem
  · exact fresh named
  · split at hunk
    case isTrue none =>
      exact hunks (by simpa using hunk) (List.isEmpty_iff.mp none)
    case isFalse => cases hunk
  · split at score
    case isTrue none =>
      exact scores (by simpa using score) (List.isEmpty_iff.mp none)
    case isFalse => cases score

theorem sets_hunkBand (band : HunkBand) : Sets (Config.hunkBandTable band).tail band.fields :=
  .entry rfl (.entry rfl .none)

theorem sets_scoreBand (band : ScoreBand) : Sets (Config.scoreBandTable band).tail band.fields :=
  .entry rfl (.entry rfl (.entry rfl .none))

def Policy.tree (policy : Policy) : Toml.Entries :=
  leaves policy.values ++ elementsEntry "hunk_bands" (policy.hunkBands.map (·.fields)) ++
    elementsEntry "score_bands" (policy.scoreBands.map (·.fields))

theorem Policy.entriesToJson_tree (policy : Policy) :
    Toml.entriesToJson policy.tree = policy.described := by
  rw [Policy.tree, Toml.entriesToJson_append, Toml.entriesToJson_append,
    Toml.entriesToJson_leaves, entriesToJson_tables, entriesToJson_tables]
  rfl

theorem Policy.noHunks (policy : Policy) (some : policy.hunkBands ≠ []) :
    "hunk_bands" ∉ (leaves policy.values).keys := by
  rw [Toml.keys_leaves]
  exact not_mem_values (by decide) (fun _ => some) (fun same => absurd same (by decide))

theorem Policy.noScores (policy : Policy) (some : policy.scoreBands ≠ []) :
    "score_bands" ∉ (leaves policy.values ++
      elementsEntry "hunk_bands" (policy.hunkBands.map (·.fields))).keys := by
  rw [Toml.Entries.keys, List.map_append, List.mem_append, not_or]
  constructor
  · have fresh : "score_bands" ∉ policy.values.map Prod.fst :=
      not_mem_values (by decide) (fun same => absurd same (by decide)) (fun _ => some)
    rwa [← Toml.keys_leaves] at fresh
  · unfold elementsEntry
    split <;> simp

/-- The table of scoring is described with its values and bands. -/
theorem follow_scoringTable (policy : Policy) {entries : Toml.Entries}
    (fresh : "scoring" ∉ entries.keys) (opened : Toml.KeyPath) :
    Toml.Document.follow opened entries (Config.scoringTable policy) =
      some (besideTable entries "scoring" policy.tree) := by
  have reaches := Toml.Reaches.table fresh
  have values := Toml.follow_table policy.sets_values policy.values_distinct fresh opened
    (policy.hunkBands.flatMap Config.hunkBandTable ++
      (policy.scoreBands.flatMap Config.scoreBandTable ++ []))
  obtain ⟨last, hunks⟩ := Toml.follow_elements reaches policy.noHunks
    (fun band _ => sets_hunkBand band) (fun band _ => by simp [HunkBand.fields]) ["scoring"]
    (policy.scoreBands.flatMap Config.scoreBandTable ++ [])
  obtain ⟨behind, scores⟩ := Toml.follow_elements reaches policy.noScores
    (fun band _ => sets_scoreBand band) (fun band _ => by simp [ScoreBand.fields]) last []
  have whole := values.trans (hunks.trans (scores.trans rfl))
  rw [Config.scoringTable]
  simpa [Policy.tree, Toml.Document.follow] using whole

section Sections

variable (config : Config)

/-- The values of the sections in front of scoring. -/
def Config.watcherFields : List (String × Json) := [
  ("poll_interval_secs", .ofNat config.pollSeconds),
  ("extensions", .ofTexts config.extensions),
  ("exclude_paths", .ofTexts config.excluded)]

def Config.docsFields : List (String × Json) :=
  [("output_dir", .text config.outputDirectory)]

def Config.storeFields : List (String × Json) :=
  [("path", .text config.storePath)]

/-- The statements that set them. -/
def Config.watcherEntries : Toml.Document := [
  .entry ["poll_interval_secs"] (.integer config.pollSeconds),
  .entry ["extensions"] (texts config.extensions),
  .entry ["exclude_paths"] (texts config.excluded)]

def Config.docsEntries : Toml.Document :=
  [.entry ["output_dir"] (.text config.outputDirectory)]

def Config.storeEntries : Toml.Document :=
  [.entry ["path"] (.text config.storePath)]

theorem Config.sets_watcher : Sets config.watcherEntries config.watcherFields :=
  .entry rfl (.entry (texts_toJson? _) (.entry (texts_toJson? _) .none))

theorem Config.sets_docs : Sets config.docsEntries config.docsFields :=
  .entry rfl .none

theorem Config.sets_store : Sets config.storeEntries config.storeFields :=
  .entry rfl .none

theorem Config.toDocument_eq :
    config.toDocument =
      .table ["watcher"] :: config.watcherEntries ++
        (.table ["docs"] :: config.docsEntries ++
          (.table ["store"] :: config.storeEntries ++ scoringTable config.scoring)) := by
  simp [toDocument, watcherEntries, docsEntries, storeEntries]

/-- The sections of a configuration that are described in front of scoring. -/
def Config.sections : Toml.Entries :=
  besideTable (besideTable (besideTable [] "watcher" (leaves config.watcherFields))
    "docs" (leaves config.docsFields)) "store" (leaves config.storeFields)

theorem Config.follow_toDocument :
    Toml.Document.follow [] [] config.toDocument =
      some (besideTable config.sections "scoring" config.scoring.tree) := by
  rw [toDocument_eq, Toml.follow_table config.sets_watcher (by simp [watcherFields])
    List.not_mem_nil]
  rw [Toml.follow_table config.sets_docs (by simp [docsFields])]
  rw [Toml.follow_table config.sets_store (by simp [storeFields])]
  rw [follow_scoringTable]
  · rfl
  all_goals simp [Toml.Entries.keys, besideTable]

end Sections

theorem Config.tree?_toDocument (config : Config) :
    config.toDocument.tree? = some (.object [
      ("watcher", config.watcherJson),
      ("docs", config.docsJson),
      ("store", config.storeJson),
      ("scoring", .object config.scoring.described)]) := by
  rw [Toml.Document.tree?, follow_toDocument]
  simp only [besideTable, sections, List.nil_append, List.cons_append, Toml.entriesToJson,
    Toml.Tree.toJson, Toml.entriesToJson_leaves, Policy.entriesToJson_tree, Option.map_some]
  rfl

end DocDrift
