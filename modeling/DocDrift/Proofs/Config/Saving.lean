import DocDrift.Config.File
import DocDrift.Proofs.Config.Description
import DocDrift.Proofs.FileTree.Growth
import DocDrift.Proofs.FileTree.Rewriting

/-!
Saving a configuration and loading it. What is loaded is what was saved, for every configuration whose
numbers a file can hold, and saving fails only where no file can be written.
-/

set_option autoImplicit false

namespace DocDrift

open Schema (FieldsKeep Keeps)

/-! ### The form of a configuration -/

theorem HunkBand.keeps {band : HunkBand} (hunks : band.above ≤ 9223372036854775807) :
    HunkBand.schema.Keeps band.toJson := by
  apply Schema.keeps_record
  · simp
  · refine .cons ⟨rfl, ?_⟩ (.cons ⟨rfl, ?_⟩ .nil)
    · exact Schema.keeps_integer _ (by omega)
    · exact Schema.keeps_integer _ (inRange_toInt band.points)

theorem ScoreBand.keeps {band : ScoreBand} (score : band.least ≤ 4294967295) :
    ScoreBand.schema.Keeps band.toJson := by
  apply Schema.keeps_record
  · simp
  · refine .cons ⟨rfl, ?_⟩ (.cons ⟨rfl, ?_⟩ (.cons ⟨rfl, ?_⟩ .nil))
    · exact Schema.keeps_integer _ (by omega)
    · exact Schema.keeps_real _
    · exact Schema.keeps_choice (Level.label_mem _)

theorem keeps_bands {α : Type} {schema : Schema} (encode : α → Json) {bands : List α}
    (each : ∀ band ∈ bands, schema.Keeps (encode band)) :
    Keeps (.list schema) (.ofList encode bands) := by
  apply Schema.keeps_list
  intro item mem
  obtain ⟨band, there, rfl⟩ := List.mem_map.mp mem
  exact each band there

theorem Policy.check_described {config : Config} (fits : config.Fits) :
    Policy.schema.check (.object config.scoring.described) = some config.scoring.toJson := by
  have points : FieldsKeep
      (Policy.standard.pointFields.map fun field =>
        Schema.withDefault field.1 .points (.whole field.2))
      (config.scoring.pointFields.map fun field => (field.1, .whole field.2)) :=
    Schema.fieldsKeep_map (fun points : Int64 => some (.whole points))
      (fun points : Int64 => .whole points) rfl fun field _ =>
        Schema.keeps_integer _ (inRange_toInt field.2)
  have confidences : FieldsKeep
      (Policy.standard.confidenceFields.map fun field =>
        Schema.withDefault field.1 .real (.real field.2))
      (config.scoring.confidenceFields.map fun field => (field.1, .real field.2)) :=
    Schema.fieldsKeep_map (fun value : Float => some (.real value)) .real rfl fun field _ =>
      Schema.keeps_real field.2
  have hunks := keeps_bands HunkBand.toJson fun band mem => HunkBand.keeps (fits.hunks band mem)
  have scores := keeps_bands ScoreBand.toJson fun band mem => ScoreBand.keeps (fits.scores band mem)
  have distinct := Policy.names_distinct
  rw [← config.scoring.names_scalars] at distinct
  apply Schema.check_of_perm "Policy" _ _ config.scoring.described_perm
  · simpa using distinct
  · exact List.rel_append (List.rel_append points confidences)
      (.cons ⟨rfl, hunks⟩ (.cons ⟨rfl, scores⟩ .nil))

theorem Config.check_described {config : Config} (fits : config.Fits) :
    Config.schema.check (.object [
      ("watcher", config.watcherJson),
      ("docs", config.docsJson),
      ("store", config.storeJson),
      ("scoring", .object config.scoring.described)]) = some config.toJson := by
  have seconds := fits.seconds
  refine Schema.check_record "Config" _ [
      ⟨"watcher", config.watcherJson, config.watcherJson⟩,
      ⟨"docs", config.docsJson, config.docsJson⟩,
      ⟨"store", config.storeJson, config.storeJson⟩,
      ⟨"scoring", .object config.scoring.described, config.scoring.toJson⟩] (by simp)
    (.cons ⟨rfl, ?_⟩ (.cons ⟨rfl, ?_⟩ (.cons ⟨rfl, ?_⟩ (.cons ⟨rfl, ?_⟩ .nil)))) (by simp)
  · apply Schema.keeps_record
    · simp
    · exact .cons ⟨rfl, Schema.keeps_integer _ (by omega)⟩
        (.cons ⟨rfl, Schema.keeps_texts config.extensions⟩
          (.cons ⟨rfl, Schema.keeps_texts config.excluded⟩ .nil))
  · apply Schema.keeps_record
    · simp
    · exact .cons ⟨rfl, Schema.keeps_text config.outputDirectory⟩ .nil
  · apply Schema.keeps_record
    · simp
    · exact .cons ⟨rfl, Schema.keeps_text config.storePath⟩ .nil
  · exact Policy.check_described fits

/-! ### Decoding -/

theorem Json.points?_whole (points : Int64) : Json.points? (.whole points) = some points := by
  rw [points?, whole?, Option.bind_eq_bind, Option.bind_some, if_pos (inRange_toInt points),
    Int64.ofInt_toInt]

theorem HunkBand.ofJson?_toJson (band : HunkBand) : ofJson? band.toJson = some band := by
  simp [ofJson?, toJson, Json.at?, Json.field?, Json.nat?, Json.whole?, Json.ofNat,
    Json.points?_whole]

theorem ScoreBand.ofJson?_toJson (band : ScoreBand) : ofJson? band.toJson = some band := by
  simp [ofJson?, toJson, Json.at?, Json.field?, Json.nat?, Json.whole?, Json.ofNat, Json.real?,
    Level.ofJson?_toJson]

theorem Policy.ofJson?_toJson (policy : Policy) : ofJson? policy.toJson = some policy := by
  have hunks : Json.each? HunkBand.ofJson? (.ofList HunkBand.toJson policy.hunkBands) =
      some policy.hunkBands :=
    Json.each?_map fun band _ => band.ofJson?_toJson
  have scores : Json.each? ScoreBand.ofJson? (.ofList ScoreBand.toJson policy.scoreBands) =
      some policy.scoreBands :=
    Json.each?_map fun band _ => band.ofJson?_toJson
  simp [ofJson?, toJson, pointFields, confidenceFields, Json.at?, Json.field?,
    Json.points?_whole, Json.real?, hunks, scores]

theorem Config.ofJson?_toJson (config : Config) : ofJson? config.toJson = some config := by
  have watcher : config.toJson.field? "watcher" = some config.watcherJson := rfl
  have docs : config.toJson.field? "docs" = some config.docsJson := rfl
  have store : config.toJson.field? "store" = some config.storeJson := rfl
  have scoring : config.toJson.at? "scoring" Policy.ofJson? = some config.scoring := by
    have found : config.toJson.field? "scoring" = some config.scoring.toJson := rfl
    rw [Json.at?, found, Option.bind_eq_bind, Option.bind_some, Policy.ofJson?_toJson]
  have extensions : Json.each? Json.text? (.ofTexts config.extensions) = some config.extensions :=
    Json.each?_map fun _ _ => rfl
  have excluded : Json.each? Json.text? (.ofTexts config.excluded) = some config.excluded :=
    Json.each?_map fun _ _ => rfl
  rw [ofJson?, watcher, docs, store, scoring]
  simp [watcherJson, docsJson, storeJson, Json.at?, Json.field?, Json.nat?, Json.whole?, Json.ofNat,
    Json.text?, extensions, excluded]

theorem Config.ofDocument?_toDocument {config : Config} (fits : config.Fits) :
    ofDocument? config.toDocument = some config := by
  rw [ofDocument?, tree?_toDocument]
  simp only [Option.bind_eq_bind, Option.bind_some]
  rw [check_described fits]
  exact config.ofJson?_toJson

/-! ### The text of a configuration -/

theorem bare_key {key : String} (bare : Toml.isBareKey key = true) : Toml.KeyPath.Bare [key] where
  nonempty := List.cons_ne_nil key []
  short := (by decide : 1 < Toml.depthLimit)
  bare other mem := List.mem_singleton.mp mem ▸ bare

theorem bare_names : ∀ name ∈ Policy.names, Toml.isBareKey name = true := by
  decide +kernel

/-- The numbers of a configuration that are finite are read again from their texts. -/
def Config.Exact (config : Config) : Prop :=
  ∀ x ∈ config.scoring.floats, x.isFinite = true → Toml.Exact x

theorem plain_texts (items : List String) : (Config.texts items).Plain := by
  apply Toml.Value.Plain.list
  intro item mem
  obtain ⟨word, _, rfl⟩ := List.mem_map.mp mem
  trivial

theorem plain_emptyTables {α : Type} {key : String} (bare : Toml.isBareKey key = true)
    (items : List α) : ∀ written ∈ Config.emptyTables key items, written.Plain := by
  unfold Config.emptyTables
  split
  · simp only [List.mem_singleton, forall_eq]
    exact ⟨bare_key bare, .list (List.forall_mem_nil _)⟩
  · simp

theorem plain_points (policy : Policy) : ∀ field ∈ policy.pointFields,
      (Toml.Statement.entry [field.1] (.integer field.2)).Plain := by
  intro field mem
  have named : field.1 ∈ policy.pointFields.map Prod.fst := List.mem_map_of_mem mem
  exact ⟨bare_key (bare_names field.1 (List.mem_append_left _ named)),
    .leaf (inRange_toInt field.2)⟩

theorem plain_confidences {config : Config} (fits : config.Fits) (exact : config.Exact) :
    ∀ field ∈ config.scoring.confidenceFields,
      (Toml.Statement.entry [field.1] (.float field.2)).Plain := by
  intro field mem
  have named : field.1 ∈ config.scoring.confidenceFields.map Prod.fst := List.mem_map_of_mem mem
  have number : field.2 ∈ config.scoring.floats :=
    List.mem_append_left _ (List.mem_map_of_mem mem)
  exact ⟨bare_key (bare_names field.1 (List.mem_append_right _ named)),
    .leaf ⟨fits.numbers _ number, exact _ number⟩⟩

theorem bare_bands {key : String} (bare : Toml.isBareKey key = true) :
    Toml.KeyPath.Bare ["scoring", key] where
  nonempty := List.cons_ne_nil _ _
  short := (by decide : 2 < Toml.depthLimit)
  bare := by
    simp only [List.mem_cons, List.not_mem_nil, or_false, forall_eq_or_imp, forall_eq]
    exact ⟨by decide +kernel, bare⟩

theorem plain_hunkBand {band : HunkBand} (hunks : band.above ≤ 9223372036854775807) :
    ∀ written ∈ Config.hunkBandTable band, written.Plain := by
  simp only [Config.hunkBandTable, List.mem_cons, List.not_mem_nil, or_false, forall_eq_or_imp,
    forall_eq]
  refine ⟨bare_bands (by decide +kernel), ⟨bare_key (by decide +kernel), .leaf ?_⟩,
    ⟨bare_key (by decide +kernel), .leaf (inRange_toInt band.points)⟩⟩
  change (-9223372036854775808 : Int) ≤ band.above ∧ (band.above : Int) ≤ 9223372036854775807
  omega

theorem plain_scoreBand {band : ScoreBand} (score : band.least ≤ 4294967295)
    (number : (Toml.Value.float band.confidence).Leaf) :
    ∀ written ∈ Config.scoreBandTable band, written.Plain := by
  simp only [Config.scoreBandTable, List.mem_cons, List.not_mem_nil, or_false, forall_eq_or_imp,
    forall_eq]
  refine ⟨bare_bands (by decide +kernel), ⟨bare_key (by decide +kernel), .leaf ?_⟩,
    ⟨bare_key (by decide +kernel), .leaf number⟩, ⟨bare_key (by decide +kernel), .leaf trivial⟩⟩
  change (-9223372036854775808 : Int) ≤ band.least ∧ (band.least : Int) ≤ 9223372036854775807
  omega

theorem Config.plain_scoringTable {config : Config} (fits : config.Fits) (exact : config.Exact) :
    ∀ written ∈ scoringTable config.scoring, written.Plain := by
  unfold scoringTable
  simp only [List.forall_mem_append, List.forall_mem_singleton, List.forall_mem_map]
  refine ⟨⟨⟨⟨⟨⟨?_, ?_⟩, ?_⟩, ?_⟩, ?_⟩, ?_⟩, ?_⟩
  · exact bare_key (by decide +kernel)
  · exact plain_points config.scoring
  · exact plain_confidences fits exact
  · exact plain_emptyTables (by decide +kernel) _
  · exact plain_emptyTables (by decide +kernel) _
  · intro written mem
    obtain ⟨band, there, inside⟩ := List.mem_flatMap.mp mem
    exact plain_hunkBand (fits.hunks band there) written inside
  · intro written mem
    obtain ⟨band, there, inside⟩ := List.mem_flatMap.mp mem
    have number : band.confidence ∈ config.scoring.floats :=
      List.mem_append_right _ (List.mem_map_of_mem there)
    exact plain_scoreBand (fits.scores band there) ⟨fits.numbers _ number, exact _ number⟩ written
      inside

theorem Config.plain_toDocument {config : Config} (fits : config.Fits) (exact : config.Exact) :
    ∀ written ∈ config.toDocument, written.Plain := by
  have seconds : (Toml.Value.integer config.pollSeconds).Leaf := by
    have most := fits.seconds
    change (-9223372036854775808 : Int) ≤ config.pollSeconds ∧
      (config.pollSeconds : Int) ≤ 9223372036854775807
    omega
  unfold toDocument
  rw [List.forall_mem_append]
  refine ⟨?_, plain_scoringTable fits exact⟩
  simp only [List.mem_cons, List.not_mem_nil, or_false, forall_eq_or_imp, forall_eq]
  exact ⟨bare_key (by decide +kernel), ⟨bare_key (by decide +kernel), .leaf seconds⟩,
    ⟨bare_key (by decide +kernel), plain_texts _⟩, ⟨bare_key (by decide +kernel), plain_texts _⟩,
    bare_key (by decide +kernel), ⟨bare_key (by decide +kernel), .leaf trivial⟩,
    bare_key (by decide +kernel), ⟨bare_key (by decide +kernel), .leaf trivial⟩⟩

theorem Config.ofText?_render {config : Config} (fits : config.Fits) (exact : config.Exact) :
    ofText? config.render = some config := by
  have read := Toml.ofText?_render (plain_toDocument fits exact)
  rw [ofText?, render, read]
  exact ofDocument?_toDocument fits

/-! ### Saving -/

theorem mapError_ok {ε ε' α : Type} {result : Except ε α} {change : ε → ε'} {value : α} :
    result.mapError change = .ok value ↔ result = .ok value := by
  cases result <;> simp [Except.mapError]

theorem FileTree.write_of_writeBelow {files saved : FileTree} {path : String} {contents : ByteArray}
    (done : files.writeBelow path contents = .ok saved) :
    ∃ below, files.makeParent path = .ok below ∧ below.write path contents = .ok saved := by
  rw [writeBelow] at done
  cases parent : files.makeParent path with
  | error fault =>
      rw [parent] at done
      cases done
  | ok below =>
      rw [parent] at done
      exact ⟨below, rfl, done⟩

/-- Whether a file can be written below a directory does not depend on its contents. -/
theorem FileTree.writeBelow_any {files saved : FileTree} {path : String} {contents : ByteArray}
    (done : files.writeBelow path contents = .ok saved) (other : ByteArray) :
    ∃ made, files.writeBelow path other = .ok made := by
  obtain ⟨below, parent, done⟩ := write_of_writeBelow done
  rw [writeBelow, parent]
  exact write_any done other

theorem Config.load_of_readText {config : Config} {files : FileTree} {root : String}
    (there : files.exists? (filePath root) = true)
    (text : files.readText (filePath root) = .ok config.render)
    (read : ofText? config.render = some config) : load files root = .ok config := by
  rw [load, there, text]
  simp only [Bool.not_true, Bool.false_eq_true, if_false, Except.mapError]
  dsimp only [bind, Except.bind]
  rw [read]
  rfl

/-- A configuration that is saved is loaded again, and it is saved wherever a file can be written. -/
theorem Config.load_of_save (config : Config) (files : FileTree) (root : String)
    (fits : config.Fits) (exact : config.Exact) :
    ((∃ saved, config.save files root = .ok saved) ↔
      ∃ written, files.writeBelow (filePath root) .empty = .ok written) ∧
    ∀ saved, config.save files root = .ok saved → load saved root = .ok config := by
  constructor
  · simp only [save, mapError_ok]
    constructor
    · rintro ⟨saved, done⟩
      exact FileTree.writeBelow_any done _
    · rintro ⟨written, done⟩
      exact FileTree.writeBelow_any done _
  · intro saved done
    obtain ⟨below, _, written⟩ := FileTree.write_of_writeBelow (mapError_ok.mp done)
    have text := FileTree.readText_written written
    have there := FileTree.exists?_of_read (FileTree.read_written written).2
    exact load_of_readText there text (ofText?_render fits exact)

/-- A configuration with marks, escapes and infinite numbers, with empty lists and with bands. -/
def Config.marked : Config :=
  { Config.standard with
    pollSeconds := 9223372036854775807
    extensions := []
    excluded := ["a \"b\" 'c'", "", "λ\n🦀\t\\"]
    outputDirectory := "'''\r"
    storePath := "[store]"
    scoring := { Policy.standard with
      structuralPoints := -9223372036854775808
      skipConfidence := 1.0 / 0.0
      relevanceBoost := -(1.0 / 0.0)
      confidenceCap := 0.1
      hunkBands := [⟨0, -1⟩, ⟨7, 20⟩]
      scoreBands := [] } }

theorem Config.load_of_save_marked :
    Config.marked.Fits ∧ Config.marked.Exact ∧
      ∃ saved, Config.marked.save (FileTree.withHere "work") "" = .ok saved ∧
        load saved "" = .ok Config.marked := by
  have fits : Config.marked.Fits :=
    ⟨by decide, by decide, by decide, by decide +kernel⟩
  have exact : Config.marked.Exact := by
    unfold Config.Exact
    decide +kernel
  have laws := load_of_save Config.marked (FileTree.withHere "work") "" fits exact
  have writable : ∃ written, (FileTree.withHere "work").writeBelow (filePath "") .empty =
      .ok written := by
    cases written : (FileTree.withHere "work").writeBelow (filePath "") .empty with
    | ok tree => exact ⟨tree, rfl⟩
    | error fault =>
        have some : ((FileTree.withHere "work").writeBelow (filePath "") .empty).isOk = true := by
          decide +kernel
        rw [written] at some
        cases some
  obtain ⟨saved, done⟩ := laws.1.mpr writable
  exact ⟨fits, exact, saved, done, laws.2 saved done⟩

end DocDrift
