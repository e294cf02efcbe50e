import DocDrift.Path
import DocDrift.Scoring.Encoding
import DocDrift.Toml.Printer
import DocDrift.Toml.Reader

/-!
The configuration of a repository: which files are tracked, where their documents and the store
are kept, and the numbers that scoring works with. Whatever a configuration file leaves out has a
standard value.
-/

set_option autoImplicit false

namespace DocDrift

structure Config where
  pollSeconds : Nat
  /-- The extensions of tracked files, without the dot. -/
  extensions : List String
  /-- What a path that is never tracked begins with. -/
  excluded : List String
  /-- The directory of the documents. -/
  outputDirectory : String
  /-- The path of the store. -/
  storePath : String
  scoring : Policy
  deriving BEq

namespace Config

def stateDirectory : String := ".docwatch"

/-- The configuration without a configuration file. -/
def standard : Config :=
  { pollSeconds := 30
    extensions := ["php"]
    excluded := ["vendor/", "node_modules/", ".git/", stateDirectory ++ "/"]
    outputDirectory := "docs/api"
    storePath := stateDirectory ++ "/state.db"
    scoring := .standard }

def filePath (root : String) : String :=
  Path.join (Path.join root stateDirectory) "config.toml"

def storeIn (config : Config) (root : String) : String :=
  Path.join root config.storePath

/-- Whether a file is tracked, given its path in the repository. -/
def tracks (config : Config) (path : String) : Bool :=
  let chars := Path.withoutHere path.toList
  if config.excluded.any (fun start => start.toList.isPrefixOf chars) then false
  else
    match Path.extension? chars with
    | some extension =>
        config.extensions.any (fun other => Path.sameExtension other.toList extension)
    | none => false

def documentPath (config : Config) (path : String) : String :=
  let below := Path.join config.outputDirectory (String.ofList (Path.withoutHere path.toList))
  String.ofList (Path.withExtension ['m', 'd'] below.toList)

/-! ### Encoding -/

open Schema (withDefault)

def watcherJson (config : Config) : Json :=
  .object [
    ("poll_interval_secs", .ofNat config.pollSeconds),
    ("extensions", .ofTexts config.extensions),
    ("exclude_paths", .ofTexts config.excluded)]

def docsJson (config : Config) : Json :=
  .object [("output_dir", .text config.outputDirectory)]

def storeJson (config : Config) : Json :=
  .object [("path", .text config.storePath)]

def toJson (config : Config) : Json :=
  .object [
    ("watcher", config.watcherJson),
    ("docs", config.docsJson),
    ("store", config.storeJson),
    ("scoring", config.scoring.toJson)]

def schema : Schema :=
  .record "Config" [
    withDefault "watcher" (.record "Watcher" [
      withDefault "poll_interval_secs" .seconds (.ofNat standard.pollSeconds),
      withDefault "extensions" (.list .text) (.ofTexts standard.extensions),
      withDefault "exclude_paths" (.list .text) (.ofTexts standard.excluded)]) standard.watcherJson,
    withDefault "docs" (.record "Docs" [
      withDefault "output_dir" .text (.text standard.outputDirectory)]) standard.docsJson,
    withDefault "store" (.record "Store" [
      withDefault "path" .text (.text standard.storePath)]) standard.storeJson,
    withDefault "scoring" Policy.schema Policy.standard.toJson]

def ofJson? (json : Json) : Option Config := do
  let watcher ← json.field? "watcher"
  return {
    pollSeconds := ← watcher.at? "poll_interval_secs" Json.nat?
    extensions := ← watcher.at? "extensions" (Json.each? Json.text?)
    excluded := ← watcher.at? "exclude_paths" (Json.each? Json.text?)
    outputDirectory := ← (← json.field? "docs").at? "output_dir" Json.text?
    storePath := ← (← json.field? "store").at? "path" Json.text?
    scoring := ← json.at? "scoring" Policy.ofJson? }

/-! ### Configuration files -/

def texts (items : List String) : Toml.Value :=
  .list (items.map .text)

def hunkBandTable (band : HunkBand) : Toml.Document := [
  .element ["scoring", "hunk_bands"],
  .entry ["above"] (.integer band.above),
  .entry ["points"] (.integer band.points)]

def scoreBandTable (band : ScoreBand) : Toml.Document := [
  .element ["scoring", "score_bands"],
  .entry ["min_score"] (.integer band.least),
  .entry ["confidence"] (.float band.confidence),
  .entry ["priority"] (.text band.priority.label)]

/-- The entry that stands for a list without tables. -/
def emptyTables {α : Type} (key : String) (items : List α) : Toml.Document :=
  if items.isEmpty then [.entry [key] (.list [])] else []

def scoringTable (policy : Policy) : Toml.Document :=
  [.table ["scoring"]] ++
    policy.pointFields.map (fun field => .entry [field.1] (.integer field.2)) ++
    policy.confidenceFields.map (fun field => .entry [field.1] (.float field.2)) ++
    emptyTables "hunk_bands" policy.hunkBands ++
    emptyTables "score_bands" policy.scoreBands ++
    policy.hunkBands.flatMap hunkBandTable ++
    policy.scoreBands.flatMap scoreBandTable

/-- The document that a configuration is saved as. -/
def toDocument (config : Config) : Toml.Document := [
  .table ["watcher"],
  .entry ["poll_interval_secs"] (.integer config.pollSeconds),
  .entry ["extensions"] (texts config.extensions),
  .entry ["exclude_paths"] (texts config.excluded),
  .table ["docs"],
  .entry ["output_dir"] (.text config.outputDirectory),
  .table ["store"],
  .entry ["path"] (.text config.storePath)] ++ scoringTable config.scoring

def render (config : Config) : String :=
  config.toDocument.render

def ofDocument? (document : Toml.Document) : Option Config := do
  ofJson? (← schema.check (← document.tree?))

def ofText? (text : String) : Option Config := do
  ofDocument? (← Toml.Document.ofText? text)

end Config

end DocDrift
