import DocDrift.Store

/-!
The store as JSON text, which is how it is kept in a file: each table is a list of its rows, and a
missing table is `null`.
-/

set_option autoImplicit false

namespace DocDrift

open Schema (required)

namespace Store

namespace LedgerRow

def schema : Schema :=
  .record "LedgerRow" [
    required "path" .text,
    required "digest" .text,
    required "document" (.optional .text),
    required "updated_at" .text]

def toJson (path : String) (row : LedgerRow) : Json :=
  .object [
    ("path", .text path),
    ("digest", .text row.digest),
    ("document", .ofOption .text row.document),
    ("updated_at", .text row.updatedAt)]

def ofJson? (json : Json) : Option (String × LedgerRow) :=
  return (← json.at? "path" Json.text?, {
    digest := ← json.at? "digest" Json.text?
    document := ← json.at? "document" (Json.optional? Json.text?)
    updatedAt := ← json.at? "updated_at" Json.text? })

end LedgerRow

namespace MarkerRow

def schema : Schema :=
  .record "MarkerRow" [
    required "repository" .text,
    required "commit" .text,
    required "updated_at" .text]

def toJson (repository : String) (row : MarkerRow) : Json :=
  .object [
    ("repository", .text repository),
    ("commit", .text row.commit),
    ("updated_at", .text row.updatedAt)]

def ofJson? (json : Json) : Option (String × MarkerRow) :=
  return (← json.at? "repository" Json.text?, {
    commit := ← json.at? "commit" Json.text?
    updatedAt := ← json.at? "updated_at" Json.text? })

end MarkerRow

namespace SymbolRow

def schema : Schema :=
  .record "SymbolRow" [required "since" .text, required "digest" .text]

def toJson (row : SymbolRow) : Json :=
  .object [("since", .text row.since), ("digest", .text row.digest)]

def ofJson? (json : Json) : Option SymbolRow :=
  return ⟨← json.at? "since" Json.text?, ← json.at? "digest" Json.text?⟩

end SymbolRow

namespace UsageRow

def schema : Schema :=
  .record "UsageRow" [
    required "number" .count,
    required "model" .text,
    required "input" .points,
    required "output" .points,
    required "cost" .real,
    required "path" (.optional .text),
    required "time" .text]

def toJson (row : UsageRow) : Json :=
  .object [
    ("number", .ofNat row.number),
    ("model", .text row.usage.model),
    ("input", .whole row.usage.input),
    ("output", .whole row.usage.output),
    ("cost", .real row.usage.cost),
    ("path", .ofOption .text row.usage.path),
    ("time", .text row.time)]

def ofJson? (json : Json) : Option UsageRow :=
  return {
    number := ← json.at? "number" Json.nat?
    usage := {
      model := ← json.at? "model" Json.text?
      input := ← json.at? "input" Json.whole?
      output := ← json.at? "output" Json.whole?
      cost := ← json.at? "cost" Json.real?
      path := ← json.at? "path" (Json.optional? Json.text?) }
    time := ← json.at? "time" Json.text? }

end UsageRow

namespace AnalysisRow

def schema : Schema :=
  .record "AnalysisRow" [
    required "path" .text,
    required "old" .text,
    required "new" .text,
    required "score" (.optional .points),
    required "classification" .text,
    required "recommendation" .text,
    required "time" .text]

def toJson (pair : Pair) (row : AnalysisRow) : Json :=
  .object [
    ("path", .text pair.path),
    ("old", .text pair.old),
    ("new", .text pair.new),
    ("score", .ofOption .whole row.score),
    ("classification", .text row.classification),
    ("recommendation", .text row.recommendation),
    ("time", .text row.time)]

def ofJson? (json : Json) : Option (Pair × AnalysisRow) :=
  return (
    ⟨← json.at? "path" Json.text?, ← json.at? "old" Json.text?, ← json.at? "new" Json.text?⟩,
    { score := ← json.at? "score" (Json.optional? Json.whole?)
      classification := ← json.at? "classification" Json.text?
      recommendation := ← json.at? "recommendation" Json.text?
      time := ← json.at? "time" Json.text? })

end AnalysisRow

def schema : Schema :=
  .record "Store" [
    required "ledger" (.optional (.list LedgerRow.schema)),
    required "markers" (.optional (.list MarkerRow.schema)),
    required "symbols" (.optional (.map (.map SymbolRow.schema))),
    required "usage" (.optional (.list UsageRow.schema)),
    required "analyses" (.optional (.list AnalysisRow.schema))]

def toJson (store : Store) : Json :=
  .object [
    ("ledger", .ofOption (Json.ofList fun row => LedgerRow.toJson row.1 row.2) store.ledger),
    ("markers", .ofOption (Json.ofList fun row => MarkerRow.toJson row.1 row.2) store.markers),
    ("symbols", .ofOption (Json.ofNameMap (Json.ofNameMap SymbolRow.toJson)) store.symbols),
    ("usage", .ofOption (Json.ofList UsageRow.toJson) store.usage),
    ("analyses",
      .ofOption (Json.ofList fun row => AnalysisRow.toJson row.1 row.2) store.analyses)]

def ofJson? (json : Json) : Option Store :=
  return {
    ledger := ← json.at? "ledger" (Json.optional? (Json.each? LedgerRow.ofJson?))
    markers := ← json.at? "markers" (Json.optional? (Json.each? MarkerRow.ofJson?))
    symbols := ← json.at? "symbols"
      (Json.optional? (Json.nameMap? (Json.nameMap? SymbolRow.ofJson?)))
    usage := ← json.at? "usage" (Json.optional? (Json.each? UsageRow.ofJson?))
    analyses := ← json.at? "analyses" (Json.optional? (Json.each? AnalysisRow.ofJson?)) }

def render (store : Store) : String :=
  store.toJson.compact

def ofText? (text : String) : Option Store := do
  ofJson? (← (Json.ofText schema text).toOption)

end Store

end DocDrift
