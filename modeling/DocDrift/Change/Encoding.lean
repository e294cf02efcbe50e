import DocDrift.Change.Delta
import DocDrift.Change.TextChange
import DocDrift.Summary.Encoding

/-!
Changes as JSON.
-/

set_option autoImplicit false

namespace DocDrift

open Schema (required)

namespace ChangeCounts

def schema : Schema :=
  .record "ChangeCounts" [
    required "total" .count,
    required "additions" .count,
    required "deletions" .count,
    required "modifications" .count]

def toJson (counts : ChangeCounts) : Json :=
  .object [
    ("total", .ofNat counts.total),
    ("additions", .ofNat counts.additions),
    ("deletions", .ofNat counts.deletions),
    ("modifications", .ofNat counts.modifications)]

def ofJson? (json : Json) : Option ChangeCounts :=
  return {
    total := ← json.at? "total" Json.nat?
    additions := ← json.at? "additions" Json.nat?
    deletions := ← json.at? "deletions" Json.nat?
    modifications := ← json.at? "modifications" Json.nat? }

end ChangeCounts

namespace TextChange

def schema : Schema :=
  .record "TextDiffResult" [
    required "whitespace_only" .boolean,
    required "comments_only" .boolean,
    required "structural_changes" .boolean,
    required "semantic_changes" .boolean,
    required "change_counts" ChangeCounts.schema]

def toJson (change : TextChange) : Json :=
  .object [
    ("whitespace_only", .bool change.layoutOnly),
    ("comments_only", .bool change.commentsOnly),
    ("structural_changes", .bool change.structural),
    ("semantic_changes", .bool change.semantic),
    ("change_counts", change.counts.toJson)]

def ofJson? (json : Json) : Option TextChange :=
  return {
    layoutOnly := ← json.at? "whitespace_only" Json.bool?
    commentsOnly := ← json.at? "comments_only" Json.bool?
    structural := ← json.at? "structural_changes" Json.bool?
    semantic := ← json.at? "semantic_changes" Json.bool?
    counts := ← json.at? "change_counts" ChangeCounts.ofJson? }

end TextChange

namespace ValueChange

variable {α : Type}

def schema (inner : Schema) : Schema :=
  .record "ValueChange" [required "old" inner, required "new" inner]

def toJson (encode : α → Json) (change : ValueChange α) : Json :=
  .object [("old", encode change.old), ("new", encode change.new)]

def ofJson? (read : Json → Option α) (json : Json) : Option (ValueChange α) :=
  return ⟨← json.at? "old" read, ← json.at? "new" read⟩

end ValueChange

namespace ChangeSet

variable {μ : Type}

def schema (inner : Schema) : Schema :=
  .record "ChangeSet" [
    required "added" (.list .text),
    required "removed" (.list .text),
    required "modified" (.map inner)]

def toJson (encode : μ → Json) (changes : ChangeSet μ) : Json :=
  .object [
    ("added", .ofTexts changes.added),
    ("removed", .ofTexts changes.removed),
    ("modified", .ofNameMap encode changes.modified)]

def ofJson? (read : Json → Option μ) (json : Json) : Option (ChangeSet μ) :=
  return {
    added := ← json.at? "added" (Json.each? Json.text?)
    removed := ← json.at? "removed" (Json.each? Json.text?)
    modified := ← json.at? "modified" (Json.nameMap? read) }

end ChangeSet

namespace ListChange

def schema : Schema :=
  .record "ListChanges" [required "added" (.list .text), required "removed" (.list .text)]

def toJson (changes : ListChange) : Json :=
  .object [("added", .ofTexts changes.added), ("removed", .ofTexts changes.removed)]

def ofJson? (json : Json) : Option ListChange :=
  return ⟨← json.at? "added" (Json.each? Json.text?), ← json.at? "removed" (Json.each? Json.text?)⟩

end ListChange

namespace MemberDelta

def schema : Schema :=
  .record "MemberDelta" [
    required "signature" (.optional (ValueChange.schema .text)),
    required "visibility" (.optional (ValueChange.schema Visibility.schema))]

def toJson (delta : MemberDelta) : Json :=
  .object [
    ("signature", .ofOption (ValueChange.toJson .text) delta.signature),
    ("visibility", .ofOption (ValueChange.toJson Visibility.toJson) delta.visibility)]

def ofJson? (json : Json) : Option MemberDelta :=
  return {
    signature := ← json.at? "signature" (Json.optional? (ValueChange.ofJson? Json.text?))
    visibility :=
      ← json.at? "visibility" (Json.optional? (ValueChange.ofJson? Visibility.ofJson?)) }

end MemberDelta

namespace TypeDelta

def schema : Schema :=
  .record "TypeDelta" [
    required "kind" TypeKind.schema,
    required "extends_change" (.optional (ValueChange.schema (.optional .text))),
    required "implements_changes" ListChange.schema,
    required "modifier_change" (.optional (ValueChange.schema TypeModifiers.schema)),
    required "methods_changes" (ChangeSet.schema MemberDelta.schema),
    required "properties_changes" (ChangeSet.schema MemberDelta.schema)]

def toJson (delta : TypeDelta) : Json :=
  .object [
    ("kind", delta.kind.toJson),
    ("extends_change", .ofOption (ValueChange.toJson (.ofOption .text)) delta.parent),
    ("implements_changes", delta.interfaces.toJson),
    ("modifier_change", .ofOption (ValueChange.toJson TypeModifiers.toJson) delta.modifiers),
    ("methods_changes", delta.methods.toJson MemberDelta.toJson),
    ("properties_changes", delta.properties.toJson MemberDelta.toJson)]

def ofJson? (json : Json) : Option TypeDelta :=
  return {
    kind := ← json.at? "kind" TypeKind.ofJson?
    parent :=
      ← json.at? "extends_change"
        (Json.optional? (ValueChange.ofJson? (Json.optional? Json.text?)))
    interfaces := ← json.at? "implements_changes" ListChange.ofJson?
    modifiers :=
      ← json.at? "modifier_change" (Json.optional? (ValueChange.ofJson? TypeModifiers.ofJson?))
    methods := ← json.at? "methods_changes" (ChangeSet.ofJson? MemberDelta.ofJson?)
    properties := ← json.at? "properties_changes" (ChangeSet.ofJson? MemberDelta.ofJson?) }

end TypeDelta

namespace Severity

def schema : Schema := .choice (all.map label)

def toJson (severity : Severity) : Json := .text severity.label

def ofJson? : Json → Option Severity := Json.word? all label

end Severity

namespace Delta

def schema : Schema :=
  .record "StructuralDelta" [
    required "namespace_changed" .boolean,
    required "types" (ChangeSet.schema TypeDelta.schema),
    required "interfaces" (ChangeSet.schema TypeDelta.schema),
    required "functions" (ChangeSet.schema MemberDelta.schema),
    required "imports" (ChangeSet.schema (ValueChange.schema (.optional .text))),
    required "severity" Severity.schema]

def toJson (delta : Delta) : Json :=
  .object [
    ("namespace_changed", .bool delta.spaceChanged),
    ("types", delta.types.toJson TypeDelta.toJson),
    ("interfaces", delta.interfaces.toJson TypeDelta.toJson),
    ("functions", delta.functions.toJson MemberDelta.toJson),
    ("imports", delta.imports.toJson (ValueChange.toJson (.ofOption .text))),
    ("severity", delta.severity.toJson)]

def ofJson? (json : Json) : Option Delta :=
  return {
    spaceChanged := ← json.at? "namespace_changed" Json.bool?
    types := ← json.at? "types" (ChangeSet.ofJson? TypeDelta.ofJson?)
    interfaces := ← json.at? "interfaces" (ChangeSet.ofJson? TypeDelta.ofJson?)
    functions := ← json.at? "functions" (ChangeSet.ofJson? MemberDelta.ofJson?)
    imports :=
      ← json.at? "imports" (ChangeSet.ofJson? (ValueChange.ofJson? (Json.optional? Json.text?)))
    severity := ← json.at? "severity" Severity.ofJson? }

end Delta

end DocDrift
