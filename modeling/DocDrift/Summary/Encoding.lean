import DocDrift.Json.Encoding
import DocDrift.Summary

/-!
Summaries as JSON.
-/

set_option autoImplicit false

namespace DocDrift

open Schema (required)

namespace Visibility

def schema : Schema := .choice (all.map label)

def toJson (visibility : Visibility) : Json := .text visibility.label

def ofJson? : Json → Option Visibility := Json.word? all label

end Visibility

namespace TypeKind

def schema : Schema := .choice (all.map label)

def toJson (kind : TypeKind) : Json := .text kind.label

def ofJson? : Json → Option TypeKind := Json.word? all label

end TypeKind

namespace TypeModifiers

def schema : Schema :=
  .record "TypeModifiers" [required "is_abstract" .boolean, required "is_final" .boolean]

def toJson (modifiers : TypeModifiers) : Json :=
  .object [("is_abstract", .bool modifiers.isAbstract), ("is_final", .bool modifiers.isFinal)]

def ofJson? (json : Json) : Option TypeModifiers :=
  return ⟨← json.at? "is_abstract" Json.bool?, ← json.at? "is_final" Json.bool?⟩

end TypeModifiers

namespace Import

def schema : Schema :=
  .record "Import" [required "name" .text, required "alias" (.optional .text)]

def toJson (imported : Import) : Json :=
  .object [("name", .text imported.name), ("alias", .ofOption .text imported.renamed)]

def ofJson? (json : Json) : Option Import :=
  return ⟨← json.at? "name" Json.text?, ← json.at? "alias" (Json.optional? Json.text?)⟩

end Import

namespace Member

def schema : Schema :=
  .record "Member" [
    required "name" .text,
    required "visibility" Visibility.schema,
    required "signature" .text,
    required "docblock" (.optional .text)]

def toJson (member : Member) : Json :=
  .object [
    ("name", .text member.name),
    ("visibility", member.visibility.toJson),
    ("signature", .text member.signature),
    ("docblock", .ofOption .text member.docblock)]

def ofJson? (json : Json) : Option Member :=
  return {
    name := ← json.at? "name" Json.text?
    visibility := ← json.at? "visibility" Visibility.ofJson?
    signature := ← json.at? "signature" Json.text?
    docblock := ← json.at? "docblock" (Json.optional? Json.text?) }

end Member

namespace TypeDeclaration

def schema : Schema :=
  .record "TypeDeclaration" [
    required "kind" TypeKind.schema,
    required "name" .text,
    required "extends" (.optional .text),
    required "implements" (.list .text),
    required "modifiers" TypeModifiers.schema,
    required "methods" (.list Member.schema),
    required "properties" (.list Member.schema),
    required "docblock" (.optional .text)]

def toJson (declared : TypeDeclaration) : Json :=
  .object [
    ("kind", declared.kind.toJson),
    ("name", .text declared.name),
    ("extends", .ofOption .text declared.parent),
    ("implements", .ofTexts declared.interfaces),
    ("modifiers", declared.modifiers.toJson),
    ("methods", .ofList Member.toJson declared.methods),
    ("properties", .ofList Member.toJson declared.properties),
    ("docblock", .ofOption .text declared.docblock)]

def ofJson? (json : Json) : Option TypeDeclaration :=
  return {
    kind := ← json.at? "kind" TypeKind.ofJson?
    name := ← json.at? "name" Json.text?
    parent := ← json.at? "extends" (Json.optional? Json.text?)
    interfaces := ← json.at? "implements" (Json.each? Json.text?)
    modifiers := ← json.at? "modifiers" TypeModifiers.ofJson?
    methods := ← json.at? "methods" (Json.each? Member.ofJson?)
    properties := ← json.at? "properties" (Json.each? Member.ofJson?)
    docblock := ← json.at? "docblock" (Json.optional? Json.text?) }

end TypeDeclaration

namespace Summary

def schema : Schema :=
  .record "Summary" [
    required "namespace" (.optional .text),
    required "imports" (.list Import.schema),
    required "types" (.list TypeDeclaration.schema),
    required "functions" (.list Member.schema)]

def toJson (summary : Summary) : Json :=
  .object [
    ("namespace", .ofOption .text summary.space),
    ("imports", .ofList Import.toJson summary.imports),
    ("types", .ofList TypeDeclaration.toJson summary.types),
    ("functions", .ofList Member.toJson summary.functions)]

def ofJson? (json : Json) : Option Summary :=
  return {
    space := ← json.at? "namespace" (Json.optional? Json.text?)
    imports := ← json.at? "imports" (Json.each? Import.ofJson?)
    types := ← json.at? "types" (Json.each? TypeDeclaration.ofJson?)
    functions := ← json.at? "functions" (Json.each? Member.ofJson?) }

end Summary

end DocDrift
