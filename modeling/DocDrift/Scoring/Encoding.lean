import DocDrift.Change.Encoding
import DocDrift.Json.Reader
import DocDrift.Scoring.Significance

/-!
Policies and outcomes as JSON, and the scoring of a change that is described by JSON text.
-/

set_option autoImplicit false

namespace DocDrift

open Schema (required withDefault)

namespace Level

def schema : Schema := .choice (all.map label)

def toJson (level : Level) : Json := .text level.label

def ofJson? : Json → Option Level := Json.word? all label

end Level

def Json.points? (json : Json) : Option Int64 := do
  let value ← json.whole?
  if InRange value then some (.ofInt value) else none

namespace HunkBand

def schema : Schema := .record "HunkBand" [required "above" .count, required "points" .points]

def toJson (band : HunkBand) : Json :=
  .object [("above", .ofNat band.above), ("points", .whole band.points)]

def ofJson? (json : Json) : Option HunkBand :=
  return ⟨← json.at? "above" Json.nat?, ← json.at? "points" Json.points?⟩

end HunkBand

namespace ScoreBand

def schema : Schema :=
  .record "ScoreBand" [
    required "min_score" .score,
    required "confidence" .real,
    required "priority" Level.schema]

def toJson (band : ScoreBand) : Json :=
  .object [
    ("min_score", .ofNat band.least),
    ("confidence", .real band.confidence),
    ("priority", band.priority.toJson)]

def ofJson? (json : Json) : Option ScoreBand :=
  return {
    least := ← json.at? "min_score" Json.nat?
    confidence := ← json.at? "confidence" Json.real?
    priority := ← json.at? "priority" Level.ofJson? }

end ScoreBand

namespace Policy

/-- The points of a policy by the names under which they are configured. -/
def pointFields (policy : Policy) : List (String × Int64) := [
  ("structural_points", policy.structuralPoints),
  ("semantic_points", policy.semanticPoints),
  ("comments_points", policy.commentsPoints),
  ("whitespace_points", policy.layoutPoints),
  ("namespace_points", policy.spacePoints),
  ("type_churn_points", policy.typeChurnPoints),
  ("extends_points", policy.parentPoints),
  ("implements_points", policy.implementsPoints),
  ("method_churn_points", policy.methodChurnPoints),
  ("method_modified_points", policy.methodModifiedPoints),
  ("property_churn_points", policy.propertyChurnPoints),
  ("property_modified_points", policy.propertyModifiedPoints),
  ("modifier_points", policy.modifierPoints),
  ("interface_points", policy.interfacePoints),
  ("function_points", policy.functionPoints),
  ("import_points", policy.importPoints),
  ("major_severity_points", policy.majorPoints),
  ("minor_severity_points", policy.minorPoints),
  ("minimal_severity_points", policy.minimalPoints),
  ("documented_public_bonus", policy.documentedBonus),
  ("undocumented_private_penalty", policy.privatePenalty)]

/-- The confidences of a policy by the names under which they are configured. -/
def confidenceFields (policy : Policy) : List (String × Float) := [
  ("skip_confidence", policy.skipConfidence),
  ("relevance_boost", policy.relevanceBoost),
  ("confidence_cap", policy.confidenceCap),
  ("irrelevant_confidence", policy.irrelevantConfidence),
  ("formatting_confidence", policy.formattingConfidence),
  ("interface_confidence", policy.interfaceConfidence)]

/-- A field that is absent keeps its standard value. -/
def schema : Schema :=
  .record "Policy" (
    standard.pointFields.map (fun field => withDefault field.1 .points (.whole field.2)) ++
    standard.confidenceFields.map (fun field => withDefault field.1 .real (.real field.2)) ++ [
      withDefault "hunk_bands" (.list HunkBand.schema)
        (.ofList HunkBand.toJson standard.hunkBands),
      withDefault "score_bands" (.list ScoreBand.schema)
        (.ofList ScoreBand.toJson standard.scoreBands)])

def toJson (policy : Policy) : Json :=
  .object (
    policy.pointFields.map (fun field => (field.1, .whole field.2)) ++
    policy.confidenceFields.map (fun field => (field.1, .real field.2)) ++ [
      ("hunk_bands", .ofList HunkBand.toJson policy.hunkBands),
      ("score_bands", .ofList ScoreBand.toJson policy.scoreBands)])

def ofJson? (json : Json) : Option Policy :=
  return {
    structuralPoints := ← json.at? "structural_points" Json.points?
    semanticPoints := ← json.at? "semantic_points" Json.points?
    commentsPoints := ← json.at? "comments_points" Json.points?
    layoutPoints := ← json.at? "whitespace_points" Json.points?
    spacePoints := ← json.at? "namespace_points" Json.points?
    typeChurnPoints := ← json.at? "type_churn_points" Json.points?
    parentPoints := ← json.at? "extends_points" Json.points?
    implementsPoints := ← json.at? "implements_points" Json.points?
    methodChurnPoints := ← json.at? "method_churn_points" Json.points?
    methodModifiedPoints := ← json.at? "method_modified_points" Json.points?
    propertyChurnPoints := ← json.at? "property_churn_points" Json.points?
    propertyModifiedPoints := ← json.at? "property_modified_points" Json.points?
    modifierPoints := ← json.at? "modifier_points" Json.points?
    interfacePoints := ← json.at? "interface_points" Json.points?
    functionPoints := ← json.at? "function_points" Json.points?
    importPoints := ← json.at? "import_points" Json.points?
    majorPoints := ← json.at? "major_severity_points" Json.points?
    minorPoints := ← json.at? "minor_severity_points" Json.points?
    minimalPoints := ← json.at? "minimal_severity_points" Json.points?
    documentedBonus := ← json.at? "documented_public_bonus" Json.points?
    privatePenalty := ← json.at? "undocumented_private_penalty" Json.points?
    skipConfidence := ← json.at? "skip_confidence" Json.real?
    relevanceBoost := ← json.at? "relevance_boost" Json.real?
    confidenceCap := ← json.at? "confidence_cap" Json.real?
    irrelevantConfidence := ← json.at? "irrelevant_confidence" Json.real?
    formattingConfidence := ← json.at? "formatting_confidence" Json.real?
    interfaceConfidence := ← json.at? "interface_confidence" Json.real?
    hunkBands := ← json.at? "hunk_bands" (Json.each? HunkBand.ofJson?)
    scoreBands := ← json.at? "score_bands" (Json.each? ScoreBand.ofJson?) }

end Policy

namespace Classification

def schema : Schema :=
  .record "Classification" [
    required "primary_type" (.choice (PrimaryType.all.map PrimaryType.label)),
    required "categories" (.list (.choice (Category.all.map Category.label))),
    required "impact_level" Level.schema,
    required "documentation_relevance" Level.schema]

def toJson (classification : Classification) : Json :=
  .object [
    ("primary_type", .text classification.primary.label),
    ("categories", .ofTexts (classification.categories.map Category.label)),
    ("impact_level", classification.impact.toJson),
    ("documentation_relevance", classification.relevance.toJson)]

def ofJson? (json : Json) : Option Classification :=
  return {
    primary := ← json.at? "primary_type" (Json.word? PrimaryType.all PrimaryType.label)
    categories := Category.normalized
      (← json.at? "categories" (Json.each? (Json.word? Category.all Category.label)))
    impact := ← json.at? "impact_level" Level.ofJson?
    relevance := ← json.at? "documentation_relevance" Level.ofJson? }

end Classification

namespace Recommendation

def schema : Schema :=
  .record "Recommendation" [
    required "should_regenerate" .boolean,
    required "confidence" .real,
    required "priority" Level.schema,
    required "reasons" (.list .text)]

def toJson (recommendation : Recommendation) : Json :=
  .object [
    ("should_regenerate", .bool recommendation.regenerate),
    ("confidence", .real recommendation.confidence),
    ("priority", recommendation.priority.toJson),
    ("reasons", .ofTexts recommendation.reasons)]

def ofJson? (json : Json) : Option Recommendation :=
  return {
    regenerate := ← json.at? "should_regenerate" Json.bool?
    confidence := ← json.at? "confidence" Json.real?
    priority := ← json.at? "priority" Level.ofJson?
    reasons := ← json.at? "reasons" (Json.each? Json.text?) }

end Recommendation

namespace Significance

def schema : Schema :=
  .record "Significance" [
    required "score" .score,
    required "classification" Classification.schema,
    required "recommendation" Recommendation.schema]

def toJson (result : Significance) : Json :=
  .object [
    ("score", .ofNat result.score),
    ("classification", result.classification.toJson),
    ("recommendation", result.recommendation.toJson)]

def ofJson? (json : Json) : Option Significance :=
  return {
    score := ← json.at? "score" Json.nat?
    classification := ← json.at? "classification" Classification.ofJson?
    recommendation := ← json.at? "recommendation" Recommendation.ofJson? }

def payloadSchema : Schema :=
  .record "ScorePayload" [required "diff" TextChange.schema, required "delta" Delta.schema]

/-- The description of a change. -/
def payload (change : TextChange) (delta : Delta) : Json :=
  .object [("diff", change.toJson), ("delta", delta.toJson)]

def ofPayload? (json : Json) : Option (TextChange × Delta) :=
  return (← json.at? "diff" TextChange.ofJson?, ← json.at? "delta" Delta.ofJson?)

/-- The significance of the change that a JSON text describes. -/
def ofPayloadText (policy : Policy) (text : String) : Significance :=
  match Json.ofText payloadSchema text with
  | .error error => unscored (.malformed error)
  | .ok json =>
      match ofPayload? json with
      | some (change, delta) => ofValid policy change delta .empty
      | none => unscored (.malformed ⟨.expectedValue, 1, 0⟩)

end Significance

end DocDrift
