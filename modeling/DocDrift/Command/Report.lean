import DocDrift.Analysis
import DocDrift.Pass.Report
import DocDrift.Store

/-!
The lines in which commands report: what a change amounts to, what the store keeps, and what
generating documents has cost. A table has columns of a least width; an entry that is wider than
its column is written in full.
-/

set_option autoImplicit false

namespace DocDrift

/-! ### Columns -/

namespace Text

def blanks (count : Nat) : String :=
  String.ofList (List.replicate count ' ')

def atLeft (width : Nat) (text : String) : String :=
  text ++ blanks (width - text.length)

def atRight (width : Nat) (text : String) : String :=
  blanks (width - text.length) ++ text

/-- The start of some characters that takes a number of bytes, if one does. -/
def startOfSize? : Nat → List Char → Option (List Char)
  | 0, _ => some []
  | _, [] => none
  | size, c :: rest =>
      if c.utf8Size ≤ size then (startOfSize? (size - c.utf8Size) rest).map (c :: ·) else none

end Text

/-- The name of a commit in a message: its first ten bytes, if they are whole characters. -/
def shortCommit (name : String) : String :=
  match Text.startOfSize? 10 name.toList with
  | some start => String.ofList start
  | none => name

/-! ### Changes -/

namespace Analysis

def decision (recommendation : Recommendation) : String :=
  if recommendation.regenerate then "regenerate" else "skip"

def report (analysis : Analysis) : List String :=
  let found := analysis.result.classification
  let advice := analysis.result.recommendation
  [ "Score:      " ++ toString analysis.result.score,
    "Change:     " ++ found.primary.label ++ " (impact " ++ found.impact.label ++
      ", relevance " ++ found.relevance.label ++ ")",
    "Severity:   " ++ analysis.delta.severity.label,
    "Decision:   " ++ decision advice ++ " (confidence " ++ Decimal.fixed 2 advice.confidence ++
      ", priority " ++ advice.priority.label ++ ")" ] ++
    advice.reasons.map (fun reason => "  - " ++ reason)

end Analysis

/-! ### Passes -/

namespace Pass.Report

/-- The text that a command prints after a pass. -/
def notice (report : Report) : String :=
  match report.head with
  | none => "No commits yet."
  | some head =>
      if report.outcomes.isEmpty && !report.advanced then
        "Already up to date at " ++ shortCommit head ++ "."
      else report.message

end Pass.Report

/-! ### The store -/

namespace Store

def markerLine : Option MarkerRow → String
  | some marker =>
      "Last commit: " ++ shortCommit marker.commit ++ " (" ++ marker.updatedAt ++ ")"
  | none => "Last commit: none (next run evaluates every file)"

def Statistics.report (statistics : Statistics) : List String :=
  [ "Tracked files:      " ++ toString statistics.files,
    "Documented symbols: " ++ toString statistics.symbols,
    "Cached analyses:    " ++ toString statistics.analyses,
    "Usage entries:      " ++ toString statistics.usage ] ++
    statistics.lastUpdated.toList.map (fun time => "Last documented:    " ++ time)

namespace CostReport

def row (name calls input output cost : String) : String :=
  " ".intercalate [Text.atLeft 32 name, Text.atRight 6 calls, Text.atRight 12 input,
    Text.atRight 12 output, Text.atRight 10 cost]

def sumRow (name : String) (calls : Nat) (input output : Int) (cost : Float) : String :=
  row name (toString calls) (toString input) (toString output) (Decimal.fixed 4 cost)

/-- The table of costs, with a row for each model and one for all of them. -/
def report (costs : CostReport) : List String :=
  if costs.calls = 0 then ["No generation calls recorded."]
  else
    row "model" "calls" "input" "output" "cost" ::
      costs.models.map (fun model =>
        sumRow model.model model.calls model.input model.output model.cost) ++
      [sumRow "total" costs.calls costs.input costs.output costs.cost]

end CostReport

end Store

end DocDrift
