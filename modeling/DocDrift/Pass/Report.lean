/-!
What a pass reports: what became of each file, in the order in which the files were evaluated.
-/

set_option autoImplicit false

namespace DocDrift.Pass

/-- What became of a file. -/
inductive Outcome
  /-- A document was generated; there is a score if a change was scored. -/
  | processed (path : String) (score : Option Nat) (document : String)
  | skipped (path reason : String)
  | failed (path message : String)
  deriving DecidableEq, Repr

namespace Outcome

def path : Outcome → String
  | .processed path _ _ => path
  | .skipped path _ => path
  | .failed path _ => path

def isProcessed : Outcome → Bool
  | .processed _ _ _ => true
  | _ => false

def isSkipped : Outcome → Bool
  | .skipped _ _ => true
  | _ => false

def isFailed : Outcome → Bool
  | .failed _ _ => true
  | _ => false

def message : Outcome → String
  | .processed path score document =>
      "processed  " ++ path ++ " -> " ++ document ++
        match score with
        | some score => " (score " ++ toString score ++ ")"
        | none => ""
  | .skipped path reason => "skipped    " ++ path ++ " (" ++ reason ++ ")"
  | .failed path message => "error      " ++ path ++ ": " ++ message

end Outcome

structure Report where
  /-- The commit up to which files were evaluated. -/
  head : Option String
  /-- The commit up to which they had been evaluated before. -/
  previous : Option String
  outcomes : List Outcome
  /-- Whether the marker of the repository was set. -/
  advanced : Bool
  deriving DecidableEq, Repr

namespace Report

/-- The report on a repository without commits. -/
def empty : Report := ⟨none, none, [], false⟩

def processed (report : Report) : Nat :=
  report.outcomes.countP Outcome.isProcessed

def skipped (report : Report) : Nat :=
  report.outcomes.countP Outcome.isSkipped

def failed (report : Report) : Nat :=
  report.outcomes.countP Outcome.isFailed

/-- The text of a report: a line for each file, and a summary. -/
def message (report : Report) : String :=
  String.join (report.outcomes.map fun outcome => outcome.message ++ "\n") ++
    toString report.outcomes.length ++ " files: " ++ toString report.processed ++ " processed, " ++
    toString report.skipped ++ " skipped, " ++ toString report.failed ++ " errors"

end Report

end DocDrift.Pass
