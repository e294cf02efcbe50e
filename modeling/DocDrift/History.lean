import DocDrift.Failure
import DocDrift.NameMap

/-!
The history of a repository, as far as a pass asks about it. A `History` answers questions; each
answer may be a failure. `Recorded` is a history that is known in full: its commits with the texts
of their files.
-/

set_option autoImplicit false

namespace DocDrift

inductive Question
  /-- Which commit is the current one? -/
  | head
  /-- Is there such a commit? -/
  | knows (commit : String)
  /-- Which commits lie between two? -/
  | between (start finish : String)
  /-- Which files differ between two commits? -/
  | changed (start finish : String)
  /-- Which files does the current commit have? -/
  | files
  /-- What is the text of a file at a commit? -/
  | textAt (path commit : String)
  deriving DecidableEq, Repr

/-- The answers to the questions. -/
structure History where
  head : Except Failure (Option String)
  knows : String → Except Failure Bool
  between : String → String → Except Failure (List String)
  changed : String → String → Except Failure (List String)
  files : Except Failure (List String)
  textAt : String → String → Except Failure (Option String)

namespace History

/-- A history that fails to answer any question. -/
def silent (message : String) : History :=
  { head := .error (.history message)
    knows := fun _ => .error (.history message)
    between := fun _ _ => .error (.history message)
    changed := fun _ _ => .error (.history message)
    files := .error (.history message)
    textAt := fun _ _ => .error (.history message) }

/-- The kinds of questions. -/
inductive Kind
  | head
  | knows
  | between
  | changed
  | files
  | textAt
  deriving DecidableEq, Repr

abbrev Snapshot := NameMap String

/-- A history that is known in full. -/
structure Recorded where
  current : Option String
  commits : NameMap Snapshot
  /-- What is answered for the files that differ from an earlier commit, where it is set. -/
  changes : NameMap (List String)
  /-- The kinds of questions that fail, with their messages. -/
  faults : List (Kind × String)
  deriving Inhabited

namespace Recorded

def empty : Recorded :=
  ⟨none, [], [], []⟩

/-- Adds a commit, which becomes the current one. -/
def commit (recorded : Recorded) (name : String) (snapshot : Snapshot)
    (changes : Option (List String)) : Recorded :=
  { recorded with
    current := some name
    commits := recorded.commits.insert name snapshot
    changes :=
      match changes with
      | some paths => recorded.changes.insert name paths
      | none => recorded.changes }

def forget (recorded : Recorded) (name : String) : Recorded :=
  { recorded with commits := recorded.commits.erase name }

/-- Sets whether a kind of question fails. -/
def setFault (recorded : Recorded) (kind : Kind) (message : Option String) : Recorded :=
  let others := recorded.faults.filter (fun fault => fault.1 != kind)
  { recorded with
    faults :=
      match message with
      | some text => (kind, text) :: others
      | none => others }

/-- The files of a commit; a commit that is not there has none. -/
def snapshot (recorded : Recorded) (name : String) : Snapshot :=
  (recorded.commits.find? name).getD []

/-- The paths of the files that differ between two snapshots, or are in one of them only. -/
def differing (old new : Snapshot) : List String :=
  (sortedSet (old.names ++ new.names)).filter (fun path => old.find? path != new.find? path)

/-- An answer, unless questions of its kind fail. -/
def answer {α : Type} (recorded : Recorded) (kind : Kind) (value : α) : Except Failure α :=
  match recorded.faults.find? (fun fault => fault.1 == kind) with
  | some (_, message) => .error (.history message)
  | none => .ok value

def toHistory (recorded : Recorded) : History :=
  { head := recorded.answer .head recorded.current
    knows := fun name => recorded.answer .knows (recorded.commits.find? name).isSome
    between := fun _ finish => recorded.answer .between [finish]
    changed := fun start finish =>
      recorded.answer .changed
        ((recorded.changes.find? finish).getD
          (differing (recorded.snapshot start) (recorded.snapshot finish)))
    files := recorded.answer .files ((recorded.current.map recorded.snapshot).getD []).names
    textAt := fun path name => recorded.answer .textAt ((recorded.snapshot name).find? path) }

end Recorded

end History

end DocDrift
