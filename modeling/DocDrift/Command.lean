import DocDrift.Command.Arguments
import DocDrift.Command.Report
import DocDrift.IgnoreFile
import DocDrift.Pass
import DocDrift.Workspace

/-!
What commands do: they change files and print text, and may fail on the way. What was done and
printed before a failure stays.
-/

set_option autoImplicit false

namespace DocDrift.Command

/-- What a command has made of the files, and what it has printed. -/
structure Scene where
  files : FileTree
  printed : String
  deriving Inhabited

/-- A step of a command. -/
abbrev Action := ExceptT Failure (StateM Scene)

def say (line : String) : Action Unit :=
  modify fun scene => { scene with printed := scene.printed ++ line ++ "\n" }

def sayAll (lines : List String) : Action Unit :=
  lines.forM say

def take {α : Type} : Except Failure α → Action α
  | .ok value => pure value
  | .error failure => throw failure

/-- Changes the files; the value that comes with them is the result. -/
def change {α : Type} (step : FileTree → Except Failure (FileTree × α)) : Action α := do
  let (files, value) ← take (step (← get).files)
  modify fun scene => { scene with files := files }
  return value

/-- Opens a repository. -/
def enter (repository : String) : Action Workspace :=
  change fun files => Workspace.enter files repository

/-- Keeps the store of a repository. -/
def leave (workspace : Workspace) : Action Unit :=
  change fun files => return (← workspace.leave files, ())

/-! ### Commands -/

/-- Makes a repository ready: its configuration file, its store and its ignore file. -/
def init (repository : String) : Action Unit := do
  let path := Config.filePath repository
  if (← get).files.exists? path then say ("Config already exists at " ++ path)
  else
    change fun files => return (← Config.standard.save files repository, ())
    say ("Created " ++ path)
  let workspace ← enter repository
  if ← change fun files => IgnoreFile.ensure files workspace.root then
    say ("Added " ++ Config.stateDirectory ++ "/ state files to .gitignore")
  say "docwatch initialized. Run 'docwatch run' to document changed files."

def status (repository : String) : Action Unit := do
  let workspace ← enter repository
  let statistics ← take workspace.store.statistics
  say ("Repository:  " ++ workspace.root)
  say (Store.markerLine (← take (workspace.store.marker? workspace.root)))
  sayAll statistics.report

/-- Prints what generating documents has cost. -/
def costs (repository : String) : Action Unit := do
  let workspace ← enter repository
  sayAll (← take workspace.store.costs).report

/-- Forgets the files that are gone. -/
def cleanup (repository : String) : Action Unit := do
  let workspace ← enter repository
  let files := (← get).files
  let (store, count) ← take (workspace.store.cleanup fun path => !files.exists? path)
  leave { workspace with store }
  say ("Removed " ++ toString count ++ " stale entries.")

def analyze (repository old new : String) (json : Bool) : Action Unit := do
  let files := (← get).files
  let config ← take (Config.load files repository)
  let before ← take ((files.readText old).mapError (Failure.unreadable old))
  let after ← take ((files.readText new).mapError (Failure.unreadable new))
  let analysis := Analysis.between config.scoring before after
  if json then say analysis.toJson.pretty else sayAll analysis.report

/-- The pass over an opened repository. -/
def passOver (workspace : Workspace) (history : History) (force : Bool) (now : String) : Pass :=
  { root := workspace.root
    repository := workspace.root
    history := history
    generator := Generator.outline
    config := workspace.config
    force := force
    now := now }

/-- Makes a pass over a repository; what it did is kept even if it ends early. -/
def pass (repository : String) (history : History) (force : Bool) (now : String) :
    Action Pass.Report := do
  let workspace ← enter repository
  let (result, world) :=
    (passOver workspace history force now).run (← get).files workspace.store
  modify fun scene => { scene with files := world.files }
  leave { workspace with store := world.store }
  take result

/-- Makes a pass over a repository and prints its report. -/
def run (repository : String) (history : History) (force : Bool) (now : String) :
    Action Unit := do
  say (← pass repository history force now).notice

/-- Opens a repository over which passes are going to be made, and prints how many seconds lie
between two of them. -/
def announce (repository : String) (interval : Option Nat) : Action Nat := do
  let workspace ← enter repository
  let seconds := interval.getD workspace.config.pollSeconds
  say ("Watching " ++ workspace.root ++ " every " ++ toString seconds ++ "s (Ctrl-C to stop)")
  return seconds

/-- What a command makes of files. -/
def perform {α : Type} (action : Action α) (files : FileTree) : Except Failure α × Scene :=
  action.run ⟨files, ""⟩

end DocDrift.Command
