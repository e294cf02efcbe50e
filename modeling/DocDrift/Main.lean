import DocDrift.Command
import DocDrift.Store.Encoding

/-!
The program: it reads the files that a command works on, lets the command work on them, prints what
the command printed, and writes the files that have changed. No history is connected to it, so a
pass ends with the failure to ask for the current commit.
-/

set_option autoImplicit false

namespace DocDrift.Main

/-! ### Files -/

/-- What a file holds. -/
def nodeOf (contents : ByteArray) : Node :=
  match (String.fromUTF8? contents).bind Store.ofText? with
  | some store => .store store
  | none => .file contents

def placeOf (path : String) : Place :=
  (Path.steps path).map String.ofList

/-- The directories that lead to a place. -/
def directoriesTo (place : Place) : List (Place × Node) :=
  (List.range place.length).tail.map fun count => (place.take count, .directory)

/-- The directory of version control, which is left alone. -/
def historyDirectory : String := ".git"

/-- Reads an item of a directory, and whatever lies below it. -/
partial def nodesAt (above : Place) (item : IO.FS.DirEntry) : IO (List (Place × Node)) := do
  let place := above ++ [item.fileName]
  match (← item.path.metadata).type with
  | .dir =>
      if item.fileName == historyDirectory then return []
      let items ← item.path.readDir
      let below ← items.toList.mapM fun other =>
        try nodesAt place other catch _ => return []
      return (place, .directory) :: below.flatten
  | .file => return [(place, nodeOf (← IO.FS.readBinFile item.path))]
  | _ => return []

/-- Adds what a path leads to, unless it has been read already. -/
def addPath (known : List Place × Keyed Place Node) (path : String) :
    IO (List Place × Keyed Place Node) := do
  try
    let real ← IO.FS.realPath path
    let place := placeOf real.toString
    if known.1.any (fun other => other.isPrefixOf place) then return known
    let own ←
      if ← real.isDir then
        let items ← real.readDir
        let below ← items.toList.mapM (nodesAt place)
        pure ((place, Node.directory) :: below.flatten)
      else pure [(place, nodeOf (← IO.FS.readBinFile real))]
    return (place :: known.1, known.2 ++ directoriesTo place ++ own)
  catch _ => return known

/-- The tree of the files that some paths lead to. -/
def loadTree (paths : List String) : IO FileTree := do
  let here := placeOf (← IO.currentDir).toString
  let (_, nodes) ← ("." :: paths).foldlM addPath ([], [])
  return ⟨here, nodes⟩

/-- The bytes that a node is written as; a directory has none. -/
def bytesOf? : Node → Option ByteArray
  | .directory => none
  | .file contents => some contents
  | .store store => some store.render.toUTF8

def sameNode (old new : Node) : Bool :=
  bytesOf? old == bytesOf? new

/-- The nodes that have changed or are new. Nodes keep their order, and new ones come last. -/
def changedNodes : Keyed Place Node → Keyed Place Node → List (Place × Node)
  | old :: before, new :: after =>
      if sameNode old.2 new.2 then changedNodes before after
      else new :: changedNodes before after
  | _, after => after

/-- Writes what has changed. -/
def saveTree (before after : FileTree) : IO Unit :=
  (changedNodes before.nodes after.nodes).forM fun (place, node) =>
    match bytesOf? node with
    | none => IO.FS.createDirAll (FileTree.placeText place)
    | some contents => IO.FS.writeBinFile (FileTree.placeText place) contents

/-! ### Commands -/

def history : History :=
  .silent "no history is connected"

/-- The time that passes write; without a history none of them gets as far as writing it. -/
def now : String := ""

def pathsOf (invocation : Command.Invocation) : List String :=
  invocation.repository ::
    match invocation.task with
    | .analyze old new _ => [old, new]
    | _ => []

/-- Performs a command on the files of some paths; nothing comes back if it fails. -/
def performOn {α : Type} (paths : List String) (action : Command.Action α) :
    IO (Option α) := do
  let before ← loadTree paths
  let (result, scene) := Command.perform action before
  saveTree before scene.files
  IO.print scene.printed
  match result with
  | .ok value => return some value
  | .error failure =>
      IO.eprintln ("Error: " ++ failure.message)
      return none

/-- Makes passes at intervals; one that fails is followed by the next. -/
partial def watch (repository : String) (seconds : Nat) : IO Unit := do
  let _ ← performOn [repository] (Command.run repository history false now)
  IO.sleep (seconds * 1000).toUInt32
  watch repository seconds

def performTask (invocation : Command.Invocation) : IO (Option Unit) := do
  let repository := invocation.repository
  let paths := pathsOf invocation
  match invocation.task with
  | .init => performOn paths (Command.init repository)
  | .run force => performOn paths (Command.run repository history force now)
  | .watch interval =>
      match ← performOn paths (Command.announce repository interval) with
      | some seconds => some <$> watch repository seconds
      | none => return none
  | .analyze old new json => performOn paths (Command.analyze repository old new json)
  | .status => performOn paths (Command.status repository)
  | .costs => performOn paths (Command.costs repository)
  | .cleanup => performOn paths (Command.cleanup repository)

/-! ### The command line -/

def usageText : String :=
  "Usage: docwatch [--repo <PATH>] <COMMAND>\n\nCommands:\n" ++
  "  init                       Create config and state store for a repository\n" ++
  "  run [--force]              Run one evaluation pass over files changed since the last pass\n" ++
  "  watch [--interval <SECS>]  Poll for new commits and run a pass for each\n" ++
  "  analyze <OLD> <NEW> [--json]  Score the change between two versions of a file\n" ++
  "  status                     Show store statistics and the commit marker\n" ++
  "  costs                      Show token usage and cost totals\n" ++
  "  cleanup                    Drop ledger entries for files deleted from disk"

/-- Answers arguments that make no command line, and says how the program ends. -/
def answerFault : Command.UsageFault → IO UInt32
  | .helpWanted => do
      IO.println usageText
      return 0
  | .versionWanted => do
      IO.println "docwatch 0.1.0"
      return 0
  | _ => do
      IO.eprintln usageText
      return 2

def run (arguments : List String) : IO UInt32 := do
  match Command.Invocation.ofArguments arguments with
  | .error fault => answerFault fault
  | .ok invocation =>
      match ← performTask invocation with
      | some () => return 0
      | none => return 1

end DocDrift.Main

def main (arguments : List String) : IO UInt32 :=
  DocDrift.Main.run arguments
