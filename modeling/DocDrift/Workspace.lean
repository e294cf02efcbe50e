import DocDrift.Config.File

/-!
An opened repository: the directory that its path leads to, its configuration and its store. The
store is a file of the tree; opening makes it, and the directory that it lies in, where they are
not there.
-/

set_option autoImplicit false

namespace DocDrift

structure Workspace where
  /-- The absolute path of the repository. -/
  root : String
  config : Config
  store : Store

namespace Workspace

/-- The store in a node: a file without contents is one without rows, and no other plain file is
one. -/
def storeOf? : Option Node → Option Store
  | none => some .empty
  | some .directory => none
  | some (.file contents) => if contents.isEmpty then some .empty else none
  | some (.store store) => some store.prepared

def writeStore (files : FileTree) (path : String) (store : Store) : Except Failure FileTree :=
  match files.slot? (files.start path) (Path.parts path.toList).reverse with
  | .ok (some place) => .ok (files.put place (.store store))
  | _ => .error .store

def openStore (files : FileTree) (path : String) : Except Failure (FileTree × Store) := do
  let files ← (files.makeParent path).mapError Failure.file
  match storeOf? (files.nodeAt path).toOption with
  | some store => return (← writeStore files path store, store)
  | none => .error .store

/-- Opens a repository. -/
def enter (files : FileTree) (repository : String) : Except Failure (FileTree × Workspace) := do
  let root ← (files.canonical repository).mapError (Failure.unreadable repository)
  let config ← Config.load files root
  let (files, store) ← openStore files (config.storeIn root)
  return (files, ⟨root, config, store⟩)

/-- The files with what a repository has come to keep in its store. -/
def leave (workspace : Workspace) (files : FileTree) : Except Failure FileTree :=
  writeStore files (workspace.config.storeIn workspace.root) workspace.store

end Workspace

end DocDrift
