import DocDrift.Keyed
import DocDrift.Path
import DocDrift.Store
import DocDrift.Text.Utf8

/-!
A tree of directories and files, and how a path leads through it: from the top or from the current
directory, part by part, with a directory needed at every step. A store is a file with a form of
its own.
-/

set_option autoImplicit false

namespace DocDrift

/-- The names that lead from the top to a file or a directory. -/
abbrev Place := List String

/-- What is found at a place. -/
inductive Node
  | directory
  | file (contents : ByteArray)
  | store (store : Store)
  deriving Inhabited

/-- A tree; the top is always a directory. -/
structure FileTree where
  /-- The current directory. -/
  here : Place
  nodes : Keyed Place Node
  deriving Inhabited

namespace FileTree

/-- A tree with an empty current directory below the top. -/
def withHere (name : String) : FileTree :=
  ⟨[name], [([name], .directory)]⟩

def node? (tree : FileTree) (place : Place) : Option Node :=
  if place.isEmpty then some .directory else tree.nodes.find? place

def put (tree : FileTree) (place : Place) (node : Node) : FileTree :=
  { tree with nodes := Keyed.put place node tree.nodes }

/-- The tree without a place and what is below it. -/
def remove (tree : FileTree) (place : Place) : FileTree :=
  { tree with nodes := Keyed.without (fun other => place.isPrefixOf other) tree.nodes }

/-! ### Following paths -/

def start (tree : FileTree) (path : String) : Place :=
  if Path.isAbsolute path then [] else tree.here

/-- Accepts a place with a directory. -/
def needDirectory (tree : FileTree) (place : Place) : Except FileFault Unit :=
  match tree.node? place with
  | some .directory => .ok ()
  | some _ => .error .notDirectory
  | none => .error .notFound

/-- The place to which parts of a path lead from a place. -/
def walk (tree : FileTree) : Place → List (List Char) → Except FileFault Place
  | place, [] => .ok place
  | place, part :: rest => do
      tree.needDirectory place
      if Path.isIdle part then walk tree place rest
      else if part == Path.up then walk tree place.dropLast rest
      else
        let next := place ++ [String.ofList part]
        if (tree.node? next).isSome then walk tree next rest else .error .notFound

def locate (tree : FileTree) (path : String) : Except FileFault Place :=
  if path.isEmpty then .error .notFound
  else tree.walk (tree.start path) (Path.parts path.toList)

/-- The place that the last of some parts names, whether or not something is there; nothing if it
names no place of its own. The parts are given last first. -/
def slot? (tree : FileTree) (place : Place) :
    List (List Char) → Except FileFault (Option Place)
  | [] => .ok none
  | last :: before => do
      let directory ← tree.walk place before.reverse
      tree.needDirectory directory
      if Path.isIdle last || last == Path.up then return none
      else return some (directory ++ [String.ofList last])

/-! ### Questions -/

def nodeAt (tree : FileTree) (path : String) : Except FileFault Node := do
  match tree.node? (← tree.locate path) with
  | some node => return node
  | none => .error .notFound

def exists? (tree : FileTree) (path : String) : Bool :=
  (tree.locate path).isOk

/-- The contents of a file; those of a store have no meaning here. -/
def read (tree : FileTree) (path : String) : Except FileFault ByteArray := do
  match ← tree.nodeAt path with
  | .directory => .error .isDirectory
  | .file contents => return contents
  | .store _ => return .empty

def readText (tree : FileTree) (path : String) : Except FileFault String := do
  match String.fromUTF8? (← tree.read path) with
  | some text => return text
  | none => .error .notText

/-- The text of a place as an absolute path. -/
def placeText (place : Place) : String :=
  "/" ++ "/".intercalate place

/-- The absolute path to which a path leads. -/
def canonical (tree : FileTree) (path : String) : Except FileFault String :=
  placeText <$> tree.locate path

/-! ### Changes -/

/-- Writes a file in a directory that is there. -/
def write (tree : FileTree) (path : String) (contents : ByteArray) :
    Except FileFault FileTree := do
  if path.isEmpty then .error .notFound
  else
    match ← tree.slot? (tree.start path) (Path.parts path.toList).reverse with
    | none => .error .isDirectory
    | some place =>
        match tree.node? place with
        | some .directory => .error .isDirectory
        | _ => return tree.put place (.file contents)

/-- Makes the directory that the last of some steps names. The steps are given last first. -/
def makeDirectory (tree : FileTree) (place : Place) (steps : List (List Char)) :
    Except FileFault FileTree := do
  match ← tree.slot? place steps with
  | none => .error .alreadyExists
  | some place =>
      if (tree.node? place).isSome then .error .alreadyExists
      else return tree.put place .directory

/-- Whether steps lead to a directory. The steps are given last first. -/
def isDirectory (tree : FileTree) (place : Place) (steps : List (List Char)) : Bool :=
  match tree.walk place steps.reverse with
  | .ok place => (tree.needDirectory place).isOk
  | .error _ => false

/-- Makes a directory and those on the way to it, as far as they are not there. The steps are given
last first. -/
def makeDirectories (tree : FileTree) (place : Place) :
    List (List Char) → Except FileFault FileTree
  | [] => .ok tree
  | last :: before =>
      match tree.makeDirectory place (last :: before) with
      | .ok made => .ok made
      | .error .notFound => do
          let tree ← makeDirectories tree place before
          match tree.makeDirectory place (last :: before) with
          | .ok made => return made
          | .error fault =>
              if tree.isDirectory place (last :: before) then return tree else .error fault
      | .error fault =>
          if tree.isDirectory place (last :: before) then .ok tree else .error fault

def makeAll (tree : FileTree) (path : String) : Except FileFault FileTree :=
  tree.makeDirectories (tree.start path) (Path.steps path).reverse

def makeParent (tree : FileTree) (path : String) : Except FileFault FileTree :=
  tree.makeDirectories (tree.start path) (Path.steps path).reverse.tail

def writeBelow (tree : FileTree) (path : String) (contents : ByteArray) :
    Except FileFault FileTree := do
  (← tree.makeParent path).write path contents

/-- The tree without the file or directory at the end of a path. -/
def delete (tree : FileTree) (path : String) : Except FileFault FileTree := do
  return tree.remove (← tree.locate path)

end FileTree

end DocDrift
