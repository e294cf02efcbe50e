import DocDrift.Json.Value

/-!
TOML documents, between their text and the tree of values that they describe: a document is a list
of statements, each of which opens a table or sets a value. `Document.tree?` follows the statements
one after the other. A table can be described once: what closes it to later statements is how it
came about.
-/

set_option autoImplicit false

namespace DocDrift.Toml

abbrev KeyPath := List String

/-- A value as it is written. -/
inductive Value
  | boolean (value : Bool)
  | integer (value : Int)
  | float (value : Float)
  | text (value : String)
  /-- A date, a time of day, or both. -/
  | moment (text : String)
  | list (items : List Value)
  /-- A table between braces, with its keys in the order of the text. -/
  | inline (entries : List (KeyPath × Value))
  deriving Inhabited

inductive Statement
  /-- Opens a table. -/
  | table (path : KeyPath)
  /-- Opens another table of a list of tables. -/
  | element (path : KeyPath)
  /-- Sets a value in the table opened last. -/
  | entry (path : KeyPath) (value : Value)

/-- The statements of a text in their order. -/
abbrev Document := List Statement

/-! ### Trees -/

/-- How a table came about. -/
inductive Origin
  /-- By a statement that opens it. -/
  | opened
  /-- As part of the path to an opened table. -/
  | passed
  /-- As part of a path with dots to a value. -/
  | dotted
  deriving DecidableEq

/-- What is set under a key. -/
inductive Tree
  | value (json : Json)
  | table (origin : Origin) (entries : List (String × Tree))
  /-- A list of opened tables. -/
  | elements (tables : List (List (String × Tree)))

abbrev Entries := List (String × Tree)

namespace Entries

def find? (entries : Entries) (key : String) : Option Tree :=
  (List.find? (fun entry => entry.1 == key) entries).map Prod.snd

def set (key : String) (tree : Tree) : Entries → Entries
  | [] => [(key, tree)]
  | entry :: rest => if entry.1 == key then (key, tree) :: rest else entry :: set key tree rest

end Entries

/-- Changes the table at the end of a path; tables on the way are made if there are none. A path
with dots does not lead through a table that was opened. -/
def changeAt (dots : Bool) (change : Origin → Entries → Option Entries) :
    KeyPath → Origin → Entries → Option Entries
  | [], origin, entries => change origin entries
  | key :: path, _, entries =>
      match entries.find? key with
      | none => do
          let origin := if dots then Origin.dotted else Origin.passed
          return entries.set key (.table origin (← changeAt dots change path origin []))
      | some (.table origin inner) =>
          if dots && origin == .opened then none
          else do return entries.set key (.table origin (← changeAt dots change path origin inner))
      | some (.elements tables) => do
          let last ← changeAt dots change path .opened (tables.getLast?.getD [])
          return entries.set key (.elements (tables.dropLast ++ [last]))
      | some (.value _) => none

def KeyPath.split (path : KeyPath) : KeyPath × String :=
  (path.dropLast, path.getLast?.getD "")

def openTable (path : KeyPath) (entries : Entries) : Option Entries :=
  let (before, key) := path.split
  changeAt false (fun _ inner =>
    match inner.find? key with
    | none => some (inner.set key (.table .opened []))
    | some (.table .passed found) => some (inner.set key (.table .opened found))
    | some _ => none) before .opened entries

/-- Opens another table of a list. -/
def openElement (path : KeyPath) (entries : Entries) : Option Entries :=
  let (before, key) := path.split
  changeAt false (fun _ inner =>
    match inner.find? key with
    | none => some (inner.set key (.elements [[]]))
    | some (.elements tables) => some (inner.set key (.elements (tables ++ [[]])))
    | some _ => none) before .opened entries

/-- Sets a value under a path of keys in a table; the last table on the path must have come about
by a path with dots, unless it is the table itself. -/
def setValue (path : KeyPath) (json : Json) (origin : Origin) (entries : Entries) :
    Option Entries :=
  let (before, key) := path.split
  changeAt true (fun reached inner =>
    if !before.isEmpty && reached != .dotted then none
    else if (inner.find? key).isSome then none
    else some (inner.set key (.value json))) before origin entries

mutual

def Tree.toJson : Tree → Json
  | .value json => json
  | .table _ entries => .object (entriesToJson entries)
  | .elements tables => .list (tablesToJson tables)

def entriesToJson : List (String × Tree) → List (String × Json)
  | [] => []
  | (key, tree) :: rest => (key, tree.toJson) :: entriesToJson rest

def tablesToJson : List (List (String × Tree)) → List Json
  | [] => []
  | entries :: rest => .object (entriesToJson entries) :: tablesToJson rest

end

mutual

/-- The value that is written; keys between braces are subject to the same rules as others. -/
def Value.toJson? : Value → Option Json
  | .boolean value => some (.bool value)
  | .integer value => some (.whole value)
  | .float value => some (.real value)
  | .text value => some (.text value)
  | .moment text => some (.object [("moment", .text text)])
  | .list items => (itemsToJson? items).map .list
  | .inline entries => (inlineEntries? [] entries).map (fun entries => .object (entriesToJson entries))

def itemsToJson? : List Value → Option (List Json)
  | [] => some []
  | item :: rest => do return (← item.toJson?) :: (← itemsToJson? rest)

def inlineEntries? (done : Entries) : List (KeyPath × Value) → Option Entries
  | [] => some done
  | (path, value) :: rest => do
      inlineEntries? (← setValue path (← value.toJson?) .opened done) rest

end

/-- Follows statements; the path of the table opened last comes along. -/
def Document.follow : KeyPath → Entries → Document → Option Entries
  | _, entries, [] => some entries
  | _, entries, .table path :: rest => do follow path (← openTable path entries) rest
  | _, entries, .element path :: rest => do follow path (← openElement path entries) rest
  | opened, entries, .entry path value :: rest => do
      let json ← value.toJson?
      follow opened (← changeAt false (setValue path json) opened .opened entries) rest

/-- The tree of values that a document describes, if it describes no table or value twice. -/
def Document.tree? (document : Document) : Option Json :=
  (Document.follow [] [] document).map (fun entries => .object (entriesToJson entries))

end DocDrift.Toml
