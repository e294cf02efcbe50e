import DocDrift.Config
import DocDrift.FileTree
import DocDrift.Text.Blank

/-!
The ignore file of a repository keeps the store out of version control. The entries stand in a
block between two marker lines, so that the block can be found and brought up to date; everything
outside the block belongs to the user.
-/

set_option autoImplicit false

namespace DocDrift.IgnoreFile

def blockStart : String := "# >>> docwatch state"

def blockEnd : String := "# <<< docwatch state"

def block : String :=
  blockStart ++ "\n/" ++ Config.stateDirectory ++ "/*.db\n/" ++ Config.stateDirectory ++
    "/*.db-*\n" ++ blockEnd

/-- What stands before the first occurrence of some characters, and what stands after it. -/
def splitAtFirst? (mark : List Char) : List Char → Option (List Char × List Char)
  | [] => if mark.isEmpty then some ([], []) else none
  | c :: rest =>
      if mark.isPrefixOf (c :: rest) then some ([], (c :: rest).drop mark.length)
      else (splitAtFirst? mark rest).map fun found => (c :: found.1, found.2)

/-- What bringing the block up to date makes of a text. -/
inductive Update
  | upToDate
  | changed (text : List Char)
  /-- The end of a block stands before the first start. -/
  | outOfOrder
  deriving DecidableEq, Repr

/-- The text with the block appended; blanks at the end of the text go. -/
def appended (text : List Char) : List Char :=
  if (Text.trim text).isEmpty then block.toList ++ ['\n']
  else Text.trimEnd text ++ ['\n', '\n'] ++ block.toList ++ ['\n']

/-- Brings the block of a text up to date, or appends it. -/
def update (text : List Char) : Update :=
  match splitAtFirst? blockStart.toList text, splitAtFirst? blockEnd.toList text with
  | some (before, _), some (upToEnd, after) =>
      if before.length < upToEnd.length then
        let inside := (upToEnd ++ blockEnd.toList).drop before.length
        if inside == block.toList then .upToDate
        else .changed (before ++ block.toList ++ after)
      else .outOfOrder
  | _, _ => .changed (appended text)

def pathIn (root : String) : String :=
  Path.join root ".gitignore"

/-- Brings the ignore file of a repository up to date; whether it was written comes second. -/
def ensure (files : FileTree) (root : String) : Except Failure (FileTree × Bool) := do
  let path := pathIn root
  let text ←
    if files.exists? path then (files.readText path).mapError Failure.file else pure ""
  match update text.toList with
  | .upToDate => return (files, false)
  | .outOfOrder => .error (.other ".gitignore markers are out of order")
  | .changed text =>
      let files ← (files.write path (String.ofList text).toUTF8).mapError Failure.file
      return (files, true)

end DocDrift.IgnoreFile
