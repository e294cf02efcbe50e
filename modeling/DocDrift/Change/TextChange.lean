import DocDrift.Change.InputFault
import DocDrift.Change.LineDiff
import DocDrift.Change.LineKind

/-!
What kind of change leads from one text to another, judged line by line: a change of layout only,
of comments only, or of declarations and other code.
-/

set_option autoImplicit false

namespace DocDrift

/-- How many lines change, and in how many places. -/
structure ChangeCounts where
  /-- The number of hunks. -/
  total : Nat
  additions : Nat
  deletions : Nat
  modifications : Nat
  deriving DecidableEq, Repr, Inhabited

structure TextChange where
  layoutOnly : Bool
  commentsOnly : Bool
  structural : Bool
  semantic : Bool
  counts : ChangeCounts
  deriving DecidableEq, Repr, Inhabited

namespace ChangeCounts

def none : ChangeCounts := ⟨0, 0, 0, 0⟩

/-- Counts one more hunk. Removed and added lines are paired up as modifications as far as they
go. -/
def withHunk (counts : ChangeCounts) (hunk : Hunk) : ChangeCounts :=
  let paired := min hunk.removed.length hunk.added.length
  { total := counts.total + 1
    additions := counts.additions + (hunk.added.length - paired)
    deletions := counts.deletions + (hunk.removed.length - paired)
    modifications := counts.modifications + paired }

def ofHunks (hunks : List Hunk) : ChangeCounts :=
  hunks.foldl withHunk none

end ChangeCounts

namespace Hunk

/-- The lines of one side that are not blank, without their layout. -/
def collapsedLines (lines : List Line) : List Line :=
  (lines.map Text.collapse).filter (fun line => !line.isEmpty)

def isLayout (hunk : Hunk) : Bool :=
  collapsedLines hunk.removed == collapsedLines hunk.added

/-- The lines on both sides that are not blank. -/
def changedLines (hunk : Hunk) : List Line :=
  (hunk.removed ++ hunk.added).filter (fun line => !(Text.trim line).isEmpty)

end Hunk

namespace TextChange

def hasChanges (change : TextChange) : Bool :=
  0 < change.counts.total

/-- Refuses combinations of flags that no two texts have. -/
def validate (change : TextChange) : Except InputFault Unit :=
  if change.layoutOnly && (change.commentsOnly || change.structural || change.semantic) then
    .error .layoutWithOtherChanges
  else if (change.layoutOnly || change.commentsOnly || change.structural || change.semantic) &&
      change.counts.total == 0 then
    .error .changeWithoutHunks
  else .ok ()

def ofHunks (old new : List Char) (hunks : List Hunk) : TextChange :=
  let counts := ChangeCounts.ofHunks hunks
  if hunks.isEmpty then ⟨false, false, false, false, counts⟩
  else if hunks.all Hunk.isLayout || Text.collapse old == Text.collapse new then
    ⟨true, false, false, false, counts⟩
  else
    let lines := (hunks.filter (fun hunk => !hunk.isLayout)).flatMap Hunk.changedLines
    let code := lines.filter (fun line => !LineKind.isComment line)
    { layoutOnly := false
      commentsOnly := lines.any LineKind.isComment && code.isEmpty
      structural := code.any LineKind.isDeclaration
      semantic := code.any (fun line => !LineKind.isDeclaration line)
      counts := counts }

def between (old new : String) : TextChange :=
  ofHunks old.toList new.toList
    (hunks (lineDiff (Text.terminatedLines old.toList) (Text.terminatedLines new.toList)))

end TextChange

end DocDrift
