import DocDrift.Change.TextChange
import DocDrift.Proofs.Change.Runs
import Mathlib.Data.List.Induction

/-!
What the counts of a change add up to. Every line that goes and every line that comes is counted
once; a modification is one of each. So the counts lead from the number of lines of the old text to
that of the new one, and there are as many hunks as runs of changes.
-/

set_option autoImplicit false

namespace DocDrift

open LineDiff

/-! ### Tallies -/

namespace ChangeCounts

/-- Counts are those of hunks: each changed line is in one tally, a modification being a line that
goes and one that comes, and each hunk is in some tally. -/
structure Tally (counts : ChangeCounts) (hunks : List Hunk) : Prop where
  removed : counts.deletions + counts.modifications = (hunks.flatMap Hunk.removed).length
  added : counts.additions + counts.modifications = (hunks.flatMap Hunk.added).length
  total : counts.total = hunks.length
  most : counts.total ≤ counts.additions + counts.deletions + counts.modifications

theorem tally_none : Tally none [] := ⟨rfl, rfl, rfl, Nat.le_refl _⟩

theorem Tally.withHunk {counts : ChangeCounts} {hunks : List Hunk} (tally : Tally counts hunks)
    {hunk : Hunk} (changed : 0 < hunk.removed.length + hunk.added.length) :
    Tally (counts.withHunk hunk) (hunks ++ [hunk]) := by
  obtain ⟨removed, added, total, most⟩ := tally
  constructor
  · rw [List.flatMap_append, List.flatMap_singleton, List.length_append, ← removed]
    dsimp only [ChangeCounts.withHunk]
    omega
  · rw [List.flatMap_append, List.flatMap_singleton, List.length_append, ← added]
    dsimp only [ChangeCounts.withHunk]
    omega
  · rw [List.length_append, List.length_singleton, ← total]
    rfl
  · dsimp only [ChangeCounts.withHunk]
    omega

theorem tally_ofHunks {hunks : List Hunk}
    (changed : ∀ hunk ∈ hunks, 0 < hunk.removed.length + hunk.added.length) :
    Tally (ofHunks hunks) hunks := by
  induction hunks using List.reverseRecOn with
  | nil => exact tally_none
  | append_singleton rest hunk ih =>
      have earlier := ih fun other mem => changed other (List.mem_append_left _ mem)
      rw [ofHunks, List.foldl_append, List.foldl_cons, List.foldl_nil]
      exact earlier.withHunk (changed hunk (List.mem_append_right _ List.mem_cons_self))

end ChangeCounts

/-- What counts say about the lines of two texts and the edits that lead from the one to the
other. -/
structure ChangeCounts.Conserve (counts : ChangeCounts) (old new : List Line)
    (edits : List Edit) : Prop where
  lines : old.length + counts.additions = new.length + counts.deletions
  added : counts.additions + counts.modifications ≤ new.length
  removed : counts.deletions + counts.modifications ≤ old.length
  total : counts.total ≤ counts.additions + counts.deletions + counts.modifications
  /-- There are as many hunks as runs of changes. -/
  runs : counts.total = (changeRuns (operations edits)).length
  /-- Each line that goes is a deletion or belongs to a modification. -/
  tallyRemoved : counts.deletions + counts.modifications = (removedLines edits).length
  tallyAdded : counts.additions + counts.modifications = (addedLines edits).length
  /-- Each hunk has the lines of one run of changes, in order. -/
  hunks : hunks edits = (changeRuns (operations edits)).map Hunk.ofRun
  /-- Each line that goes stands in one hunk. -/
  hunksRemoved : (DocDrift.hunks edits).flatMap Hunk.removed = removedLines edits
  hunksAdded : (DocDrift.hunks edits).flatMap Hunk.added = addedLines edits

/-- The counts of a change conserve lines: what the old text has and what comes is what the new one
has and what goes, and each changed line is counted once and stands in one hunk. -/
theorem TextChange.counts_conserve (old new : String) :
    (between old new).counts.Conserve (Text.terminatedLines old.toList)
      (Text.terminatedLines new.toList)
      (lineDiff (Text.terminatedLines old.toList) (Text.terminatedLines new.toList)) := by
  generalize before : Text.terminatedLines old.toList = oldLines
  generalize after : Text.terminatedLines new.toList = newLines
  have runs := hunks_eq_runs (keepsSome_lineDiff oldLines newLines)
  have length := length_sides (lineDiff oldLines newLines)
  rw [sides_lineDiff] at length
  dsimp only at length
  have counts : (between old new).counts =
      ChangeCounts.ofHunks (DocDrift.hunks (lineDiff oldLines newLines)) := by
    rw [between, before, after, ofHunks]
    dsimp only
    split
    · rfl
    · split <;> rfl
  obtain ⟨removed, added, total, most⟩ :=
    ChangeCounts.tally_ofHunks fun (hunk : Hunk)
      (mem : hunk ∈ DocDrift.hunks (lineDiff oldLines newLines)) => changed_hunksFrom mem
  rw [removed_hunks] at removed
  rw [added_hunks] at added
  rw [counts]
  refine ⟨?_, ?_, ?_, most, ?_, removed, added, runs, removed_hunks _, added_hunks _⟩
  · omega
  · omega
  · omega
  · rw [total, runs, List.length_map]

end DocDrift
