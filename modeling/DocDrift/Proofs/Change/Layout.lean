import DocDrift.Change.TextChange
import DocDrift.Proofs.Change.LineDiff
import DocDrift.Proofs.Text.Words

/-!
Changes of layout. Whether only the layout of a text changes is judged hunk by hunk, but it does not
depend on how the lines of the two texts were matched: it holds just if the texts differ and have
the same words.
-/

set_option autoImplicit false

namespace DocDrift

namespace Hunk

theorem words_collapsedLines (lines : List Line) :
    (collapsedLines lines).flatMap Text.words = lines.flatMap Text.words := by
  induction lines with
  | nil => rfl
  | cons line rest ih =>
      have same := Text.words_collapse line
      rw [collapsedLines, List.map_cons, List.flatMap_cons, ← ih]
      cases collapsed : Text.collapse line with
      | nil =>
          rw [collapsed, Text.words_nil] at same
          rw [← same]
          rfl
      | cons c others =>
          rw [collapsed] at same
          rw [← same]
          exact List.flatMap_cons

theorem words_of_isLayout {hunk : Hunk} (layout : hunk.isLayout = true) :
    hunk.removed.flatMap Text.words = hunk.added.flatMap Text.words := by
  rw [isLayout, beq_iff_eq] at layout
  rw [← words_collapsedLines hunk.removed, layout, words_collapsedLines]

end Hunk

/-! ### Alignments -/

/-- One way to match the lines of two texts: edits that lead from the lines of the one to those of
the other. -/
structure Alignment (old new : String) where
  edits : List Edit
  leads : LineDiff.sides edits =
    (Text.terminatedLines old.toList, Text.terminatedLines new.toList)

namespace Alignment

variable {old new : String}

def hunks (alignment : Alignment old new) : List Hunk :=
  DocDrift.hunks alignment.edits

def change (alignment : Alignment old new) : TextChange :=
  .ofHunks old.toList new.toList alignment.hunks

/-- The alignment that the line comparison finds. -/
def found (old new : String) : Alignment old new :=
  ⟨lineDiff (Text.terminatedLines old.toList) (Text.terminatedLines new.toList),
    sides_lineDiff _ _⟩

/-- The alignment that matches no line at all. -/
def replacing (old new : String) : Alignment old new :=
  ⟨[.remove (Text.terminatedLines old.toList), .add (Text.terminatedLines new.toList)],
    LineDiff.sides_replacing _ _⟩

theorem eq_of_hunks_eq_nil (alignment : Alignment old new) (none : alignment.hunks = []) :
    old = new := by
  have same := eq_of_hunks_nil none
  rw [alignment.leads] at same
  have texts := congrArg List.flatten same
  rw [Text.flatten_terminatedLines, Text.flatten_terminatedLines] at texts
  exact String.toList_injective texts

theorem words_of_isLayout (alignment : Alignment old new)
    (layout : alignment.hunks.all Hunk.isLayout = true) :
    Text.words old.toList = Text.words new.toList := by
  rw [List.all_eq_true] at layout
  have every : ∀ hunk ∈ hunksFrom ⟨[], []⟩ alignment.edits,
      hunk.removed.flatMap Text.words = hunk.added.flatMap Text.words :=
    fun hunk mem => Hunk.words_of_isLayout (layout hunk mem)
  have same := read_hunksFrom (fun lines => lines.flatMap Text.words)
    (fun _ _ => List.flatMap_append) every
  rw [alignment.leads, List.nil_append, List.nil_append] at same
  rw [← Text.flatMap_words_terminatedLines old.toList, same, Text.flatMap_words_terminatedLines]

theorem layoutOnly_change_iff (alignment : Alignment old new) :
    alignment.change.layoutOnly = true ↔
      alignment.hunks ≠ [] ∧ Text.words old.toList = Text.words new.toList := by
  rw [change, TextChange.ofHunks]
  by_cases none : alignment.hunks = []
  · simp [none]
  · have some : alignment.hunks.isEmpty = false := by simpa using none
    rw [some, if_neg Bool.false_ne_true]
    split
    case isTrue layout =>
      rw [Bool.or_eq_true, beq_iff_eq, Text.collapse_eq_iff] at layout
      -- hunk by hunk or as a whole: either test finds the same words
      have same : Text.words old.toList = Text.words new.toList := by
        rcases layout with every | whole
        · exact alignment.words_of_isLayout every
        · exact whole
      simp [none, same]
    case isFalse other =>
      rw [Bool.or_eq_true, beq_iff_eq, Text.collapse_eq_iff, not_or] at other
      simp [other.2]

end Alignment

/-! ### The change between two texts -/

namespace TextChange

theorem change_found (old new : String) : (Alignment.found old new).change = between old new := rfl

theorem hunks_found_eq_nil {old new : String} :
    (Alignment.found old new).hunks = [] ↔ old = new := by
  constructor
  · exact (Alignment.found old new).eq_of_hunks_eq_nil
  · rintro rfl
    change hunks (lineDiff _ _) = []
    rw [lineDiff_self, hunks_keeping]

theorem layoutOnly_iff (old new : String) :
    (between old new).layoutOnly = true ↔
      old ≠ new ∧ Text.words old.toList = Text.words new.toList := by
  rw [← change_found, Alignment.layoutOnly_change_iff, ne_eq, hunks_found_eq_nil]

theorem layoutOnly_comm (old new : String) :
    (between old new).layoutOnly = (between new old).layoutOnly := by
  rw [Bool.eq_iff_iff, layoutOnly_iff, layoutOnly_iff]
  exact and_congr ne_comm eq_comm

/-- However the lines of two different texts are matched, the change is found to be one of layout or
not. -/
theorem layoutOnly_of_alignment {old new : String} (alignment : Alignment old new)
    (differ : old ≠ new) : alignment.change.layoutOnly = (between old new).layoutOnly := by
  have some : alignment.hunks ≠ [] := fun none => differ (alignment.eq_of_hunks_eq_nil none)
  rw [Bool.eq_iff_iff, Alignment.layoutOnly_change_iff, layoutOnly_iff]
  simp [some, differ]

/-- A change is one of layout just if the texts differ and have the same words. So it does not
matter which text is the old one, nor how their lines are matched; and hunks that all change the
layout only are never those of texts that differ in more than their layout. -/
theorem layout_by_words (old new : String) :
    ((between old new).layoutOnly = true ↔
      old ≠ new ∧ Text.words old.toList = Text.words new.toList) ∧
    (between old new).layoutOnly = (between new old).layoutOnly ∧
    ∀ alignment : Alignment old new,
      (alignment.hunks.all Hunk.isLayout = true →
        Text.collapse old.toList = Text.collapse new.toList) ∧
      (old ≠ new → alignment.change.layoutOnly = (between old new).layoutOnly) := by
  refine ⟨layoutOnly_iff old new, layoutOnly_comm old new, ?_⟩
  intro alignment
  constructor
  · intro layout
    exact Text.collapse_eq_iff.mpr (alignment.words_of_isLayout layout)
  · exact layoutOnly_of_alignment alignment

def tightText : String := "a b\r\nc"

def looseText : String := " a  b\n\n\tc\r"

/-- A line is indented, a blank line comes in and lines end otherwise; none of them is matched. -/
theorem layout_by_words_of_indented :
    ((Alignment.replacing tightText looseText).hunks.all Hunk.isLayout = true ∧
      Text.collapse tightText.toList = Text.collapse looseText.toList) ∧
    tightText ≠ looseText ∧
      (Alignment.replacing tightText looseText).change.layoutOnly =
        (between tightText looseText).layoutOnly := by
  have layout : (Alignment.replacing tightText looseText).hunks.all Hunk.isLayout = true := by
    decide +kernel
  have differ : tightText ≠ looseText := by decide
  have held := (layout_by_words tightText looseText).2.2 (.replacing tightText looseText)
  exact ⟨⟨layout, held.1 layout⟩, differ, held.2 differ⟩

end TextChange

end DocDrift
