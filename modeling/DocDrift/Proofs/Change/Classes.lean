import DocDrift.Proofs.Change.Layout
import DocDrift.Proofs.Change.Validity
import DocDrift.Proofs.Text.Splits

/-!
The classes of changes. Two texts are the same, or they differ in their layout only, in comments
only, or in code; a change is in one class and in no other, and its flags and counts say in which.
-/

set_option autoImplicit false

namespace DocDrift

/-! ### Lines that count -/

namespace Hunk

/-- A line with words is there with its layout and without it. -/
theorem collapsedLines_eq_nil {lines : List Line} :
    collapsedLines lines = [] ↔ ∀ line ∈ lines, Text.words line = [] := by
  simp only [collapsedLines, List.filter_eq_nil_iff, List.forall_mem_map, Bool.not_eq_true',
    Bool.not_eq_false, List.isEmpty_iff, Text.collapse_eq_nil]

theorem changedLines_eq_nil {hunk : Hunk} :
    hunk.changedLines = [] ↔ ∀ line ∈ hunk.removed ++ hunk.added, Text.words line = [] := by
  simp only [changedLines, List.filter_eq_nil_iff, Bool.not_eq_true', Bool.not_eq_false,
    List.isEmpty_iff, Text.trim_eq_nil]

/-- A hunk that changes more than the layout has a line that counts. -/
theorem changedLines_ne_nil {hunk : Hunk} (content : hunk.isLayout = false) :
    hunk.changedLines ≠ [] := by
  intro none
  have blank := changedLines_eq_nil.mp none
  have removed : collapsedLines hunk.removed = [] :=
    collapsedLines_eq_nil.mpr fun line mem => blank line (List.mem_append_left _ mem)
  have added : collapsedLines hunk.added = [] :=
    collapsedLines_eq_nil.mpr fun line mem => blank line (List.mem_append_right _ mem)
  rw [isLayout, removed, added] at content
  cases content

end Hunk

/-! ### Classes -/

inductive ChangeClass
  | same
  | layout
  | comments
  | code

namespace ChangeClass

/-- Which changes from one text to another are in a class. -/
def Has (old new : String) (change : TextChange) : ChangeClass → Prop
  | .same => old = new ∧ change = ⟨false, false, false, false, .none⟩
  | .layout => 0 < change.counts.total ∧ change.layoutOnly = true ∧ change.commentsOnly = false ∧
      change.structural = false ∧ change.semantic = false
  | .comments => 0 < change.counts.total ∧ change.layoutOnly = false ∧ change.commentsOnly = true ∧
      change.structural = false ∧ change.semantic = false
  | .code => 0 < change.counts.total ∧ change.layoutOnly = false ∧ change.commentsOnly = false ∧
      (change.structural = true ∨ change.semantic = true)

variable {old new : String} {change : TextChange}

theorem Has.eq {one other : ChangeClass} (has : one.Has old new change)
    (has' : other.Has old new change) : other = one := by
  cases one <;> cases other <;> simp_all [Has, ChangeCounts.none]

end ChangeClass

namespace TextChange

/-- Whether any flag is set. -/
def flagged (change : TextChange) : Bool :=
  change.layoutOnly || change.commentsOnly || change.structural || change.semantic

/-- Lines some of which are no comments make a change of code, others one of comments. -/
theorem ofLines_class {lines : List Line} (some : lines ≠ []) (counts : ChangeCounts) :
    let code := lines.filter (fun line => !LineKind.isComment line)
    let change : TextChange :=
      { layoutOnly := false
        commentsOnly := lines.any LineKind.isComment && code.isEmpty
        structural := code.any LineKind.isDeclaration
        semantic := code.any (fun line => !LineKind.isDeclaration line)
        counts := counts }
    change.commentsOnly = true ∧ change.structural = false ∧ change.semantic = false ∨
      change.commentsOnly = false ∧ (change.structural = true ∨ change.semantic = true) := by
  dsimp only
  cases code : lines.filter (fun line => !LineKind.isComment line) with
  | nil =>
      refine .inl ⟨?_, rfl, rfl⟩
      obtain ⟨line, mem⟩ := List.exists_mem_of_ne_nil lines some
      have comment := List.filter_eq_nil_iff.mp code line mem
      rw [Bool.not_eq_true', Bool.not_eq_false] at comment
      rw [List.isEmpty_nil, Bool.and_true, List.any_eq_true]
      exact ⟨line, mem, comment⟩
  | cons line rest =>
      refine .inr ⟨Bool.and_false _, ?_⟩
      cases declared : LineKind.isDeclaration line with
      | true => exact .inl (by rw [List.any_cons, declared, Bool.true_or])
      | false => exact .inr (by rw [List.any_cons, declared, Bool.not_false, Bool.true_or])

/-- Hunks that there are make a change of layout, of comments or of code. -/
theorem ofHunks_class (old new : String) {hunks : List Hunk} (some : hunks ≠ []) :
    ∃ found : ChangeClass, found.Has old new (ofHunks old.toList new.toList hunks) := by
  have counted : 0 < (ChangeCounts.ofHunks hunks).total := by
    rw [ChangeCounts.total_ofHunks]
    exact List.length_pos_iff.mpr some
  rw [ofHunks]
  dsimp only
  rw [if_neg (by simpa using some)]
  split
  case isTrue => exact ⟨.layout, counted, rfl, rfl, rfl, rfl⟩
  case isFalse content =>
    rw [Bool.or_eq_true, not_or, Bool.not_eq_true, List.all_eq_false] at content
    obtain ⟨⟨hunk, mem, content⟩, _whole⟩ := content
    rw [Bool.not_eq_true] at content
    have lines : (hunks.filter (fun hunk => !hunk.isLayout)).flatMap Hunk.changedLines ≠ [] := by
      intro none
      have kept : hunk ∈ hunks.filter (fun hunk => !hunk.isLayout) :=
        List.mem_filter.mpr ⟨mem, by rw [content, Bool.not_false]⟩
      exact Hunk.changedLines_ne_nil content (List.flatMap_eq_nil_iff.mp none hunk kept)
    rcases ofLines_class lines (ChangeCounts.ofHunks hunks) with comments | code
    · exact ⟨.comments, counted, rfl, comments⟩
    · exact ⟨.code, counted, rfl, code⟩

theorem between_class (old new : String) :
    ∃ found : ChangeClass, found.Has old new (between old new) := by
  rw [← change_found, Alignment.change]
  by_cases none : (Alignment.found old new).hunks = []
  · refine ⟨.same, hunks_found_eq_nil.mp none, ?_⟩
    rw [none]
    rfl
  · exact ofHunks_class old new none

theorem flagged_of_has {old new : String} {change : TextChange} {found : ChangeClass}
    (has : found.Has old new change) :
    (change.hasChanges = true ↔ found ≠ .same) ∧ (change.flagged = true ↔ found ≠ .same) := by
  cases found with
  | same =>
      obtain ⟨_same, rfl⟩ := has
      simp [hasChanges, flagged, ChangeCounts.none]
  | layout =>
      obtain ⟨counted, layout, _rest⟩ := has
      simp [hasChanges, flagged, counted, layout]
  | comments =>
      obtain ⟨counted, _content, comments, _rest⟩ := has
      simp [hasChanges, flagged, counted, comments]
  | code =>
      obtain ⟨counted, _content, _code, structural | semantic⟩ := has
      · simp [hasChanges, flagged, counted, structural]
      · simp [hasChanges, flagged, counted, semantic]

/-- The change between two texts is in one class and in no other. It is flagged, and counted, just
if the texts differ. -/
theorem one_class (old new : String) :
    (∃! found : ChangeClass, found.Has old new (between old new)) ∧
    ((between old new).hasChanges = true ↔ old ≠ new) ∧
    ((between old new).flagged = true ↔ old ≠ new) := by
  obtain ⟨found, has⟩ := between_class old new
  have differ : found ≠ .same ↔ old ≠ new := by
    rw [not_iff_not]
    constructor
    · rintro rfl
      exact has.1
    · intro same
      have none := hunks_found_eq_nil.mpr same
      have nothing : ChangeClass.Has old new (between old new) .same := by
        refine ⟨same, ?_⟩
        rw [← change_found, Alignment.change, none]
        rfl
      exact ChangeClass.Has.eq nothing has
  obtain ⟨counted, flagged⟩ := flagged_of_has has
  exact ⟨⟨found, has, fun other has' => has.eq has'⟩, counted.trans differ, flagged.trans differ⟩

end TextChange

end DocDrift
