import DocDrift.Change.LineDiff
import Mathlib.Data.List.Basic

/-!
What the line comparison of two texts is true to. However the edits are found and moved, the lines
that they keep and remove are the old text and the lines that they keep and add are the new one. Two
texts without a change between them are the same.
-/

set_option autoImplicit false

namespace DocDrift

namespace LineDiff

/-- The two texts that edits lead from and to. -/
def sides (edits : List Edit) : List Line × List Line :=
  (edits.flatMap Edit.oldLines, edits.flatMap Edit.newLines)

theorem sides_nil : sides [] = ([], []) := rfl

theorem sides_append (edits more : List Edit) :
    sides (edits ++ more) =
      ((sides edits).1 ++ (sides more).1, (sides edits).2 ++ (sides more).2) := by
  rw [sides, List.flatMap_append, List.flatMap_append]
  rfl

theorem sides_cons (edit : Edit) (more : List Edit) :
    sides (edit :: more) =
      (edit.oldLines ++ (sides more).1, edit.newLines ++ (sides more).2) := by
  rw [sides, List.flatMap_cons, List.flatMap_cons]
  rfl

/-! ### Lines in common -/

theorem take_commonStart (left right : List Line) :
    left.take (commonStart left right) = right.take (commonStart left right) := by
  induction left generalizing right with
  | nil => simp [commonStart]
  | cons a rest ih =>
      cases right with
      | nil => simp [commonStart]
      | cons b others =>
          rw [commonStart]
          by_cases same : a = b
          · rw [if_pos same, List.take_succ_cons, List.take_succ_cons, same, ih others]
          · rw [if_neg same, List.take_zero, List.take_zero]

theorem drop_commonEnd (left right : List Line) :
    left.drop (left.length - commonEnd left right) =
      right.drop (right.length - commonEnd left right) := by
  have ends : ∀ list : List Line, ∀ count : Nat,
      list.drop (list.length - count) = (list.reverse.take count).reverse := by
    intro list count
    rw [List.reverse_take, List.reverse_reverse, List.length_reverse]
  rw [ends, ends, commonEnd, take_commonStart]

/-! ### Finding edits -/

theorem sides_keeping (lines : List Line) : sides (keeping lines) = (lines, lines) := by
  unfold keeping
  split
  case isTrue none =>
    rw [none]
    rfl
  case isFalse some => simp [sides, Edit.oldLines, Edit.newLines, Edit.lines]

theorem sides_replacing (old new : List Line) : sides [.remove old, .add new] = (old, new) := by
  simp [sides, Edit.oldLines, Edit.newLines, Edit.lines]

/-- Edits that are found lead from the one text to the other. -/
theorem sides_editsWithin (depth : Nat) (old new : List Line) :
    sides (editsWithin depth old new) = (old, new) := by
  induction depth generalizing old new with
  | zero => exact sides_replacing old new
  | succ depth ih =>
      rw [editsWithin]
      have start := take_commonStart old new
      generalize commonStart old new = first at start
      have stop := drop_commonEnd (old.drop first) (new.drop first)
      generalize commonEnd (old.drop first) (new.drop first) = last at stop
      generalize oldRest : old.drop first = oldTail at stop
      generalize newRest : new.drop first = newTail at stop
      have between : ∀ edits : List Edit,
          sides edits = (oldTail.take (oldTail.length - last), newTail.take (newTail.length - last)) →
          sides (keeping (old.take first) ++ edits ++
            keeping (oldTail.drop (oldTail.length - last))) = (old, new) := by
        intro edits found
        rw [sides_append, sides_append, sides_keeping, sides_keeping, found]
        dsimp only
        congr 1
        · rw [List.append_assoc, List.take_append_drop, ← oldRest, List.take_append_drop]
        · rw [List.append_assoc, stop, List.take_append_drop, start, ← newRest,
            List.take_append_drop]
      apply between
      generalize oldTail.take (oldTail.length - last) = oldPart
      generalize newTail.take (newTail.length - last) = newPart
      split
      case isTrue none =>
        rw [none.1, none.2]
        rfl
      case isFalse =>
        split
        case isTrue none =>
          rw [none]
          simp [sides, Edit.oldLines, Edit.newLines, Edit.lines]
        case isFalse =>
          split
          case isTrue none =>
            rw [none]
            simp [sides, Edit.oldLines, Edit.newLines, Edit.lines]
          case isFalse =>
            split
            · rw [sides_append, ih, ih, List.take_append_drop, List.take_append_drop]
            · exact sides_replacing oldPart newPart

/-! ### Moving edits -/

namespace Focus

def edits (focus : Focus) : List Edit :=
  focus.before.reverse ++ focus.edit :: focus.behind

end Focus

theorem sides_keepInFront (lines : List Line) (edits : List Edit) :
    sides (keepInFront lines edits) = (lines ++ (sides edits).1, lines ++ (sides edits).2) := by
  unfold keepInFront
  split
  · simp [sides_cons, Edit.oldLines, Edit.newLines, Edit.lines]
  · simp [sides_cons, Edit.oldLines, Edit.newLines, Edit.lines]

theorem sides_keepBehind (lines : List Line) (edits : List Edit) :
    sides (keepBehind lines edits).reverse =
      ((sides edits.reverse).1 ++ lines, (sides edits.reverse).2 ++ lines) := by
  unfold keepBehind
  split
  · simp [sides, Edit.oldLines, Edit.newLines, Edit.lines]
  · simp [sides, Edit.oldLines, Edit.newLines, Edit.lines]

theorem sides_focus (before behind : List Edit) (edit : Edit) :
    sides (Focus.edits ⟨before, edit, behind⟩) =
      ((sides before.reverse).1 ++ (edit.oldLines ++ (sides behind).1),
        (sides before.reverse).2 ++ (edit.newLines ++ (sides behind).2)) := by
  rw [Focus.edits, sides_append, sides_cons]

theorem sides_reverse_cons (edit : Edit) (before : List Edit) :
    sides (edit :: before).reverse =
      ((sides before.reverse).1 ++ edit.oldLines, (sides before.reverse).2 ++ edit.newLines) := by
  rw [List.reverse_cons, sides_append, sides_cons]
  simp [sides]

theorem up?_sides {focus next : Focus} (moved : up? focus = some next) :
    sides next.edits = sides focus.edits := by
  unfold up? at moved
  split at moved
  case h_1 kept before lines behind =>
    have shared := drop_commonEnd kept lines
    generalize commonEnd kept lines = count at moved shared
    dsimp only at moved
    split at moved
    · split at moved
      case isTrue none =>
        cases moved
        rw [none, sides_focus, sides_focus, sides_reverse_cons]
        simp [Edit.oldLines, Edit.newLines, Edit.lines]
      case isFalse => cases moved
    · cases moved
      have rest : sides (if kept.take (kept.length - count) = [] then before
          else .keep (kept.take (kept.length - count)) :: before).reverse =
          ((sides before.reverse).1 ++ kept.take (kept.length - count),
            (sides before.reverse).2 ++ kept.take (kept.length - count)) := by
        split
        case isTrue none => rw [none, List.append_nil, List.append_nil]
        case isFalse => rw [sides_reverse_cons]; rfl
      rw [sides_focus, sides_focus, sides_reverse_cons, rest, sides_keepInFront]
      have whole := List.take_append_drop (kept.length - count) kept
      have whole' := List.take_append_drop (lines.length - count) lines
      rw [← shared] at whole'
      generalize kept.take (kept.length - count) = start at *
      generalize kept.drop (kept.length - count) = common at *
      generalize lines.take (lines.length - count) = other at *
      subst whole whole'
      simp [Edit.oldLines, Edit.newLines, Edit.lines]
  case h_7 => cases moved
  all_goals
    cases moved
    simp [sides_focus, sides_append, sides_cons, sides_nil, Edit.oldLines, Edit.newLines,
      Edit.lines]

theorem down?_sides {focus next : Focus} (moved : down? focus = some next) :
    sides next.edits = sides focus.edits := by
  unfold down? at moved
  split at moved
  case h_1 before lines kept behind =>
    have shared := take_commonStart kept lines
    generalize commonStart kept lines = count at moved shared
    dsimp only at moved
    split at moved
    · split at moved
      case isTrue none =>
        cases moved
        rw [none, sides_focus, sides_focus, sides_cons]
        simp [Edit.oldLines, Edit.newLines, Edit.lines]
      case isFalse => cases moved
    · cases moved
      have rest : sides (if kept.drop count = [] then behind
          else .keep (kept.drop count) :: behind) =
          (kept.drop count ++ (sides behind).1, kept.drop count ++ (sides behind).2) := by
        split
        case isTrue none => rw [none, List.nil_append, List.nil_append]
        case isFalse => rw [sides_cons]; rfl
      rw [sides_focus, sides_focus, sides_cons, rest, sides_keepBehind]
      have whole := List.take_append_drop count kept
      have whole' := List.take_append_drop count lines
      rw [← shared] at whole'
      generalize kept.drop count = final at *
      generalize kept.take count = common at *
      generalize lines.drop count = other at *
      subst whole whole'
      simp [Edit.oldLines, Edit.newLines, Edit.lines]
  case h_7 => cases moved
  all_goals
    cases moved
    simp [sides_focus, sides_append, sides_cons, sides_nil, Edit.oldLines, Edit.newLines,
      Edit.lines]

theorem repeated_sides {step : Focus → Option Focus}
    (keeps : ∀ focus next, step focus = some next → sides next.edits = sides focus.edits)
    (count : Nat) (focus : Focus) : sides (repeated step count focus).edits = sides focus.edits := by
  induction count generalizing focus with
  | zero => rfl
  | succ count ih =>
      rw [repeated]
      cases moved : step focus with
      | none => rfl
      | some next =>
          dsimp only
          rw [ih next, keeps focus next moved]

theorem settle_nil (chosen : Edit → Bool) (count : Nat) (before : List Edit) :
    settle chosen count before [] = before.reverse := by
  cases count with
  | zero => rw [settle, List.append_nil]
  | succ count =>
      rw [settle]
      exact Nat.succ_ne_zero count

theorem settle_sides (chosen : Edit → Bool) (count : Nat) (before behind : List Edit) :
    sides (settle chosen count before behind) = sides (before.reverse ++ behind) := by
  induction count generalizing before behind with
  | zero => rw [settle]
  | succ count ih =>
      cases behind with
      | nil => rw [settle_nil, List.append_nil]
      | cons edit behind =>
          rw [settle]
          split
          · dsimp only
            generalize weight (before ++ edit :: behind) + 1 = bound
            have raised := repeated_sides (fun _ _ => up?_sides) bound ⟨before, edit, behind⟩
            generalize repeated up? bound ⟨before, edit, behind⟩ = focus at raised
            have lowered := repeated_sides (fun _ _ => down?_sides) bound focus
            generalize repeated down? bound focus = next at lowered
            rw [ih, List.reverse_cons, List.append_assoc, List.singleton_append]
            exact lowered.trans raised
          · rw [ih, List.reverse_cons, List.append_assoc]
            rfl

/-- Edits that are brought together lead from the same text to the same text. -/
theorem sides_compacted (edits : List Edit) : sides (compacted edits) = sides edits := by
  unfold compacted
  dsimp only
  rw [settle_sides, List.reverse_nil, List.nil_append, settle_sides, List.reverse_nil,
    List.nil_append]

/-! ### A text and itself -/

theorem commonStart_self (lines : List Line) : commonStart lines lines = lines.length := by
  induction lines with
  | nil => rfl
  | cons line rest ih => rw [commonStart, if_pos rfl, ih, List.length_cons]

theorem editsWithin_self (depth : Nat) (lines : List Line) :
    editsWithin (depth + 1) lines lines = keeping lines := by
  rw [editsWithin, commonStart_self, List.drop_length, List.take_length]
  simp [keeping]

theorem settle_of_unchosen {chosen : Edit → Bool} (count : Nat) (before : List Edit)
    {behind : List Edit} (none : ∀ edit ∈ behind, chosen edit = false) :
    settle chosen count before behind = before.reverse ++ behind := by
  induction count generalizing before behind with
  | zero => rw [settle]
  | succ count ih =>
      cases behind with
      | nil => rw [settle_nil, List.append_nil]
      | cons edit behind =>
          have others : ∀ other ∈ behind, chosen other = false :=
            fun other mem => none other (List.mem_cons_of_mem _ mem)
          rw [settle, none edit List.mem_cons_self, if_neg Bool.false_ne_true, ih _ others,
            List.reverse_cons, List.append_assoc, List.singleton_append]

theorem compacted_keeping (lines : List Line) : compacted (keeping lines) = keeping lines := by
  have kept : ∀ edit ∈ keeping lines, edit.isRemoval = false ∧ edit.isAddition = false := by
    intro edit mem
    unfold keeping at mem
    split at mem
    · cases mem
    · obtain rfl := List.mem_singleton.mp mem
      exact ⟨rfl, rfl⟩
  have settled : ∀ chosen : Edit → Bool, ∀ count,
      (∀ edit ∈ keeping lines, chosen edit = false) →
        settle chosen count [] (keeping lines) = keeping lines :=
    fun chosen count none => settle_of_unchosen count [] none
  unfold compacted
  dsimp only
  rw [settled _ _ fun edit mem => (kept edit mem).1, settled _ _ fun edit mem => (kept edit mem).2]

end LineDiff

open LineDiff

/-- The edits between two texts lead from the one to the other. -/
theorem sides_lineDiff (old new : List Line) : sides (lineDiff old new) = (old, new) := by
  rw [lineDiff, sides_compacted, sides_editsWithin]

theorem lineDiff_self (lines : List Line) : lineDiff lines lines = keeping lines := by
  rw [lineDiff, editsWithin_self, compacted_keeping]

/-! ### Hunks -/

theorem Hunk.orNothing_nil : Hunk.orNothing ⟨[], []⟩ = [] := by
  rw [orNothing, if_pos ⟨rfl, rfl⟩]

theorem hunks_keeping (lines : List Line) : hunks (keeping lines) = [] := by
  unfold keeping hunks
  split
  · rw [hunksFrom, Hunk.orNothing_nil]
  · rw [hunksFrom, hunksFrom, Hunk.orNothing_nil, List.append_nil]

section Read

variable {ω : Type} (read : List Line → List ω)

theorem read_orNothing {hunk : Hunk}
    (same : ∀ other ∈ hunk.orNothing, read other.removed = read other.added) :
    read hunk.removed = read hunk.added := by
  unfold Hunk.orNothing at same
  split at same
  case isTrue none => rw [none.1, none.2]
  case isFalse => exact same hunk List.mem_cons_self

/-- What reads the same on both sides of every hunk reads the same on both sides of all edits. -/
theorem read_hunksFrom (joins : ∀ lines more, read (lines ++ more) = read lines ++ read more)
    {sofar : Hunk} {edits : List Edit}
    (same : ∀ hunk ∈ hunksFrom sofar edits, read hunk.removed = read hunk.added) :
    read (sofar.removed ++ (sides edits).1) = read (sofar.added ++ (sides edits).2) := by
  induction edits generalizing sofar with
  | nil =>
      rw [hunksFrom] at same
      rw [sides_nil, List.append_nil, List.append_nil]
      exact read_orNothing read same
  | cons edit rest ih =>
      rw [sides_cons]
      cases edit with
      | keep lines =>
          rw [hunksFrom] at same
          have before := read_orNothing read fun hunk mem => same hunk (List.mem_append_left _ mem)
          have behind := ih fun hunk mem => same hunk (List.mem_append_right _ mem)
          rw [List.nil_append, List.nil_append] at behind
          change read (sofar.removed ++ (lines ++ (sides rest).1)) =
            read (sofar.added ++ (lines ++ (sides rest).2))
          rw [joins, joins lines, before, behind, ← joins lines, ← joins]
      | remove lines =>
          have behind := ih same
          rw [List.append_assoc] at behind
          exact behind
      | add lines =>
          have behind := ih same
          rw [List.append_assoc] at behind
          exact behind

end Read

/-- Two texts without a hunk between them are the same. -/
theorem eq_of_hunks_nil {edits : List Edit} (none : hunks edits = []) :
    (sides edits).1 = (sides edits).2 := by
  have nowhere : ∀ hunk ∈ hunksFrom ⟨[], []⟩ edits, hunk.removed = hunk.added := by
    intro hunk mem
    rw [← hunks, none] at mem
    cases mem
  exact read_hunksFrom (fun lines => lines) (fun _ _ => rfl) nowhere

end DocDrift
