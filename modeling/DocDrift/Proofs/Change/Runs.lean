import DocDrift.Proofs.Change.LineDiff

/-!
The hunks of a line comparison. They are the runs of changes between the lines that both texts keep,
each as long as it can be: no run is left out, none is cut in two by a kept edit without lines, and
every line that goes or comes stands in one of them.
-/

set_option autoImplicit false

namespace DocDrift

/-! ### Changed lines -/

namespace Edit

def isKept : Edit → Bool
  | .keep _ => true
  | _ => false

def removedLines : Edit → List Line
  | .remove lines => lines
  | _ => []

def addedLines : Edit → List Line
  | .add lines => lines
  | _ => []

def keptLines : Edit → List Line
  | .keep lines => lines
  | _ => []

/-- A side has the lines that an edit keeps and those that it changes there. -/
theorem length_lines (edit : Edit) :
    edit.oldLines.length = edit.keptLines.length + edit.removedLines.length ∧
      edit.newLines.length = edit.keptLines.length + edit.addedLines.length := by
  cases edit with
  | keep lines => exact ⟨rfl, rfl⟩
  | remove lines => exact ⟨(Nat.zero_add _).symm, rfl⟩
  | add lines => exact ⟨rfl, (Nat.zero_add _).symm⟩

end Edit

namespace LineDiff

/-- What edits do: those without lines do nothing. -/
def operations (edits : List Edit) : List Edit :=
  edits.filter (fun edit => !edit.lines.isEmpty)

/-- The runs of changes that are as long as they can be, from one kept edit to the next. -/
def changeRuns (edits : List Edit) : List (List Edit) :=
  (edits.splitOnP Edit.isKept).filter (fun run => !run.isEmpty)

def removedLines (edits : List Edit) : List Line :=
  edits.flatMap Edit.removedLines

def addedLines (edits : List Edit) : List Line :=
  edits.flatMap Edit.addedLines

def keptLines (edits : List Edit) : List Line :=
  edits.flatMap Edit.keptLines

/-- A text has the lines that are kept and those that go, or those that come. -/
theorem length_sides (edits : List Edit) :
    (sides edits).1.length = (keptLines edits).length + (removedLines edits).length ∧
      (sides edits).2.length = (keptLines edits).length + (addedLines edits).length := by
  induction edits with
  | nil => exact ⟨rfl, rfl⟩
  | cons edit rest ih =>
      obtain ⟨old, new⟩ := ih
      obtain ⟨here, there⟩ := edit.length_lines
      simp only [keptLines, removedLines, addedLines, List.flatMap_cons, List.length_append,
        sides_cons] at old new ⊢
      omega

end LineDiff

open LineDiff

/-! ### Lines in hunks -/

section Hunks

theorem removed_orNothing (hunk : Hunk) : hunk.orNothing.flatMap Hunk.removed = hunk.removed := by
  unfold Hunk.orNothing
  split
  case isTrue none => rw [none.1, List.flatMap_nil]
  case isFalse => exact List.flatMap_singleton ..

theorem added_orNothing (hunk : Hunk) : hunk.orNothing.flatMap Hunk.added = hunk.added := by
  unfold Hunk.orNothing
  split
  case isTrue none => rw [none.2, List.flatMap_nil]
  case isFalse => exact List.flatMap_singleton ..

theorem lines_hunksFrom (sofar : Hunk) (edits : List Edit) :
    (hunksFrom sofar edits).flatMap Hunk.removed = sofar.removed ++ removedLines edits ∧
      (hunksFrom sofar edits).flatMap Hunk.added = sofar.added ++ addedLines edits := by
  induction edits generalizing sofar with
  | nil =>
      rw [hunksFrom, removed_orNothing, added_orNothing]
      exact ⟨(List.append_nil _).symm, (List.append_nil _).symm⟩
  | cons edit rest ih =>
      rw [removedLines, addedLines, List.flatMap_cons, List.flatMap_cons]
      cases edit with
      | keep lines =>
          obtain ⟨removed, added⟩ := ih ⟨[], []⟩
          rw [hunksFrom, List.flatMap_append, List.flatMap_append, removed_orNothing,
            added_orNothing, removed, added]
          exact ⟨rfl, rfl⟩
      | remove lines =>
          obtain ⟨removed, added⟩ := ih ⟨sofar.removed ++ lines, sofar.added⟩
          rw [hunksFrom, removed, added, List.append_assoc]
          exact ⟨rfl, rfl⟩
      | add lines =>
          obtain ⟨removed, added⟩ := ih ⟨sofar.removed, sofar.added ++ lines⟩
          rw [hunksFrom, removed, added, List.append_assoc]
          exact ⟨rfl, rfl⟩

/-- The lines that go are those that go in some hunk, each once and in order. -/
theorem removed_hunks (edits : List Edit) :
    (hunks edits).flatMap Hunk.removed = removedLines edits :=
  (lines_hunksFrom ⟨[], []⟩ edits).1

theorem added_hunks (edits : List Edit) : (hunks edits).flatMap Hunk.added = addedLines edits :=
  (lines_hunksFrom ⟨[], []⟩ edits).2

theorem changed_hunksFrom {sofar hunk : Hunk} {edits : List Edit}
    (mem : hunk ∈ hunksFrom sofar edits) : 0 < hunk.removed.length + hunk.added.length := by
  have single : ∀ start : Hunk, hunk ∈ start.orNothing →
      0 < hunk.removed.length + hunk.added.length := by
    intro start mem
    unfold Hunk.orNothing at mem
    split at mem
    case isTrue => cases mem
    case isFalse some =>
      obtain rfl := List.mem_singleton.mp mem
      rw [Nat.add_pos_iff_pos_or_pos, List.length_pos_iff, List.length_pos_iff]
      exact Decidable.not_and_iff_or_not.mp some
  induction edits generalizing sofar with
  | nil =>
      rw [hunksFrom] at mem
      exact single sofar mem
  | cons edit rest ih =>
      cases edit with
      | keep lines =>
          rw [hunksFrom] at mem
          rcases List.mem_append.mp mem with here | later
          · exact single sofar here
          · exact ih later
      | remove lines => exact ih mem
      | add lines => exact ih mem

end Hunks

/-! ### Hunks are runs -/

/-- The lines that a run of changes removes and adds. -/
def Hunk.ofRun (run : List Edit) : Hunk :=
  ⟨removedLines run, addedLines run⟩

/-- An edit that changes lines: it has some and does not keep them. -/
def Edit.IsChange (edit : Edit) : Prop :=
  edit.isKept = false ∧ edit.lines ≠ []

theorem Hunk.orNothing_ofRun {run : List Edit} (changes : ∀ edit ∈ run, edit.IsChange) :
    (Hunk.ofRun run).orNothing = ([run].filter (fun run => !run.isEmpty)).map Hunk.ofRun := by
  cases run with
  | nil => rfl
  | cons edit rest =>
      rw [orNothing, if_neg]
      · rfl
      · obtain ⟨changed, some⟩ := changes edit List.mem_cons_self
        simp only [ofRun, removedLines, addedLines, List.flatMap_cons, List.append_eq_nil_iff]
        rintro ⟨⟨removed, _removed⟩, added, _added⟩
        cases edit with
        | keep lines => cases changed
        | remove lines => exact some removed
        | add lines => exact some added

/-- A change belongs to the run that is open. -/
theorem hunksFrom_change {edit : Edit} (before rest : List Edit) (changed : edit.isKept = false) :
    hunksFrom (Hunk.ofRun before) (edit :: rest) =
      hunksFrom (Hunk.ofRun (before ++ [edit])) rest := by
  cases edit with
  | keep lines => cases changed
  | remove lines =>
      rw [hunksFrom]
      simp [Hunk.ofRun, removedLines, addedLines, Edit.removedLines, Edit.addedLines]
  | add lines =>
      rw [hunksFrom]
      simp [Hunk.ofRun, removedLines, addedLines, Edit.removedLines, Edit.addedLines]

theorem Hunk.ofRun_idle {edit : Edit} (before : List Edit) (none : edit.lines = []) :
    Hunk.ofRun (before ++ [edit]) = Hunk.ofRun before := by
  cases edit <;>
    simp_all [ofRun, removedLines, addedLines, Edit.lines, Edit.removedLines, Edit.addedLines]

theorem modifyHead_nil_append {α : Type} (runs : List (List α)) :
    runs.modifyHead ([] ++ ·) = runs := by
  cases runs with
  | nil => rfl
  | cons run runs => rw [List.modifyHead_cons, List.nil_append]

/-- If no kept edit is without lines, the hunks are the runs of changes; changes that came before
open the first run. -/
theorem hunksFrom_eq_runs {edits : List Edit} (before : List Edit)
    (changes : ∀ edit ∈ before, edit.IsChange)
    (kept : ∀ edit ∈ edits, edit.isKept = true → edit.lines ≠ []) :
    hunksFrom (Hunk.ofRun before) edits =
      ((((operations edits).splitOnP Edit.isKept).modifyHead (before ++ ·)).filter
        (fun run => !run.isEmpty)).map Hunk.ofRun := by
  induction edits generalizing before with
  | nil =>
      rw [hunksFrom, Hunk.orNothing_ofRun changes, operations, List.filter_nil,
        List.splitOnP_nil, List.modifyHead_cons, List.append_nil]
  | cons edit rest ih =>
      have later : ∀ edit ∈ rest, edit.isKept = true → edit.lines ≠ [] :=
        fun edit mem => kept edit (List.mem_cons_of_mem _ mem)
      have listed (some : edit.lines ≠ []) :
          operations (edit :: rest) = edit :: operations rest := by
        simp [operations, some]
      cases changed : edit.isKept with
      | true =>
          have some := kept edit List.mem_cons_self changed
          have next := ih [] (List.forall_mem_nil _) later
          rw [modifyHead_nil_append] at next
          cases edit with
          | remove lines => cases changed
          | add lines => cases changed
          | keep lines =>
              have fresh : (⟨[], []⟩ : Hunk) = Hunk.ofRun [] := rfl
              rw [hunksFrom, fresh, next, listed some, List.splitOnP_cons_eq_if_modifyHead,
                if_pos changed, List.modifyHead_cons, List.append_nil,
                Hunk.orNothing_ofRun changes, ← List.map_append, ← List.filter_append,
                List.singleton_append]
      | false =>
          by_cases none : edit.lines = []
          · have skipped : operations (edit :: rest) = operations rest := by
              simp [operations, none]
            rw [hunksFrom_change before rest changed, Hunk.ofRun_idle before none, skipped,
              ih before changes later]
          · have both : ∀ other ∈ before ++ [edit], other.IsChange := by
              intro other mem
              rcases List.mem_append.mp mem with early | last
              · exact changes other early
              · obtain rfl := List.mem_singleton.mp last
                exact ⟨changed, none⟩
            have together : ((before ++ ·) ∘ (edit :: ·) : List Edit → List Edit) =
                (before ++ [edit] ++ ·) := by
              funext run
              rw [Function.comp_apply, List.append_assoc, List.singleton_append]
            rw [hunksFrom_change before rest changed, ih _ both later, listed none,
              List.splitOnP_cons_eq_if_modifyHead, changed, if_neg Bool.false_ne_true,
              List.modifyHead_modifyHead, together]

theorem hunks_eq_runs {edits : List Edit}
    (kept : ∀ edit ∈ edits, edit.isKept = true → edit.lines ≠ []) :
    hunks edits = (changeRuns (operations edits)).map Hunk.ofRun := by
  have runs := hunksFrom_eq_runs [] (List.forall_mem_nil _) kept
  rw [modifyHead_nil_append] at runs
  exact runs

/-! ### No kept edit is without lines -/

namespace LineDiff

/-- Every edit that keeps lines has some. -/
def KeepsSome (edits : List Edit) : Prop :=
  ∀ edit ∈ edits, edit.isKept = true → edit.lines ≠ []

theorem keepsSome_append {edits more : List Edit} :
    KeepsSome (edits ++ more) ↔ KeepsSome edits ∧ KeepsSome more :=
  List.forall_mem_append

theorem keepsSome_cons {edit : Edit} {edits : List Edit} :
    KeepsSome (edit :: edits) ↔ (edit.isKept = true → edit.lines ≠ []) ∧ KeepsSome edits :=
  List.forall_mem_cons

theorem keepsSome_reverse {edits : List Edit} : KeepsSome edits.reverse ↔ KeepsSome edits := by
  simp only [KeepsSome, List.mem_reverse]

theorem keepsSome_keeping (lines : List Line) : KeepsSome (keeping lines) := by
  unfold keeping
  split
  case isTrue => exact List.forall_mem_nil _
  case isFalse some => exact keepsSome_cons.mpr ⟨fun _ => some, List.forall_mem_nil _⟩

theorem keepsSome_of_changes {edits : List Edit} (changes : ∀ edit ∈ edits, edit.isKept = false) :
    KeepsSome edits :=
  fun edit mem kept => absurd kept (Bool.eq_false_iff.mp (changes edit mem))

theorem keepsSome_editsWithin (depth : Nat) (old new : List Line) :
    KeepsSome (editsWithin depth old new) := by
  have replacing : ∀ removed added : List Line, KeepsSome [.remove removed, .add added] := by
    intro removed added
    apply keepsSome_of_changes
    simp [Edit.isKept]
  induction depth generalizing old new with
  | zero => exact replacing old new
  | succ depth ih =>
      rw [editsWithin]
      refine keepsSome_append.mpr ⟨keepsSome_append.mpr ⟨keepsSome_keeping _, ?_⟩,
        keepsSome_keeping _⟩
      split
      case isTrue => exact List.forall_mem_nil _
      case isFalse =>
        split
        case isTrue => exact keepsSome_of_changes (by simp [Edit.isKept])
        case isFalse =>
          split
          case isTrue => exact keepsSome_of_changes (by simp [Edit.isKept])
          case isFalse =>
            split
            · exact keepsSome_append.mpr ⟨ih _ _, ih _ _⟩
            · exact replacing _ _

theorem keepsSome_focus {before behind : List Edit} {edit : Edit} :
    KeepsSome (Focus.edits ⟨before, edit, behind⟩) ↔
      KeepsSome before ∧ (edit.isKept = true → edit.lines ≠ []) ∧ KeepsSome behind := by
  rw [Focus.edits, keepsSome_append, keepsSome_reverse, keepsSome_cons]

theorem keepsSome_keepInFront {lines : List Line} {edits : List Edit} (some : lines ≠ [])
    (keeps : KeepsSome edits) : KeepsSome (keepInFront lines edits) := by
  unfold keepInFront
  split
  case h_1 more rest =>
    exact keepsSome_cons.mpr ⟨fun _ => List.append_ne_nil_of_left_ne_nil some more,
      (keepsSome_cons.mp keeps).2⟩
  case h_2 => exact keepsSome_cons.mpr ⟨fun _ => some, keeps⟩

theorem keepsSome_keepBehind {lines : List Line} {edits : List Edit} (some : lines ≠ [])
    (keeps : KeepsSome edits) : KeepsSome (keepBehind lines edits) := by
  unfold keepBehind
  split
  case h_1 more rest =>
    exact keepsSome_cons.mpr ⟨fun _ => List.append_ne_nil_of_right_ne_nil more some,
      (keepsSome_cons.mp keeps).2⟩
  case h_2 => exact keepsSome_cons.mpr ⟨fun _ => some, keeps⟩

theorem up?_keepsSome {focus next : Focus} (moved : up? focus = some next)
    (keeps : KeepsSome focus.edits) : KeepsSome next.edits := by
  unfold up? at moved
  split at moved
  case h_1 kept before lines behind =>
    obtain ⟨early, _added, late⟩ := keepsSome_focus.mp keeps
    obtain ⟨some, early⟩ := keepsSome_cons.mp early
    have some : kept ≠ [] := some rfl
    generalize commonEnd kept lines = count at moved
    dsimp only at moved
    split at moved
    case isTrue => cases moved
    case isFalse shared =>
      cases moved
      have more : kept.drop (kept.length - count) ≠ [] := by
        have length := List.length_pos_iff.mpr some
        rw [← List.length_pos_iff, List.length_drop]
        omega
      refine keepsSome_focus.mpr ⟨?_, nofun, keepsSome_keepInFront more late⟩
      split
      case isTrue => exact early
      case isFalse left => exact keepsSome_cons.mpr ⟨fun _ => left, early⟩
  case h_7 => cases moved
  all_goals
    cases moved
    simp only [keepsSome_focus, keepsSome_cons] at keeps ⊢
    simp [keeps, Edit.isKept]

theorem down?_keepsSome {focus next : Focus} (moved : down? focus = some next)
    (keeps : KeepsSome focus.edits) : KeepsSome next.edits := by
  unfold down? at moved
  split at moved
  case h_1 before lines kept behind =>
    obtain ⟨early, _added, late⟩ := keepsSome_focus.mp keeps
    obtain ⟨some, late⟩ := keepsSome_cons.mp late
    have some : kept ≠ [] := some rfl
    generalize commonStart kept lines = count at moved
    dsimp only at moved
    split at moved
    case isTrue => cases moved
    case isFalse shared =>
      cases moved
      have more : kept.take count ≠ [] := by
        have length := List.length_pos_iff.mpr some
        rw [← List.length_pos_iff, List.length_take]
        omega
      refine keepsSome_focus.mpr ⟨keepsSome_keepBehind more early, nofun, ?_⟩
      split
      case isTrue => exact late
      case isFalse left => exact keepsSome_cons.mpr ⟨fun _ => left, late⟩
  case h_7 => cases moved
  all_goals
    cases moved
    simp only [keepsSome_focus, keepsSome_cons] at keeps ⊢
    simp [keeps, Edit.isKept]

section Moves

variable {holds : List Edit → Prop}

theorem repeated_invariant {step : Focus → Option Focus}
    (kept : ∀ focus next, step focus = some next → holds focus.edits → holds next.edits)
    (count : Nat) (focus : Focus) (start : holds focus.edits) :
    holds (repeated step count focus).edits := by
  induction count generalizing focus with
  | zero => exact start
  | succ count ih =>
      rw [repeated]
      cases moved : step focus with
      | none => exact start
      | some next => exact ih next (kept focus next moved start)

/-- What no single move breaks holds when all edits have settled. -/
theorem settle_invariant
    (raised : ∀ focus next, up? focus = some next → holds focus.edits → holds next.edits)
    (lowered : ∀ focus next, down? focus = some next → holds focus.edits → holds next.edits)
    (chosen : Edit → Bool) (count : Nat) {before behind : List Edit}
    (start : holds (before.reverse ++ behind)) : holds (settle chosen count before behind) := by
  induction count generalizing before behind with
  | zero =>
      rw [settle]
      exact start
  | succ count ih =>
      cases behind with
      | nil =>
          rw [settle]
          · rwa [List.append_nil] at start
          · exact Nat.succ_ne_zero count
      | cons edit behind =>
          rw [settle]
          split
          · apply ih
            have up := repeated_invariant raised (weight (before ++ edit :: behind) + 1)
              ⟨before, edit, behind⟩ start
            have down := repeated_invariant lowered (weight (before ++ edit :: behind) + 1) _ up
            rw [List.reverse_cons, List.append_assoc]
            exact down
          · apply ih
            rw [List.reverse_cons, List.append_assoc]
            exact start

end Moves

theorem keepsSome_compacted {edits : List Edit} (keeps : KeepsSome edits) :
    KeepsSome (compacted edits) := by
  unfold compacted
  apply settle_invariant (fun _ _ => up?_keepsSome) (fun _ _ => down?_keepsSome)
  apply settle_invariant (fun _ _ => up?_keepsSome) (fun _ _ => down?_keepsSome)
  exact keeps

theorem keepsSome_lineDiff (old new : List Line) : KeepsSome (lineDiff old new) :=
  keepsSome_compacted (keepsSome_editsWithin _ old new)

end LineDiff

end DocDrift
