import DocDrift.Command
import DocDrift.Proofs.FileTree.Rewriting
import DocDrift.Proofs.IgnoreFile.Updates

/-!
What it comes to that the ignore file of a repository is brought up to date. A call that fails
changes nothing. One that succeeds leaves the block in the file, and of the rest it takes away only
what stood in a block and blanks at the end; what stands behind a start without an end is taken away
by the next call.
-/

set_option autoImplicit false

namespace DocDrift.Command

theorem perform_change_error {α : Type} {step : FileTree → Except Failure (FileTree × α)}
    {files : FileTree} {failure : Failure} (failed : step files = .error failure) :
    perform (change step) files = (.error failure, ⟨files, ""⟩) := by
  have split : perform (change step) files =
      (do
        let result ← take (step files)
        modify fun scene => { scene with files := result.1 }
        return result.2 : Action α).run ⟨files, ""⟩ := rfl
  rw [split, failed]
  rfl

end DocDrift.Command

namespace DocDrift.IgnoreFile

section Ensure

variable {files next : FileTree} {root : String} {changed : Bool}

/-! ### The file -/

/-- The text of the ignore file; one that is not there is as good as an empty one. -/
def textIn (files : FileTree) (root : String) : Except Failure String :=
  if files.exists? (pathIn root) then (files.readText (pathIn root)).mapError Failure.file
  else .ok ""

def Unwritable (files : FileTree) (root : String) : Prop :=
  ∀ contents, ∃ fault, files.write (pathIn root) contents = .error fault

theorem parts_pathIn (root : String) :
    ∃ above, Path.parts (pathIn root).toList = above ++ [".gitignore".toList] := by
  obtain ⟨above, joined⟩ := Path.parts_join root
  exact ⟨above, joined ".gitignore" (by decide)⟩

theorem textIn_written {text : String}
    (written : files.write (pathIn root) text.toUTF8 = .ok next) :
    textIn next root = .ok text := by
  rw [textIn, (FileTree.read_written written).1, if_pos rfl, FileTree.readText_written written]
  rfl

theorem unwritable_of_error {contents : ByteArray} {fault : FileFault}
    (failed : files.write (pathIn root) contents = .error fault) : Unwritable files root := by
  intro other
  cases wrote : files.write (pathIn root) other with
  | error fault => exact ⟨fault, rfl⟩
  | ok next =>
      obtain ⟨made, again⟩ := FileTree.write_any wrote contents
      rw [failed] at again
      cases again

theorem ne_empty_of_block {text : String} (held : block.toList <:+: text.toList) : text ≠ "" := by
  rintro rfl
  exact ne_nil_of_block held rfl

theorem readText_of_textIn {text : String} (held : textIn files root = .ok text)
    (some : text ≠ "") : files.readText (pathIn root) = .ok text := by
  rw [textIn] at held
  split at held
  case isFalse => exact absurd (Except.ok.inj held).symm some
  case isTrue =>
    cases there : files.readText (pathIn root) with
    | error fault =>
        rw [there] at held
        cases held
    | ok found =>
        rw [there] at held
        cases held
        rfl

theorem writable_of_readText {text : String} (there : files.readText (pathIn root) = .ok text) :
    ¬Unwritable files root := by
  intro unwritable
  rw [FileTree.readText] at there
  cases read : files.read (pathIn root) with
  | error fault =>
      rw [read] at there
      cases there
  | ok contents =>
      obtain ⟨above, split⟩ := parts_pathIn root
      obtain ⟨made, wrote⟩ := FileTree.write_of_read split (by decide) read contents
      obtain ⟨fault, failed⟩ := unwritable contents
      rw [wrote] at failed
      cases failed

/-! ### The cases of a call -/

/-- The ways in which a call ends, and when which is taken. -/
inductive Ensured (files : FileTree) (root : String) : Except Failure (FileTree × Bool) → Prop
  | unreadable (failure : Failure) (unread : textIn files root = .error failure) :
      Ensured files root (.error failure)
  | upToDate (text : String) (held : textIn files root = .ok text)
      (current : update text.toList = .upToDate) : Ensured files root (.ok (files, false))
  | outOfOrder (text : String) (held : textIn files root = .ok text)
      (disorder : update text.toList = .outOfOrder) :
      Ensured files root (.error (.other ".gitignore markers are out of order"))
  | unwritable (text : String) (new : List Char) (fault : FileFault)
      (held : textIn files root = .ok text) (due : update text.toList = .changed new)
      (failed : files.write (pathIn root) (String.ofList new).toUTF8 = .error fault) :
      Ensured files root (.error (.file fault))
  | wrote (text : String) (new : List Char) (next : FileTree)
      (held : textIn files root = .ok text) (due : update text.toList = .changed new)
      (written : files.write (pathIn root) (String.ofList new).toUTF8 = .ok next) :
      Ensured files root (.ok (next, true))

theorem ensure_eq (files : FileTree) (root : String) :
    ensure files root = (textIn files root).bind fun text =>
      match update text.toList with
      | .upToDate => .ok (files, false)
      | .outOfOrder => .error (.other ".gitignore markers are out of order")
      | .changed text =>
          ((files.write (pathIn root) (String.ofList text).toUTF8).mapError Failure.file).map
            fun next => (next, true) := by
  cases there : files.exists? (pathIn root) with
  | false =>
      simp only [ensure, textIn, there, Bool.false_eq_true, if_false, bind, Except.bind, pure,
        Except.pure]
      cases update "".toList with
      | changed new => cases files.write (pathIn root) (String.ofList new).toUTF8 <;> rfl
      | _ => rfl
  | true =>
      simp only [ensure, textIn, there, if_true, bind, Except.bind]
      cases files.readText (pathIn root) with
      | error fault => rfl
      | ok text =>
          dsimp only [Except.mapError]
          cases update text.toList with
          | changed new => cases files.write (pathIn root) (String.ofList new).toUTF8 <;> rfl
          | _ => rfl

theorem ensure_ensured (files : FileTree) (root : String) :
    Ensured files root (ensure files root) := by
  rw [ensure_eq]
  cases held : textIn files root with
  | error failure => exact .unreadable failure held
  | ok text =>
      rw [Except.bind]
      cases due : update text.toList with
      | upToDate => exact .upToDate text held due
      | outOfOrder => exact .outOfOrder text held due
      | changed new =>
          dsimp only
          cases wrote : files.write (pathIn root) (String.ofList new).toUTF8 with
          | error fault => exact .unwritable text new fault held due wrote
          | ok next => exact .wrote text new next held due wrote

/-! ### A second call -/

theorem ensure_idle_iff {text : String} (held : textIn files root = .ok text) :
    ensure files root = .ok (files, false) ↔ update text.toList = .upToDate := by
  constructor
  · intro idle
    have ensured := ensure_ensured files root
    rw [idle] at ensured
    cases ensured with
    | upToDate found reread current =>
        obtain rfl := Except.ok.inj (held.symm.trans reread)
        exact current
  · intro current
    rw [ensure_eq, held, Except.bind, current]

theorem ensure_disordered {text : String} (held : textIn files root = .ok text)
    (disorder : update text.toList = .outOfOrder) :
    ensure files root = .error (.other ".gitignore markers are out of order") := by
  rw [ensure_eq, held, Except.bind, disorder]

theorem ensure_due {text : String} {new : List Char} (held : textIn files root = .ok text)
    (some : text ≠ "") (due : update text.toList = .changed new) :
    ∃ next, ensure files root = .ok (next, true) ∧ textIn next root = .ok (String.ofList new) := by
  cases wrote : files.write (pathIn root) (String.ofList new).toUTF8 with
  | error fault =>
      exact absurd (unwritable_of_error wrote) (writable_of_readText (readText_of_textIn held some))
  | ok next =>
      refine ⟨next, ?_, textIn_written wrote⟩
      rw [ensure_eq, held, Except.bind, due]
      dsimp only
      rw [wrote]
      rfl

/-- Where the block was appended behind a start without an end, a call takes away all that stands
from that start on, and leaves the block in its place. -/
theorem ensure_lone_start {old : List Char} (start : blockStart.toList <:+: old)
    (stop : ¬blockEnd.toList <:+: old)
    (held : textIn files root = .ok (String.ofList (appended old))) :
    ∃ before rest last, StandsFirst blockStart.toList old before rest ∧
      ensure files root = .ok (last, true) ∧
      textIn last root = .ok (String.ofList (before ++ block.toList ++ ['\n'])) := by
  obtain ⟨before, rest, first, renewed⟩ := update_lone_start start stop
  rw [← String.toList_ofList (l := appended old)] at renewed
  have some : String.ofList (appended old) ≠ "" := by
    refine ne_empty_of_block ?_
    rw [String.toList_ofList]
    exact block_within_appended old
  obtain ⟨last, done, reread⟩ := ensure_due held some renewed
  exact ⟨before, rest, last, first, done, reread⟩

/-- A second call has nothing to do, unless the file had just one of the marks before the first.
After a start without an end the second call takes away what stood behind it; after an end without
a start it fails. -/
theorem ensured_again (done : ensure files root = .ok (next, changed)) :
    ∃ text, textIn files root = .ok text ∧
      (ensure next root = .ok (next, false) ↔
        (blockStart.toList <:+: text.toList ↔ blockEnd.toList <:+: text.toList)) ∧
      (blockStart.toList <:+: text.toList → ¬blockEnd.toList <:+: text.toList →
        ∃ before rest last, StandsFirst blockStart.toList text.toList before rest ∧
          ensure next root = .ok (last, true) ∧
          textIn last root = .ok (String.ofList (before ++ block.toList ++ ['\n']))) ∧
      (¬blockStart.toList <:+: text.toList → blockEnd.toList <:+: text.toList →
        ensure next root = .error (.other ".gitignore markers are out of order")) := by
  have ensured := ensure_ensured files root
  rw [done] at ensured
  cases ensured with
  | upToDate text held current =>
      obtain ⟨start, stop⟩ := marked_of_block (renewed_of_upToDate current).block
      exact ⟨text, held, iff_of_true done (iff_of_true start stop),
        fun _start other => absurd stop other, fun other _stop => absurd start other⟩
  | wrote text new next held due written =>
      have again := textIn_written written
      have updated : update (String.ofList new).toList = update new := by rw [String.toList_ofList]
      refine ⟨text, held, ?_, ?_, ?_⟩
      · rw [← update_again_iff due, ← updated]
        exact ensure_idle_iff again
      · intro start stop
        obtain rfl := appended_of_lacking (fun both => stop both.2) due
        exact ensure_lone_start start stop again
      · intro start stop
        obtain rfl := appended_of_lacking (fun both => start both.1) due
        exact ensure_disordered again (updated.trans (update_lone_end start stop))

def withText (text : String) : FileTree :=
  .withFile "site" ".gitignore" text.toUTF8

theorem textIn_withText (text : String) : textIn (withText text) "/site" = .ok text := by
  have present : (withText text).exists? (pathIn "/site") = true := rfl
  rw [textIn, if_pos present, FileTree.readText_of_read rfl]
  rfl

theorem ensured_again_of_unmarked :
    ∃ next, ensure (withText "vendor/\n") "/site" = .ok (next, true) ∧
      ensure next "/site" = .ok (next, false) := by
  have due : update "vendor/\n".toList = .changed (appended "vendor/\n".toList) := by decide
  obtain ⟨next, done, _held⟩ := ensure_due (textIn_withText "vendor/\n") (by decide) due
  obtain ⟨text, held, again, _start, _stop⟩ := ensured_again done
  obtain rfl := Except.ok.inj ((textIn_withText "vendor/\n").symm.trans held)
  have start : ¬blockStart.toList <:+: "vendor/\n".toList := splitAtFirst?_none (by decide)
  have stop : ¬blockEnd.toList <:+: "vendor/\n".toList := splitAtFirst?_none (by decide)
  exact ⟨next, done, again.mpr (iff_of_false start stop)⟩

def startOnly : String := "# >>> docwatch state\nmine\n"

def startTwice : String := startOnly ++ "\n" ++ block ++ "\n"

/-- A start without an end: the second call takes away the line behind it. -/
theorem second_call_takes_line :
    ∃ next last, ensure (withText startOnly) "/site" = .ok (next, true) ∧
      textIn next "/site" = .ok startTwice ∧ ensure next "/site" = .ok (last, true) ∧
      textIn last "/site" = .ok (block ++ "\n") := by
  have due : update startOnly.toList = .changed startTwice.toList := by decide +kernel
  have again : update startTwice.toList = .changed (block ++ "\n").toList := by decide +kernel
  obtain ⟨next, done, held⟩ := ensure_due (textIn_withText startOnly) (by decide) due
  rw [String.ofList_toList] at held
  obtain ⟨last, redone, reread⟩ := ensure_due held (by decide) again
  rw [String.ofList_toList] at reread
  exact ⟨next, last, done, held, redone, reread⟩

/-! ### What a call keeps -/

theorem textIn_error_iff : (∃ failure, textIn files root = .error failure) ↔
    files.exists? (pathIn root) = true ∧ ∃ fault, files.readText (pathIn root) = .error fault := by
  rw [textIn]
  split
  case isFalse absent =>
    exact iff_of_false (fun ⟨_, failed⟩ => nomatch failed) fun both => absent both.1
  case isTrue present =>
    cases files.readText (pathIn root) with
    | error fault => exact iff_of_true ⟨_, rfl⟩ ⟨present, fault, rfl⟩
    | ok text => exact iff_of_false (fun ⟨_, failed⟩ => nomatch failed) fun both => nomatch both.2

/-- A call fails if the file cannot be read or written, or its marks are out of order. -/
theorem ensure_error_iff : (∃ failure, ensure files root = .error failure) ↔
    (files.exists? (pathIn root) = true ∧ ∃ fault, files.readText (pathIn root) = .error fault) ∨
      (∃ text, textIn files root = .ok text ∧ Disordered text.toList) ∨
      Unwritable files root := by
  rw [← textIn_error_iff]
  have ensured := ensure_ensured files root
  generalize ensure files root = result at ensured
  cases ensured with
  | unreadable failure unread => exact iff_of_true ⟨_, rfl⟩ (.inl ⟨_, unread⟩)
  | outOfOrder text held disorder =>
      exact iff_of_true ⟨_, rfl⟩ (.inr (.inl ⟨text, held, update_outOfOrder_iff.mp disorder⟩))
  | unwritable text new fault held due failed =>
      exact iff_of_true ⟨_, rfl⟩ (.inr (.inr (unwritable_of_error failed)))
  | upToDate text held current =>
      refine iff_of_false nofun ?_
      have read := readText_of_textIn held (ne_empty_of_block (renewed_of_upToDate current).block)
      rintro (⟨_, failed⟩ | ⟨other, found, disorder⟩ | unwritable)
      · rw [held] at failed
        cases failed
      · cases held.symm.trans found
        cases current.symm.trans (update_outOfOrder_iff.mpr disorder)
      · exact writable_of_readText read unwritable
  | wrote text new next held due written =>
      refine iff_of_false nofun ?_
      rintro (⟨_, failed⟩ | ⟨other, found, disorder⟩ | unwritable)
      · rw [held] at failed
        cases failed
      · cases held.symm.trans found
        cases due.symm.trans (update_outOfOrder_iff.mpr disorder)
      · obtain ⟨fault, failed⟩ := unwritable (String.ofList new).toUTF8
        rw [written] at failed
        cases failed

/-- What a call that succeeds makes of the file. -/
theorem ensure_ok_keeps (done : ensure files root = .ok (next, changed)) :
    ∃ old new, textIn files root = .ok old ∧ next.readText (pathIn root) = .ok new ∧
      Renewed old.toList new.toList ∧ (changed = false ↔ next = files) ∧
      ∀ place, place ≠ files.goal (pathIn root) → next.node? place = files.node? place := by
  have ensured := ensure_ensured files root
  rw [done] at ensured
  cases ensured with
  | upToDate text held current =>
      have renewed := renewed_of_upToDate current
      exact ⟨text, text, held, readText_of_textIn held (ne_empty_of_block renewed.block), renewed,
        iff_of_true rfl rfl, fun _ _ => rfl⟩
  | wrote text new next held due written =>
      obtain ⟨renewed, other⟩ := renewed_of_changed due
      refine ⟨text, String.ofList new, held, FileTree.readText_written written, ?_, ?_, ?_⟩
      · rwa [String.toList_ofList]
      · refine iff_of_false Bool.noConfusion ?_
        rintro rfl
        rw [textIn_written written] at held
        rw [← Except.ok.inj held, String.toList_ofList] at other
        exact other rfl
      · obtain ⟨place, names, _free, rfl⟩ := FileTree.write_eq_ok.mp written
        intro other different
        rw [← names.eq_goal] at different
        exact FileTree.node?_put_of_ne files _ different

/-- A call either fails and changes nothing, and that it does just when the file cannot be read or
written or its marks are out of order; or it succeeds with the block in the file, and with all that
stood outside of it. -/
theorem ensure_keeps (files : FileTree) (root : String) :
    ((∃ failure, ensure files root = .error failure) ↔
      (files.exists? (pathIn root) = true ∧
        ∃ fault, files.readText (pathIn root) = .error fault) ∨
      (∃ text, textIn files root = .ok text ∧ Disordered text.toList) ∨
      Unwritable files root) ∧
    (∀ failure, ensure files root = .error failure →
      Command.perform (Command.change fun files => ensure files root) files =
        (.error failure, ⟨files, ""⟩)) ∧
    ∀ next changed, ensure files root = .ok (next, changed) →
      ∃ old new, textIn files root = .ok old ∧ next.readText (pathIn root) = .ok new ∧
        Renewed old.toList new.toList ∧ (changed = false ↔ next = files) ∧
        ∀ place, place ≠ files.goal (pathIn root) → next.node? place = files.node? place :=
  ⟨ensure_error_iff, fun _failure failed => Command.perform_change_error failed,
    fun _next _changed done => ensure_ok_keeps done⟩

end Ensure

end DocDrift.IgnoreFile
