import DocDrift.Proofs.Pass.Outcomes
import DocDrift.Proofs.Pass.Resumption
import DocDrift.Proofs.Pass.Verdicts
import DocDrift.Proofs.Scoring.Regeneration
import DocDrift.Proofs.Store.Rereading

/-!
Files that are settled once more. What was documented is unchanged by then, what was advised against
is advised against for the same reason, as a verdict that was kept is read again, and what failed
fails. Nothing is changed, and that holds on while other files are settled.
-/

set_option autoImplicit false

namespace DocDrift

/-! ### What a store answers about a file -/

namespace Store

/-- Two stores that answer alike what an evaluation of a file asks. -/
structure AgreeOn (path : String) (store next : Store) : Prop where
  row : next.row? path = store.row? path
  symbols : next.symbolsOf path = store.symbolsOf path
  verdicts : ∀ pair, pair.path = path → next.verdict? pair = store.verdict? pair

section Answers

variable {store next : Store} {path now : String}

theorem AgreeOn.refl (path : String) (store : Store) : AgreeOn path store store :=
  ⟨rfl, rfl, fun _ _ => rfl⟩

/-- Verdicts on other files do not change what is kept of a change. -/
theorem AgreeOn.of_accounts {evaluated documented : List String}
    (accounts : Accounts evaluated documented store next) (unevaluated : path ∉ evaluated)
    (undocumented : path ∉ documented) : AgreeOn path store next := by
  have held := accounts.held path undocumented
  refine ⟨congrArg Holding.row held, congrArg Holding.symbols held, ?_⟩
  obtain ⟨gained, analyses, own⟩ := accounts.analyses
  rintro pair rfl
  have missing : List.find? (fun row => decide (row.1 = pair)) gained = none := by
    rw [List.find?_eq_none]
    intro row mem same
    have about : row.1.path = pair.path := by rw [of_decide_eq_true same]
    exact unevaluated (about ▸ own.subset (List.mem_map_of_mem mem))
  rw [verdict?, verdict?, analyses]
  cases store.analyses with
  | none => rfl
  | some rows =>
      have same : Keyed.find? (rows ++ gained) pair = Keyed.find? rows pair := by
        rw [Keyed.find?, Keyed.find?, List.find?_append, missing, Option.or_none]
      simp only [Option.map_some, found, bind, Except.bind, same]

theorem check_congr (row : next.row? path = store.row? path) (contents : ByteArray) :
    next.check path contents = store.check path contents := by
  rw [check, check, row]

theorem digestOf?_of_row {row : LedgerRow} (present : store.row? path = .ok (some row)) :
    store.digestOf? path = some row.digest := by
  rw [row?] at present
  rw [digestOf?]
  cases held : store.ledger with
  | none =>
      rw [held] at present
      cases present
  | some ledger =>
      rw [held] at present
      rw [Option.bind_some, Except.ok.inj present]
      rfl

/-- A verdict that is kept is read again, maybe with another confidence. -/
theorem verdict?_scored {pair : Pair} {verdict : Verdict} (score : verdict.score ≤ 4294967295)
    (finite : verdict.recommendation.confidence.isFinite = true)
    (done : store.write now (.scored pair verdict) = .ok next) :
    ∃ confidence, next.verdict? pair = .ok (some { verdict with
      classification := { verdict.classification with
        categories := Category.normalized verdict.classification.categories }
      recommendation := { verdict.recommendation with confidence } }) := by
  obtain ⟨confidence, reread⟩ := Verdict.ofRow?_toRow score finite
  refine ⟨confidence, ?_⟩
  rw [verdict?_of_scored done, reread]

end Answers

end Store

namespace Pass

/-! ### What a course depends on -/

section Courses

variable {pass : Pass} {path : String} {base : Option String} {bytes : ByteArray}
  {files later : FileTree} {store next : Store}

theorem judgeCourse_congr (agree : Store.AgreeOn (pass.target path) store next) (old : String) :
    pass.judgeCourse path bytes old next = pass.judgeCourse path bytes old store := by
  unfold judgeCourse
  dsimp only
  rw [agree.verdicts (pass.pairOf path old bytes) rfl, agree.symbols]

/-- The course of an evaluation depends on what it looks at. -/
theorem course_congr (present : later.exists? (pass.target path) = files.exists? (pass.target path))
    (read : files.exists? (pass.target path) = true →
      later.read (pass.target path) = files.read (pass.target path))
    (agree : Store.AgreeOn (pass.target path) store next) :
    pass.course path base later next = pass.course path base files store := by
  unfold course
  rw [present]
  split
  case isFalse => rfl
  case isTrue holds =>
    rw [read holds]
    cases files.read (pass.target path) with
    | error fault => rfl
    | ok bytes =>
        dsimp only [contentCourse, changedCourse]
        simp only [Store.check_congr agree.row, judgeCourse_congr agree]

/-- A course that keeps no new verdict. -/
def Course.Unscored (course : Course) : Prop :=
  ∀ pair verdict, Effect.wroteStore (.scored pair verdict) ∉ course.effects

theorem judgeCourse_again (time : String) {old : String}
    (unscored : (pass.judgeCourse path bytes old store).Unscored) :
    (pass.again time).judgeCourse path bytes old store = pass.judgeCourse path bytes old store := by
  have place : (pass.again time).target path = pass.target path := rfl
  unfold judgeCourse at unscored ⊢
  dsimp only at unscored ⊢
  rw [pairOf_again, place]
  cases known : store.verdict? (pass.pairOf path old bytes) with
  | error failure => rfl
  | ok kept =>
      cases kept with
      | some verdict => rfl
      | none =>
          cases listed : store.symbolsOf (pass.target path) with
          | error failure => rfl
          | ok documented =>
              rw [known, listed] at unscored
              exact absurd List.mem_cons_self (unscored _ _)

theorem changedCourse_again (time : String) {isNew : Bool}
    (unscored : (pass.changedCourse path base bytes isNew store).Unscored) :
    (pass.again time).changedCourse path base bytes isNew store =
      pass.changedCourse path base bytes isNew store := by
  have history : (pass.again time).history = pass.history := rfl
  unfold changedCourse at unscored ⊢
  cases base with
  | none => rfl
  | some commit =>
      cases isNew with
      | true => rfl
      | false =>
          dsimp only at unscored ⊢
          rw [history]
          cases told : pass.history.textAt path commit with
          | error failure => rfl
          | ok text =>
              cases text with
              | none => rfl
              | some old =>
                  rw [told] at unscored
                  dsimp only at unscored ⊢
                  rw [judgeCourse_again time unscored]

/-- At another time a course is the same, but for a verdict that is new. -/
theorem course_again (time : String) (unscored : (pass.course path base files store).Unscored) :
    (pass.again time).course path base files store = pass.course path base files store := by
  have place : (pass.again time).target path = pass.target path := rfl
  have force : (pass.again time).force = pass.force := rfl
  unfold course at unscored ⊢
  rw [place]
  split
  case isFalse => rfl
  case isTrue holds =>
    rw [if_pos holds] at unscored
    cases read : files.read (pass.target path) with
    | error fault => rfl
    | ok bytes =>
        rw [read] at unscored
        dsimp only at unscored ⊢
        unfold contentCourse at unscored ⊢
        rw [place, force]
        cases checked : store.check (pass.target path) bytes with
        | error failure => rfl
        | ok check =>
            rw [checked] at unscored
            dsimp only at unscored ⊢
            split
            case isTrue => rfl
            case isFalse active =>
              rw [if_neg active] at unscored
              exact changedCourse_again time unscored

/-- A file that was documented as it is, is found unchanged. -/
theorem course_unchanged (unforced : pass.force = false)
    (read : files.read (pass.target path) = .ok bytes)
    (same : store.digestOf? (pass.target path) = some (Digest.ofBytes bytes)) :
    pass.course path base files store = .still (.ok (.skipped path "unchanged")) := by
  rw [course, if_pos (FileTree.exists?_of_read read), read]
  dsimp only
  rw [contentCourse, Store.check_eq]
  cases held : store.ledger with
  | none =>
      rw [Store.digestOf?, held] at same
      cases same
  | some ledger =>
      dsimp only
      rw [same, bne_self_eq_false, unforced]
      rfl

theorem course_kept {commit old : String} {verdict : Store.Verdict}
    (read : files.read (pass.target path) = .ok bytes)
    (due : pass.force = true ∨ store.digestOf? (pass.target path) ≠ some (Digest.ofBytes bytes))
    (known : store.digestOf? (pass.target path) ≠ none) (told : base = some commit)
    (earlier : pass.history.textAt path commit = .ok (some old))
    (kept : store.verdict? (pass.pairOf path old bytes) = .ok (some verdict)) :
    pass.course path base files store =
      (pass.verdictCourse path bytes verdict).afterQuestion (.textAt path commit) := by
  subst told
  obtain ⟨digest, here⟩ := Option.ne_none_iff_exists'.mp known
  have active : ¬((!(store.digestOf? (pass.target path) != some (Digest.ofBytes bytes)) &&
      !pass.force) = true) := by
    rcases due with forced | differs
    · rw [forced, Bool.not_true, Bool.and_false]
      exact Bool.false_ne_true
    · rw [bne_iff_ne.mpr differs, Bool.not_true, Bool.false_and]
      exact Bool.false_ne_true
  rw [course, if_pos (FileTree.exists?_of_read read), read]
  dsimp only
  rw [contentCourse, Store.check_eq]
  cases held : store.ledger with
  | none =>
      rw [Store.digestOf?, held] at here
      cases here
  | some ledger =>
      dsimp only
      rw [if_neg active, here]
      dsimp only [changedCourse, Option.isNone]
      rw [earlier]
      dsimp only [judgeCourse]
      rw [kept]

end Courses

/-! ### What is reported once more -/

/-- What is reported of a file that is settled once more: it is unchanged if it was documented, and
otherwise what was reported before, maybe with another message. -/
inductive Repeats : Outcome → Outcome → Prop
  | processed (path : String) (score : Option Nat) (document : String) :
      Repeats (.processed path score document) (.skipped path "unchanged")
  | skipped (path reason : String) : Repeats (.skipped path reason) (.skipped path reason)
  | failed (path message message' : String) :
      Repeats (.failed path message) (.failed path message')

theorem repeats_self {outcome : Outcome} (idle : outcome.isProcessed = false) :
    Repeats outcome outcome := by
  cases outcome with
  | processed path score document => cases idle
  | skipped path reason => exact .skipped path reason
  | failed path message => exact .failed path message message

/-- Why a file that was settled with some outcome is settled so again, and nothing changes: there is
nothing to change, or its document cannot be made. -/
inductive Stays (pass : Pass) (path : String) (base : Option String) (files : FileTree)
    (store : Store) : Outcome → Prop
  | idle (outcome again : Outcome)
      (still : (pass.course path base files store).effects = [])
      (reported : Reported path (pass.course path base files store).result again)
      (repeats : Repeats outcome again) : Stays pass path base files store outcome
  | blocked (bytes : ByteArray) (generated : Document) (message : String)
      (generates : pass.generator path (Text.decodeLossy bytes) = .ok generated)
      (course : (pass.course path base files store).effects =
        pass.documenting path bytes generated)
      (blocked : pass.Blocked path bytes files) :
      Stays pass path base files store (.failed path message)

/-! ### Settling once more -/

section Again

variable {pass : Pass} {path : String} {base : Option String} {bytes : ByteArray}
  {world last : World} {outcome : Outcome}

theorem Stays.unscored (stays : pass.Stays path base world.files world.store outcome) :
    (pass.course path base world.files world.store).Unscored := by
  intro pair verdict mem
  cases stays with
  | idle outcome again still reported repeats =>
      rw [still] at mem
      cases mem
  | blocked bytes generated message generates course blocked =>
      have documents : pass.documenting path bytes generated =
          (pass.documentCourse path bytes none).effects := by
        rw [documentCourse, generates]
      rw [course, documents] at mem
      exact documentCourse_unscored none mem

/-- Settling a file once more changes nothing, and repeats the outcome. -/
theorem Stays.settled_again (stays : pass.Stays path base world.files world.store outcome)
    (time : String) :
    ∃ again last, (pass.again time).settled path base world = (.ok again, last) ∧
      Matches last world ∧ Repeats outcome again := by
  have same := course_again time stays.unscored
  cases stays with
  | idle outcome again still reported repeats =>
      have carried : ((pass.again time).course path base world.files world.store).carriedOut
          (pass.again time).now world = ((pass.course path base world.files world.store).result,
            { world with asked := world.asked ++
                (pass.course path base world.files world.store).asked }) := by
        rw [same, Course.carriedOut, still, carry]
      exact ⟨again, _, settled_of_reported carried reported, ⟨rfl, rfl⟩, repeats⟩
  | blocked bytes generated message generates course blocked =>
      obtain ⟨fault, last, ended, stayed⟩ := carry_documenting_blocked (pass.again time).now
        (pass.course path base world.files world.store).result
        { world with asked := world.asked ++
            (pass.course path base world.files world.store).asked } generates blocked
      have carried : ((pass.again time).course path base world.files world.store).carriedOut
          (pass.again time).now world = (.error (.file fault), last) := by
        rw [same, Course.carriedOut, course]
        exact ended
      exact ⟨.failed path (Failure.file fault).message, last,
        settled_of_reported carried (.failed (.file fault) rfl), ⟨stayed.1, stayed.2⟩,
        .failed path message _⟩

/-! ### Other files -/

/-- Settling a file leaves alone what is kept of another. -/
theorem settled_agreeOn {other target : String} {after : World}
    (different : pass.target other ≠ target)
    (settled : pass.settled other base world = (.ok outcome, after)) :
    Store.AgreeOn target world.store after.store := by
  have accounts := (settled_settles settled).accounts
  have own : pass.documented [outcome] ⊆ [pass.target other] := by
    have here := documented_subset pass [outcome]
    rw [List.map_singleton, settled_path settled] at here
    exact here
  apply Store.AgreeOn.of_accounts accounts
  · exact fun mem => different (List.mem_singleton.mp mem).symm
  · exact fun mem => different (List.mem_singleton.mp (own mem)).symm

/-- Settling another file leaves it so that settling a file once more changes nothing. -/
theorem Stays.elsewhere {other : String} {first : Outcome} {after : World}
    (stays : pass.Stays path base world.files world.store outcome)
    (formed : world.files.WellFormed)
    (apart : world.files.Apart (pass.documentTarget other) (pass.target path))
    (different : pass.target other ≠ pass.target path)
    (settled : pass.settled other base world = (.ok first, after)) :
    pass.Stays path base after.files after.store outcome := by
  have begins : Reads world.files (pass.target path) (world.files.exists? (pass.target path))
      (world.files.read (pass.target path)) world.files :=
    ⟨formed, .refl _, rfl, fun _ => rfl⟩
  have reads := settled_keeps base (reads_kept apart) begins
  rw [settled] at reads
  have same : pass.course path base after.files after.store =
      pass.course path base world.files world.store :=
    course_congr reads.present reads.contents (settled_agreeOn different settled)
  cases stays with
  | idle outcome again still reported repeats =>
      rw [← same] at still reported
      exact .idle outcome again still reported repeats
  | blocked bytes generated message generates course blocked =>
      rw [← same] at course
      exact .blocked bytes generated message generates course
        (blocked.grows formed reads.grown reads.formed)

end Again

end Pass

end DocDrift
