import DocDrift.Proofs.FileTree.Presence
import DocDrift.Proofs.Pass.Abreast
import DocDrift.Proofs.Pass.Runs

/-!
Forced passes. A forced pass starts from nothing, so it asks the history for its head and its files
only, and documents whatever it can read. What the store holds and how changes are scored has no say
in it.
-/

set_option autoImplicit false

namespace DocDrift.Pass

def scoredBy (pass : Pass) (policy : Policy) : Pass :=
  { pass with config := { pass.config with scoring := policy } }

/-! ### Evaluating a file -/

/-- The course of an evaluation in a forced pass, by whether there is a ledger. -/
def forcedCourse (pass : Pass) (path : String) (files : FileTree) (held : Bool) : Course :=
  if files.exists? (pass.target path) then
    match files.read (pass.target path) with
    | .error fault => .still (.error (.unreadable (pass.target path) fault))
    | .ok bytes => if held then pass.documentCourse path bytes none else .still (.error .store)
  else .still (.ok (.skipped path "deleted"))

theorem course_forced {pass : Pass} (forced : pass.force = true) (path : String)
    (files : FileTree) (store : Store) :
    pass.course path none files store =
      pass.forcedCourse path files store.ledger.isSome := by
  unfold course forcedCourse
  split
  · cases files.read (pass.target path) with
    | error fault => rfl
    | ok bytes =>
        dsimp only
        unfold contentCourse
        rw [Store.check_eq]
        cases store.ledger with
        | none => rfl
        | some ledger =>
            dsimp only
            rw [forced, Bool.not_true, Bool.and_false, if_neg Bool.false_ne_true,
              Option.isSome_some, if_pos rfl]
            rfl
  · rfl

/-- How changes are scored has no say in a forced evaluation. -/
theorem forcedCourse_scoredBy (pass : Pass) (policy : Policy) (path : String) (files : FileTree)
    (held : Bool) :
    (pass.scoredBy policy).forcedCourse path files held = pass.forcedCourse path files held := rfl

section Forced

variable {pass : Pass} {path : String} {files : FileTree} {sameTables : Prop} {left right : World}

/-- The courses that a forced evaluation takes. -/
inductive ForcedEvaluation (pass : Pass) (path : String) (files : FileTree) : Course → Prop
  | deleted (gone : files.exists? (pass.target path) = false) :
      ForcedEvaluation pass path files (.still (.ok (.skipped path "deleted")))
  | failed (failure : Failure) : ForcedEvaluation pass path files (.still (.error failure))
  | documented (bytes : ByteArray) (read : files.read (pass.target path) = .ok bytes) :
      ForcedEvaluation pass path files (pass.documentCourse path bytes none)

theorem forcedCourse_evaluation (pass : Pass) (path : String) (files : FileTree) (held : Bool) :
    pass.ForcedEvaluation path files (pass.forcedCourse path files held) := by
  unfold forcedCourse
  split
  case isFalse gone => exact .deleted (Bool.eq_false_iff.mpr gone)
  case isTrue present =>
    cases read : files.read (pass.target path) with
    | error fault => exact .failed _
    | ok bytes =>
        cases held with
        | false => exact .failed _
        | true => exact .documented bytes read

theorem Documents.unscored {effect : Effect} (documents : pass.Documents path files effect) :
    ¬effect.IsScored := by
  cases documents <;> exact id

theorem Abreast.still (abreast : Abreast sameTables left right) (result : Except Failure Outcome)
    (now : String) :
    InStep sameTables Eq ((Course.still result).carriedOut now left)
      ((Course.still result).carriedOut now right) := by
  rw [Course.carriedOut_still, Course.carriedOut_still]
  cases result with
  | ok outcome => exact .ended rfl abreast
  | error failure => exact .failed failure abreast

theorem Abreast.documentCourse {bytes : ByteArray} (abreast : Abreast sameTables left right)
    (read : files.read (pass.target path) = .ok bytes) (score : Option Nat) :
    InStep sameTables Eq ((pass.documentCourse path bytes score).carriedOut pass.now left)
      ((pass.documentCourse path bytes score).carriedOut pass.now right) := by
  rw [Course.carriedOut, Course.carriedOut, documentCourse_asked, List.append_nil,
    List.append_nil]
  refine Abreast.carry abreast (fun effect mem => ?_) _
  exact (documentCourse_documents read score effect mem).unscored

/-- What becomes of a file depends on the store only in whether there is a ledger. -/
theorem Abreast.evaluate (abreast : Abreast sameTables left right) (forced : pass.force = true)
    (policy : Policy) (path : String) :
    InStep sameTables Eq ((pass.evaluate path none).run left)
      (((pass.scoredBy policy).evaluate path none).run right) := by
  have forced' : (pass.scoredBy policy).force = true := forced
  have sameNow : (pass.scoredBy policy).now = pass.now := rfl
  rw [run_evaluate, run_evaluate, course_forced forced, course_forced forced',
    forcedCourse_scoredBy, sameNow, abreast.files]
  unfold forcedCourse
  split
  case isFalse => exact abreast.still _ _
  case isTrue =>
    cases read : right.files.read (pass.target path) with
    | error fault => exact abreast.still _ _
    | ok bytes =>
        have uneven : left.store.ledger.isSome ≠ right.store.ledger.isSome → ¬sameTables :=
          fun differ even => differ (abreast.tables even).ledger
        cases held : left.store.ledger.isSome with
        | true =>
            cases held' : right.store.ledger.isSome with
            | true => exact abreast.documentCourse read none
            | false =>
                refine .uneven (uneven ?_) (.inr rfl)
                rw [held, held']
                exact Bool.noConfusion
        | false =>
            cases held' : right.store.ledger.isSome with
            | true =>
                refine .uneven (uneven ?_) (.inl rfl)
                rw [held, held']
                exact Bool.noConfusion
            | false => exact abreast.still _ _

theorem settle_of_store {world : World} {base : Option String}
    (failed : ((pass.evaluate path base).run world).1 = .error .store) :
    ((pass.settle path base).run world).1 = .error .store := by
  rw [settle, run_tryCatch]
  rcases ran : (pass.evaluate path base).run world with ⟨result, after⟩
  rw [ran] at failed
  cases failed
  rfl

theorem Abreast.settle (abreast : Abreast sameTables left right) (forced : pass.force = true)
    (policy : Policy) (path : String) :
    InStep sameTables Eq ((pass.settle path none).run left)
      (((pass.scoredBy policy).settle path none).run right) := by
  have evaluated := abreast.evaluate forced policy path
  have broken : ((pass.evaluate path none).run left).1 = .error .store →
      ((pass.settle path none).run left).1 = .error .store :=
    settle_of_store
  have broken' : (((pass.scoredBy policy).evaluate path none).run right).1 = .error .store →
      (((pass.scoredBy policy).settle path none).run right).1 = .error .store :=
    settle_of_store
  rw [Pass.settle, Pass.settle, run_tryCatch, run_tryCatch] at *
  generalize (pass.evaluate path none).run left = one at evaluated broken ⊢
  generalize ((pass.scoredBy policy).evaluate path none).run right = other at evaluated broken' ⊢
  cases evaluated with
  | ended results abreast => exact .ended results abreast
  | failed failure abreast =>
      dsimp only
      split
      · exact .failed failure abreast
      · exact .ended rfl abreast
  | uneven uneven failed => exact .uneven uneven (failed.imp broken broken')

/-- Files are settled alike one after another. -/
theorem Abreast.settleAll (abreast : Abreast sameTables left right) (forced : pass.force = true)
    (policy : Policy) (paths : List String) :
    InStep sameTables Eq ((pass.settleAll none paths).run left)
      (((pass.scoredBy policy).settleAll none paths).run right) := by
  induction paths generalizing left right with
  | nil => exact .ended rfl abreast
  | cons path rest ih =>
      rw [Pass.settleAll, Pass.settleAll]
      refine (abreast.settle forced policy path).bind ?_
      rintro outcome _ left right rfl abreast
      refine (ih abreast).bind ?_
      rintro outcomes _ left right rfl abreast
      exact .ended rfl abreast

theorem run_baseOf_forced (forced : pass.force = true) (previous : Option String)
    (world : World) : (pass.baseOf previous).run world = (.ok none, world) := by
  cases previous with
  | none => rfl
  | some commit =>
      rw [baseOf, forced]
      rfl

/-- Two forced passes go on side by side until they end. -/
theorem Abreast.steps (abreast : Abreast sameTables left right) (forced : pass.force = true)
    (policy : Policy) :
    InStep sameTables (fun report report' => report.outcomes = report'.outcomes)
      (pass.steps.run left) ((pass.scoredBy policy).steps.run right) := by
  have forced' : (pass.scoredBy policy).force = true := forced
  unfold Pass.steps
  refine (abreast.ask .head pass.history.head).bind ?_
  rintro head _ left right rfl abreast
  cases head with
  | none => exact .ended rfl abreast
  | some head =>
      dsimp only
      refine (abreast.marker pass.repository).bind ?_
      intro marker marker' left right _found abreast
      rw [forced, forced', Bool.not_true, Bool.and_false, Bool.and_false,
        if_neg Bool.false_ne_true, if_neg Bool.false_ne_true]
      rw [run_bind, run_bind, run_baseOf_forced forced, run_baseOf_forced forced']
      dsimp only
      refine (abreast.ask .files pass.history.files).bind ?_
      rintro named _ left right rfl abreast
      refine (abreast.settleAll forced policy _).bind ?_
      rintro outcomes _ left right rfl abreast
      have processed := abreast.perform pass (.wroteStore (.processed pass.repository head)) id
      refine processed.bind ?_
      rintro _ _ left right rfl abreast
      exact .ended rfl abreast

end Forced

/-! ### What a forced pass leaves alone -/

/-- What a forced pass reports of a file: a document without a score, or a failure, unless the file
was missing from the files that the pass began with. -/
def ForcedOutcome (pass : Pass) (files : FileTree) : Outcome → Prop
  | .processed _ score _ => score = none
  | .skipped path reason => reason = "deleted" ∧ files.exists? (pass.target path) = false
  | .failed _ _ => True

/-- Where a forced pass may have got to. -/
structure Unscored (files : FileTree) (store : Store) (world : World) : Prop where
  asked : ∀ question ∈ world.asked, question = .head ∨ question = .files
  effects : ∀ effect ∈ world.effects, ¬effect.IsScored
  analyses : world.store.analyses = store.analyses
  grown : files.Grows world.files

/-- What a step comes to that keeps a property of the world and yields values of some kind. -/
structure Sound (kept : World → Prop) {α : Type} (yields : α → Prop)
    (result : Except Failure α × World) : Prop where
  world : kept result.2
  value : ∀ value, result.1 = .ok value → yields value

section Leaves

variable {pass : Pass} {path : String} {files : FileTree} {store : Store} {world next : World}
  {kept : World → Prop} {α β : Type} {yields : α → Prop} {yields' : β → Prop}

theorem Sound.error {failure : Failure} (held : kept world) :
    Sound kept yields (.error failure, world) :=
  ⟨held, fun _ ended => nomatch ended⟩

theorem Sound.ok {value : α} (held : kept world) (yielded : yields value) :
    Sound kept yields (.ok value, world) := by
  refine ⟨held, ?_⟩
  rintro _ ⟨rfl⟩
  exact yielded

theorem Sound.bind {step : Step α} {next : α → Step β} (first : Sound kept yields (step.run world))
    (second : ∀ value after, yields value → kept after →
      Sound kept yields' ((next value).run after)) :
    Sound kept yields' ((step >>= next).run world) := by
  rw [run_bind]
  generalize step.run world = result at first ⊢
  obtain ⟨result, after⟩ := result
  cases result with
  | ok value => exact second value after (first.value value rfl) first.world
  | error failure => exact .error first.world

/-- A change that keeps no verdict leaves the verdicts alone, and takes no file away. -/
theorem Unscored.follow {now : String} {effect : Effect} (held : Unscored files store world)
    (unscored : ¬effect.IsScored) (followed : world.follow now effect = .ok next) :
    Unscored files store next := by
  have listed : ∀ other ∈ world.effects ++ [effect], ¬other.IsScored := by
    intro other mem
    rcases List.mem_append.mp mem with before | last
    · exact held.effects other before
    · rw [List.mem_singleton.mp last]
      exact unscored
  cases effect with
  | madeParent path =>
      obtain ⟨made, done, rfl⟩ := follow_madeParent.mp followed
      exact ⟨held.asked, listed, held.analyses,
        held.grown.trans (FileTree.makeParent_grows done)⟩
  | wroteFile path text =>
      obtain ⟨written, done, rfl⟩ := follow_wroteFile.mp followed
      exact ⟨held.asked, listed, held.analyses, held.grown.trans (FileTree.grows_of_write done)⟩
  | wroteStore write =>
      obtain ⟨kept, wrote, rfl⟩ := follow_wroteStore.mp followed
      refine ⟨held.asked, listed, ?_, held.grown⟩
      rw [(Store.write_tables wrote).2.2.2, ← held.analyses]
      cases write with
      | scored pair verdict => exact absurd trivial unscored
      | _ => exact Option.map_id'

theorem Unscored.look (held : Unscored files store world) (find : Store → Except Failure α) :
    Sound (Unscored files store) (fun _ => True) ((Pass.look find).run world) := by
  rw [run_look]
  exact ⟨held, fun _ _ => trivial⟩

theorem Unscored.perform (held : Unscored files store world) (pass : Pass) (effect : Effect)
    (unscored : ¬effect.IsScored) :
    Sound (Unscored files store) (fun _ => True) ((pass.perform effect).run world) := by
  rw [run_perform]
  cases followed : world.follow pass.now effect with
  | error failure => exact .error held
  | ok next => exact .ok (held.follow unscored followed) trivial

theorem Unscored.ask {question : Question} (held : Unscored files store world)
    (known : question = .head ∨ question = .files) (answer : Except Failure α) :
    Sound (Unscored files store) (fun _ => True) ((Pass.ask question answer).run world) := by
  rw [run_ask]
  refine ⟨⟨?_, held.effects, held.analyses, held.grown⟩, fun _ _ => trivial⟩
  intro other mem
  rcases List.mem_append.mp mem with before | last
  · exact held.asked other before
  · rw [List.mem_singleton.mp last]
    exact known

theorem Unscored.evaluate (held : Unscored files store world) (forced : pass.force = true)
    (path : String) :
    Sound (Unscored files store) (pass.ForcedOutcome files)
      ((pass.evaluate path none).run world) := by
  rw [run_evaluate, course_forced forced]
  have evaluated :=
    forcedCourse_evaluation pass path world.files world.store.ledger.isSome
  generalize pass.forcedCourse path world.files world.store.ledger.isSome = course at evaluated ⊢
  cases evaluated with
  | deleted gone =>
      rw [Course.carriedOut_still]
      refine .ok held ⟨rfl, ?_⟩
      rw [Bool.eq_false_iff]
      intro present
      rw [held.grown.stays present] at gone
      cases gone
  | failed failure =>
      rw [Course.carriedOut_still]
      exact .error held
  | documented bytes read =>
      rw [Course.carriedOut, documentCourse_asked, List.append_nil]
      refine ⟨?_, ?_⟩
      · refine carry_keeps _ _ (fun effect mem before after followed kept => ?_) held
        exact kept.follow (documentCourse_documents read none effect mem).unscored followed
      · intro outcome ended
        have reached := carry_ok (Prod.ext ended rfl)
        rw [Pass.documentCourse] at reached
        split at reached
        · cases reached
        · cases reached
          exact rfl

theorem Unscored.settle (held : Unscored files store world) (forced : pass.force = true)
    (path : String) :
    Sound (Unscored files store) (pass.ForcedOutcome files)
      ((pass.settle path none).run world) := by
  have evaluated := held.evaluate forced path
  rw [Pass.settle, run_tryCatch]
  generalize (pass.evaluate path none).run world = result at evaluated ⊢
  obtain ⟨result, after⟩ := result
  cases result with
  | ok outcome => exact evaluated
  | error failure =>
      dsimp only
      split
      · exact .error evaluated.world
      · exact .ok evaluated.world trivial

theorem Unscored.settleAll (held : Unscored files store world) (forced : pass.force = true)
    (paths : List String) :
    Sound (Unscored files store)
      (fun outcomes => ∀ outcome ∈ outcomes, pass.ForcedOutcome files outcome)
      ((pass.settleAll none paths).run world) := by
  induction paths generalizing world with
  | nil => exact .ok held (fun _ mem => nomatch mem)
  | cons path rest ih =>
      rw [Pass.settleAll]
      refine (held.settle forced path).bind ?_
      intro outcome after first held
      refine (ih held).bind ?_
      intro outcomes last others held
      exact .ok held (List.forall_mem_cons.mpr ⟨first, others⟩)

theorem Unscored.steps (held : Unscored files store world) (forced : pass.force = true) :
    Sound (Unscored files store)
      (fun report => ∀ outcome ∈ report.outcomes, pass.ForcedOutcome files outcome)
      (pass.steps.run world) := by
  unfold Pass.steps
  refine (held.ask (.inl rfl) pass.history.head).bind ?_
  intro head after _found held
  cases head with
  | none => exact .ok held (fun _ mem => nomatch mem)
  | some head =>
      dsimp only
      refine (held.look _).bind ?_
      intro marker after _found held
      rw [forced, Bool.not_true, Bool.and_false, if_neg Bool.false_ne_true, run_bind,
        run_baseOf_forced forced]
      dsimp only
      refine (held.ask (.inr rfl) pass.history.files).bind ?_
      intro named after _found held
      refine (held.settleAll forced _).bind ?_
      intro outcomes after each held
      refine (held.perform pass (.wroteStore (.processed pass.repository head)) id).bind ?_
      intro _ after _done held
      exact .ok held each

end Leaves

/-! ### Whole passes -/

/-- Forced passes do not depend on what is stored, nor on how changes are scored: whatever two
stores hold, and whatever two policies say, both passes report the same of the same files, and with
the same tables at hand they make the same changes. A file is passed over only if it is missing, no
file has a score, the history is asked for nothing but its head and its files, and no verdict is
kept. -/
theorem forced_independent (pass : Pass) (forced : pass.force = true) (files : FileTree)
    (store other : Store) (policy : Policy) :
    (store.SameTables other →
      (pass.run files store).1.map (·.outcomes) =
          ((pass.scoredBy policy).run files other).1.map (·.outcomes) ∧
        (pass.run files store).2.files = ((pass.scoredBy policy).run files other).2.files ∧
        (pass.run files store).2.effects = ((pass.scoredBy policy).run files other).2.effects ∧
        (pass.run files store).2.asked = ((pass.scoredBy policy).run files other).2.asked) ∧
      (∀ report report', (pass.run files store).1 = .ok report →
        ((pass.scoredBy policy).run files other).1 = .ok report' →
        report.outcomes = report'.outcomes) ∧
      (∀ report, (pass.run files store).1 = .ok report →
        ∀ outcome ∈ report.outcomes, pass.ForcedOutcome files outcome) ∧
      (∀ question ∈ (pass.run files store).2.asked, question = .head ∨ question = .files) ∧
      (∀ pair verdict,
        .wroteStore (.scored pair verdict) ∉ (pass.run files store).2.effects) ∧
      (pass.run files store).2.store.analyses = store.analyses := by
  have begins : Abreast (store.SameTables other) (World.start files store)
      (World.start files other) := ⟨rfl, rfl, rfl, id⟩
  have side := begins.steps forced policy
  have fresh : Unscored files store (World.start files store) :=
    ⟨fun _ mem => (nomatch mem), fun _ mem => (nomatch mem), rfl, .refl files⟩
  have sound := fresh.steps forced
  change InStep _ _ (pass.run files store) ((pass.scoredBy policy).run files other) at side
  change Sound _ _ (pass.run files store) at sound
  refine ⟨?_, ?_, sound.value, sound.world.asked, ?_, sound.world.analyses⟩
  · intro even
    generalize pass.run files store = one at side
    generalize (pass.scoredBy policy).run files other = two at side
    cases side with
    | ended results abreast =>
        exact ⟨congrArg Except.ok results, abreast.files, abreast.effects, abreast.asked⟩
    | failed failure abreast => exact ⟨rfl, abreast.files, abreast.effects, abreast.asked⟩
    | uneven uneven failed => exact absurd even uneven
  · intro report report' ended ended'
    generalize pass.run files store = one at side ended
    generalize (pass.scoredBy policy).run files other = two at side ended'
    cases side with
    | ended results abreast =>
        cases ended
        cases ended'
        exact results
    | failed failure abreast => cases ended
    | uneven uneven failed =>
        rw [ended, ended'] at failed
        rcases failed with failed | failed <;> cases failed
  · intro pair verdict mem
    exact sound.world.effects _ mem trivial

def forcedLayoutPass : Pass :=
  { layoutPass "second" with force := true }

/-- A forced pass documents a file again of which a change was scored before, and does not ask how
that would be scored now. -/
theorem forced_independent_of_layout :
    (forcedLayoutPass.run (layoutFiles "<?php\nfunction f()  {}\n") .empty).1.map (·.outcomes) =
        ((forcedLayoutPass.scoredBy { Policy.standard with layoutPoints := 70 }).run
          (layoutFiles "<?php\nfunction f()  {}\n") layoutStore).1.map (·.outcomes) ∧
      (forcedLayoutPass.run (layoutFiles "<?php\nfunction f()  {}\n") .empty).1 =
        .ok ⟨some "second", none, [.processed "a.php" none "docs/api/a.md"], true⟩ :=
  ⟨((forced_independent forcedLayoutPass rfl _ .empty layoutStore _).1
      ⟨by decide +kernel, by decide +kernel, by decide +kernel, by decide +kernel⟩).1,
    ok_of_toOption (by decide +kernel)⟩

end DocDrift.Pass
