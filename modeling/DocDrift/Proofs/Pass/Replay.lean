import DocDrift.Proofs.Pass.Completeness
import DocDrift.Proofs.Pass.Interruption
import DocDrift.Proofs.Pass.Repetition

/-!
Passes that are made once more over the same range of commits. If the marker of the repository is put
back to where it was, the pass goes through the same files again. Those that were documented are
unchanged, those that were skipped are skipped for the same reason, those that failed fail; and the
store is left as it was.
-/

set_option autoImplicit false

namespace DocDrift.Pass

/-! ### Confidences -/

/-- A change keeps no verdict whose confidence is not finite. -/
def Effect.isFinite : Effect → Bool
  | .wroteStore (.scored _ verdict) => verdict.recommendation.confidence.isFinite
  | _ => true

/-- Every verdict that was kept has a finite confidence. -/
def Finite (effects : List Effect) : Prop :=
  ∀ effect ∈ effects, effect.isFinite = true

theorem Finite.of_append {effects more : List Effect} (finite : Finite (effects ++ more)) :
    Finite effects :=
  fun effect mem => finite effect (List.mem_append_left more mem)

/-! ### What was settled -/

section Settled

variable {pass : Pass} {path : String} {base : Option String} {bytes : ByteArray}
  {begun last : World} {ended : Except Failure Outcome} {outcome : Outcome}

theorem freshVerdict_score (old : String) (documented : List String) :
    (pass.freshVerdict old bytes documented).score ≤ 100 := by
  unfold freshVerdict
  rw [structureOf_delta, Analysis.ofValid_between]
  exact Significance.of_score_le ..

/-- A course that changes nothing leads to the same outcome again. -/
theorem stays_of_still (still : (pass.course path base begun.files begun.store).effects = [])
    (reported : Reported path (pass.course path base begun.files begun.store).result outcome)
    (idle : outcome.isProcessed = false) : pass.Stays path base begun.files begun.store outcome :=
  .idle outcome outcome still reported (repeats_self idle)

/-- A file that was to be documented is documented, or its document cannot be made. -/
theorem stays_of_document {score : Option Nat} (unforced : pass.force = false)
    (formed : begun.files.WellFormed)
    (apart : begun.files.Apart (pass.documentTarget path) (pass.target path))
    (read : begun.files.read (pass.target path) = .ok bytes)
    (differs : begun.store.digestOf? (pass.target path) ≠ some (Digest.ofBytes bytes))
    (effects : (pass.course path base begun.files begun.store).effects =
      (pass.documentCourse path bytes score).effects)
    (result : (pass.course path base begun.files begun.store).result =
      (pass.documentCourse path bytes score).result)
    (carried : carry pass.now (pass.documentCourse path bytes score).result
      (pass.documentCourse path bytes score).effects begun = (ended, last))
    (reported : Reported path ended outcome) :
    pass.Stays path base last.files last.store outcome := by
  obtain ⟨readLast, documented⟩ :=
    documented_or_blocked formed apart read carried reported.sound
  unfold documentCourse at effects result carried
  cases generates : pass.generator path (Text.decodeLossy bytes) with
  | error failure =>
      rw [generates] at effects result carried
      cases carried
      cases reported with
      | failed failure harmless =>
          refine stays_of_still effects ?_ rfl
          rw [result]
          exact .failed failure harmless
  | ok generated =>
      rw [generates] at effects carried
      dsimp only at effects carried
      cases reported with
      | done outcome =>
          have row := (documenting_ok generates carried).1.row
          cases carry_ok carried
          have unchanged : pass.course path base last.files last.store =
              .still (.ok (.skipped path "unchanged")) :=
            course_unchanged unforced readLast (Store.digestOf?_of_row row)
          refine .idle _ (.skipped path "unchanged") ?_ ?_ (.processed path score _)
          · rw [unchanged]
            rfl
          · rw [unchanged]
            exact .done _
      | failed failure harmless =>
          have store := (documenting_error carried harmless).1
          rcases documented with same | ⟨blocked, _same⟩
          · rw [store] at same
            exact absurd same differs
          · have course : pass.course path base last.files last.store =
                pass.course path base begun.files begun.store := by
              apply course_congr
              · rw [FileTree.exists?_of_read readLast, FileTree.exists?_of_read read]
              · exact fun _present => readLast.trans read.symm
              · exact store ▸ .refl _ _
            refine .blocked bytes generated _ generates ?_ blocked
            rw [course, effects]

/-- A file whose change has a verdict is documented, or cannot be, or is skipped. -/
theorem stays_of_verdict {verdict : Store.Verdict} (unforced : pass.force = false)
    (formed : begun.files.WellFormed)
    (apart : begun.files.Apart (pass.documentTarget path) (pass.target path))
    (read : begun.files.read (pass.target path) = .ok bytes)
    (differs : begun.store.digestOf? (pass.target path) ≠ some (Digest.ofBytes bytes))
    (effects : (pass.course path base begun.files begun.store).effects =
      (pass.verdictCourse path bytes verdict).effects)
    (result : (pass.course path base begun.files begun.store).result =
      (pass.verdictCourse path bytes verdict).result)
    (carried : carry pass.now (pass.verdictCourse path bytes verdict).result
      (pass.verdictCourse path bytes verdict).effects begun = (ended, last))
    (reported : Reported path ended outcome) :
    pass.Stays path base last.files last.store outcome := by
  unfold verdictCourse at effects result carried
  split at carried
  case isTrue favours =>
    rw [if_pos favours] at effects result
    exact stays_of_document unforced formed apart read differs effects result carried reported
  case isFalse against =>
    rw [if_neg against] at effects result
    cases carried
    cases reported with
    | done outcome =>
        refine stays_of_still effects ?_ rfl
        rw [result]
        exact .done _

/-- A change that was scored has the same verdict when its file is settled once more. -/
theorem stays_of_scored {commit old : String} {verdict : Store.Verdict} {store : Store}
    (unforced : pass.force = false) (formed : begun.files.WellFormed)
    (apart : begun.files.Apart (pass.documentTarget path) (pass.target path))
    (read : begun.files.read (pass.target path) = .ok bytes)
    (differs : begun.store.digestOf? (pass.target path) ≠ some (Digest.ofBytes bytes))
    (known : begun.store.digestOf? (pass.target path) ≠ none) (told : base = some commit)
    (earlier : pass.history.textAt path commit = .ok (some old))
    (score : verdict.score ≤ 100)
    (finite : verdict.recommendation.confidence.isFinite = true)
    (wrote : begun.store.write pass.now (.scored (pass.pairOf path old bytes) verdict) = .ok store)
    (carried : carry pass.now (pass.verdictCourse path bytes verdict).result
      (pass.verdictCourse path bytes verdict).effects
      { begun with store, effects := begun.effects ++ [.wroteStore (.scored
        (pass.pairOf path old bytes) verdict)] } = (ended, last))
    (reported : Reported path ended outcome) :
    pass.Stays path base last.files last.store outcome := by
  obtain ⟨confidence, kept⟩ := Store.verdict?_scored (score.trans (by decide)) finite wrote
  have digest : store.digestOf? (pass.target path) = begun.store.digestOf? (pass.target path) :=
    Store.digestOf?_write wrote _
  rw [← digest] at differs known
  -- Of a verdict a course uses the score, the reasons and whether it is in favour.
  have course : pass.course path base begun.files store =
      (pass.verdictCourse path bytes verdict).afterQuestion (.textAt path commit) :=
    (course_kept read (.inr differs) known told earlier kept).trans rfl
  have effects := congrArg Course.effects course
  have result := congrArg Course.result course
  rw [Course.afterQuestion_effects] at effects
  rw [Course.afterQuestion_result] at result
  refine stays_of_verdict unforced ?_ ?_ ?_ ?_ ?_ ?_ carried reported
  · exact formed
  · exact apart
  · exact read
  · exact differs
  · exact effects
  · exact result

/-- A file that was settled is settled so again. -/
theorem stays_of_settled {world : World} (unforced : pass.force = false)
    (formed : world.files.WellFormed)
    (apart : world.files.Apart (pass.documentTarget path) (pass.target path))
    (settled : pass.settled path base world = (.ok outcome, last))
    (finite : Finite last.effects) : pass.Stays path base last.files last.store outcome := by
  obtain ⟨ended, carried, reported⟩ := settled_ended settled
  unfold Course.carriedOut at carried
  -- To ask a question changes neither the files nor the store.
  obtain ⟨begun, same⟩ : ∃ begun : World, begun = { world with asked := world.asked ++
      (pass.course path base world.files world.store).asked } := ⟨_, rfl⟩
  have files : begun.files = world.files := by rw [same]
  have store : begun.store = world.store := by rw [same]
  rw [← same, ← files, ← store] at carried
  rw [← files] at formed apart
  have evaluated := course_evaluation pass path base begun.files begun.store
  generalize chosen : pass.course path base begun.files begun.store = course at evaluated carried
  have effects := congrArg Course.effects chosen
  have result := congrArg Course.result chosen
  cases evaluated with
  | deleted gone =>
      cases carried
      cases reported with
      | done outcome => exact stays_of_still effects (result ▸ .done _) rfl
  | unreadable fault present unread =>
      cases carried
      cases reported with
      | failed failure harmless => exact stays_of_still effects (result ▸ .failed _ harmless) rfl
  | unlisted unheld =>
      cases carried
      exact absurd rfl reported.sound
  | unchanged bytes read unforced same =>
      cases carried
      cases reported with
      | done outcome => exact stays_of_still effects (result ▸ .done _) rfl
  | untold commit failure known told failed =>
      cases carried
      cases reported with
      | failed failure harmless => exact stays_of_still effects (result ▸ .failed _ harmless) rfl
  | baseless bytes read due baseless =>
      exact stays_of_document unforced formed apart read (unforced_due unforced due) effects result
        carried reported
  | added bytes commit read due known told absent =>
      exact stays_of_document unforced formed apart read (unforced_due unforced due) effects result
        carried reported
  | changed bytes commit old read due known told earlier =>
      rw [Course.afterQuestion_effects, Course.afterQuestion_result] at carried
      rw [Course.afterQuestion_effects] at effects
      rw [Course.afterQuestion_result] at result
      have judged := judgeCourse_judgement pass path bytes old begun.store
      generalize pass.judgeCourse path bytes old begun.store = course at judged carried effects result
      cases judged with
      | undecided failure failed =>
          cases carried
          cases reported with
          | failed failure harmless =>
              exact stays_of_still effects (result ▸ .failed _ harmless) rfl
      | kept verdict knownVerdict =>
          exact stays_of_verdict unforced formed apart read (unforced_due unforced due) effects
            result carried reported
      | fresh documented unknown listed =>
          rw [Course.afterEffect_effects, Course.afterEffect_result] at carried
          obtain ⟨store, wrote, carried⟩ := carry_wrote carried reported.sound
          obtain ⟨count, _within, reached, _part⟩ := carry_reached carried
          have scored := (reached ▸ finite).of_append _
            (List.mem_append_right _ (List.mem_singleton_self _))
          exact stays_of_scored unforced formed apart read (unforced_due unforced due) known told
            earlier (freshVerdict_score old documented.names) scored wrote carried reported

end Settled

/-! ### Files one after another -/

section Files

variable {pass : Pass} {base : Option String} {tree : FileTree} {paths all : List String}
  {world last : World} {outcomes : List Outcome}

/-- Some files have different names in the store, and no document belongs at one of them or below. -/
structure Separate (pass : Pass) (tree : FileTree) (paths : List String) : Prop where
  names : ∀ path ∈ paths, ∀ other ∈ paths, pass.target path = pass.target other → path = other
  documents : ∀ path ∈ paths, ∀ other ∈ paths,
    tree.Apart (pass.documentTarget path) (pass.target other)

/-- Names that are relative to the repository are different names in the store. -/
theorem separate_of_relative (relative : ∀ path ∈ paths, Path.isAbsolute path = false)
    (documents : ∀ path ∈ paths, ∀ other ∈ paths,
      tree.Apart (pass.documentTarget path) (pass.target other)) : pass.Separate tree paths :=
  ⟨fun path mem other memOther => target_inj (relative path mem) (relative other memOther), documents⟩

/-- A file that is settled so again is settled so after others, and after itself. -/
theorem Stays.settledAll {path : String} {outcome : Outcome} (separate : pass.Separate tree all)
    (within : ∀ other ∈ paths, other ∈ all) (mem : path ∈ all) (formed : world.files.WellFormed)
    (grown : tree.Grows world.files)
    (settled : pass.settledAll base paths world = (.ok outcomes, last))
    (stays : pass.Stays path base world.files world.store outcome) :
    pass.Stays path base last.files last.store outcome := by
  induction paths generalizing world outcomes with
  | nil =>
      obtain ⟨_none, rfl⟩ := settledAll_nil settled
      exact stays
  | cons other rest ih =>
      obtain ⟨first, others, middle, settles, rested, rfl⟩ := settledAll_cons settled
      have otherMem := within other List.mem_cons_self
      have own := separate.documents other otherMem other otherMem
      have reads := settled_reads own formed grown settles
      refine ih (fun next mem => within next (List.mem_cons_of_mem _ mem)) reads.formed reads.grown
        rested ?_
      -- A file may be named more than once; settling it again changes nothing.
      by_cases same : pass.target other = pass.target path
      · obtain rfl := separate.names other otherMem path mem same
        obtain ⟨again, after, settled', stayed, _repeats⟩ := stays.settled_again pass.now
        have reached : middle = after := congrArg Prod.snd (settles.symm.trans settled')
        rw [reached, stayed.files, stayed.store]
        exact stays
      · exact stays.elsewhere formed (grown.apart (separate.documents other otherMem path mem)) same
          settles

theorem settledAll_stays (unforced : pass.force = false) (separate : pass.Separate tree all)
    (within : ∀ other ∈ paths, other ∈ all) (formed : world.files.WellFormed)
    (grown : tree.Grows world.files)
    (settled : pass.settledAll base paths world = (.ok outcomes, last))
    (finite : Finite last.effects) :
    ∀ outcome ∈ outcomes, pass.Stays outcome.path base last.files last.store outcome := by
  -- What holds of a file once it was settled is carried past the files behind it.
  induction paths generalizing world outcomes with
  | nil =>
      obtain ⟨rfl, _same⟩ := settledAll_nil settled
      intro outcome mem
      cases mem
  | cons path rest ih =>
      obtain ⟨outcome, others, middle, first, rested, rfl⟩ := settledAll_cons settled
      have pathMem := within path List.mem_cons_self
      have restMem : ∀ other ∈ rest, other ∈ all :=
        fun other mem => within other (List.mem_cons_of_mem _ mem)
      have own := separate.documents path pathMem path pathMem
      have reads := settled_reads own formed grown first
      obtain ⟨done, _last, listed, _carried, _same⟩ := settledAll_reached rested
      intro other mem
      rcases List.mem_cons.mp mem with rfl | later
      · have stays := stays_of_settled unforced formed (grown.apart own) first
          (listed ▸ finite).of_append
        rw [settled_path first]
        exact stays.settledAll separate restMem pathMem reads.formed reads.grown rested
      · exact ih restMem reads.formed reads.grown rested other later

/-- Settling files once more repeats their outcomes, one by one, and changes nothing. -/
theorem settledAll_again (time : String) (world : World)
    (stays : ∀ outcome ∈ outcomes, pass.Stays outcome.path base world.files world.store outcome) :
    ∃ again last, (pass.again time).settledAll base (outcomes.map Outcome.path) world =
        (.ok again, last) ∧ Matches last world ∧ List.Forall₂ Repeats outcomes again := by
  induction outcomes generalizing world with
  | nil => exact ⟨[], world, rfl, .refl world, .nil⟩
  | cons outcome rest ih =>
      obtain ⟨first, middle, settled, stayed, repeats⟩ :=
        (stays outcome List.mem_cons_self).settled_again time
      have staysRest : ∀ other ∈ rest,
          pass.Stays other.path base middle.files middle.store other := by
        intro other mem
        rw [stayed.files, stayed.store]
        exact stays other (List.mem_cons_of_mem _ mem)
      obtain ⟨others, last, rested, stayedRest, repeatsRest⟩ := ih middle staysRest
      refine ⟨first :: others, last, ?_, stayedRest.trans stayed, .cons repeats repeatsRest⟩
      rw [List.map_cons, Pass.settledAll, settled]
      dsimp only
      rw [rested]

end Files

/-! ### Whole passes -/

/-- A pass that is made once more, after the markers were put back to where they were. -/
def replay (pass : Pass) (later : String) (files : FileTree) (store : Store) :
    Except Failure Report × World :=
  (pass.again later).run (pass.run files store).2.files
    { (pass.run files store).2.store with markers := store.markers }

/-- What a pass that is made once more comes to, by what the first reported and left behind. -/
structure Replays (report : Report) (first : World) (ended : Except Failure Report × World) :
    Prop where
  reported : ∃ again, ended.1 = .ok { report with outcomes := again } ∧
    List.Forall₂ Repeats report.outcomes again
  files : ended.2.files = first.files
  ledger : ended.2.store.ledger = first.store.ledger
  symbols : ended.2.store.symbols = first.store.symbols
  usage : ended.2.store.usage = first.store.usage
  analyses : ended.2.store.analyses = first.store.analyses

section Runs

variable {pass : Pass} {head : String} {previous base : Option String} {paths : List String}
  {world middle last : World} {outcomes : List Outcome}

/-- Setting the marker changes the markers only. -/
theorem marking_changes (marked : middle.follow pass.now (pass.marking head) = .ok last) :
    last.files = middle.files ∧ ∃ markers markers', middle.store.markers = some markers ∧
      last.store = { middle.store with markers := some markers' } := by
  obtain ⟨store, wrote, rfl⟩ := follow_wroteStore.mp marked
  obtain ⟨markers, held, rfl⟩ := Store.write_processed.mp wrote
  exact ⟨rfl, markers, _, held, rfl⟩

theorem marking_succeeds (pass : Pass) (head : String) {markers : NameMap Store.MarkerRow}
    (held : middle.store.markers = some markers) :
    ∃ last, middle.follow pass.now (pass.marking head) = .ok last := by
  have wrote : middle.store.write pass.now (.processed pass.repository head) = .ok
      { middle.store with
        markers := some (markers.insert pass.repository ⟨head, pass.now⟩) } :=
    Store.write_processed.mpr ⟨markers, held, rfl⟩
  exact ⟨_, follow_wroteStore.mpr ⟨_, wrote, rfl⟩⟩

/-- A pass that finds files to settle, all settled before, reports them once more and changes nothing
but the markers. -/
theorem run_stays (files : FileTree) (store : Store) (time : String)
    {markers : NameMap Store.MarkerRow}
    (planned : pass.plan store = .ok (.settle head previous base (outcomes.map Outcome.path)))
    (held : store.markers = some markers)
    (stays : ∀ outcome ∈ outcomes, pass.Stays outcome.path base files store outcome) :
    ∃ again last markers', (pass.again time).run files store =
        (.ok ⟨some head, previous, again, true⟩, last) ∧
      List.Forall₂ Repeats outcomes again ∧ last.files = files ∧
      last.store = { store with markers := some markers' } := by
  obtain ⟨asked, carried⟩ := run_eq (pass.again time) files store
  rw [plan_again, planned] at carried
  obtain ⟨again, middle, settled, stayed, repeats⟩ :=
    settledAll_again time { World.start files store with asked } stays
  have heldMiddle : middle.store.markers = some markers := by
    rw [stayed.store]
    exact held
  obtain ⟨last, marked⟩ := marking_succeeds (pass.again time) head heldMiddle
  obtain ⟨lastFiles, _, markers', _, lastStore⟩ := marking_changes marked
  refine ⟨again, last, markers', ?_, repeats, lastFiles.trans stayed.files, ?_⟩
  · rw [carried, carryOut, completed, settled]
    dsimp only
    rw [marking] at marked
    rw [marked]
  · rw [lastStore, stayed.store]
    rfl

end Runs

/-- Making a pass once more over the same commits reports each file that was documented as unchanged,
each that was skipped as skipped for the same reason, and each that failed as failed, in the same
order; and it leaves the ledger, the symbols, the usage and the verdicts as they were. -/
theorem replay_repeats (pass : Pass) (files : FileTree) (store : Store) (later : String)
    (report : Report) (unforced : pass.force = false) (formed : files.WellFormed)
    (separate : pass.Separate files (report.outcomes.map Outcome.path))
    (finite : Finite (pass.run files store).2.effects)
    (ended : (pass.run files store).1 = .ok report) (advanced : report.advanced = true) :
    Replays report (pass.run files store).2 (pass.replay later files store) := by
  obtain ⟨_head, _base, _named, _found, _started, _told, due⟩ := planned_of_advanced ended advanced
  unfold replay
  rcases whole : pass.run files store with ⟨_, last⟩
  rw [whole] at ended finite
  subst ended
  cases run_ended whole with
  | idle report last nothing =>
      rw [due] at nothing
      cases nothing
  | settled head previous base paths outcomes begun middle last found planned begins fresh settled
      marked =>
      obtain rfl : outcomes.map Outcome.path = paths := settledAll_paths settled
      have unmarked : middle.store.markers = store.markers := by
        have kept := settledAll_markers pass base (outcomes.map Outcome.path) begun
        rw [settled, begins.store] at kept
        exact kept
      obtain ⟨lastFiles, markers, _, held, lastStore⟩ := marking_changes marked
      -- Without its marker the store is the one that the last file left.
      have back : { last.store with markers := store.markers } = middle.store := by
        rw [lastStore, ← unmarked]
      rw [follow_effects marked] at finite
      have stays := settledAll_stays unforced separate (fun _ mem => mem)
        (begins.files ▸ formed) (begins.files ▸ .refl _) settled finite.of_append
      obtain ⟨again, replayed, _, run, repeats, sameFiles, sameStore⟩ := run_stays last.files
        middle.store later ((plan_of_markers unmarked).trans planned) held (lastFiles ▸ stays)
      rw [back, run]
      refine ⟨⟨again, rfl, repeats⟩, sameFiles, ?_, ?_, ?_, ?_⟩
      all_goals rw [sameStore, lastStore]

/-! ### A change of layout that is looked at once more -/

def layoutReport : Report :=
  ⟨some "second", some "first",
    [.skipped "a.php" "score 1: formatting-only change never needs new docs"], true⟩

theorem layoutFiles_separate :
    (layoutPass "second").Separate (layoutFiles "<?php\nfunction f()  {}\n")
      (layoutReport.outcomes.map Outcome.path) := by
  refine separate_of_relative (by decide) ?_
  intro path mem other memOther
  obtain rfl := List.mem_singleton.mp mem
  obtain rfl := List.mem_singleton.mp memOther
  exact FileTree.apart_of_onward (by decide +kernel) (by decide +kernel) (by decide +kernel)

theorem layoutPass_finite :
    Finite ((layoutPass "second").run (layoutFiles "<?php\nfunction f()  {}\n")
      layoutStore).2.effects := by
  unfold Finite
  decide +kernel

/-- The verdict that the second of two passes kept is read again, and says the same. -/
theorem replay_repeats_of_layout :
    Replays layoutReport
      ((layoutPass "second").run (layoutFiles "<?php\nfunction f()  {}\n") layoutStore).2
      ((layoutPass "second").replay "later" (layoutFiles "<?php\nfunction f()  {}\n")
        layoutStore) :=
  replay_repeats (layoutPass "second") _ layoutStore "later" layoutReport rfl
    (FileTree.wellFormed_withFile _ _ _) layoutFiles_separate layoutPass_finite layoutPass_second rfl

end DocDrift.Pass
