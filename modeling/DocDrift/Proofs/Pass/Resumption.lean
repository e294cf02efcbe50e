import DocDrift.Proofs.Pass.Marker
import DocDrift.Proofs.Pass.Redo

/-!
Passes that go on where another was cut off. What the first pass left behind is followed by a later
pass over the same history, with the same configuration and generator. The later pass ends with the
ledger and the markers that the first would have ended with, wherever that was cut off. It ends with
the same symbols unless the first was cut off between the row of a file in the ledger and the list of
its symbols, and that list would have changed something.
-/

set_option autoImplicit false

namespace DocDrift.Pass

/-! ### Cut off inside a file -/

section Inside

variable {pass : Pass} {path : String} {base : Option String} {bytes : ByteArray}
  {tree : FileTree} {later : String} {begun left next last resumed resumedLast : World}
  {effect : Effect} {count : Nat} {result ended : Except Failure Outcome} {outcome : Outcome}

theorem Resumed.moves {left' next' : World} (resumption : Resumed tree effect left next last resumed)
    (sameLeft : Matches left left') (sameNext : Matches next next') :
    Resumed tree effect left' next' last resumed := by
  refine ⟨resumption.alike, ?_⟩
  intro target torn
  rw [← sameLeft.store, ← sameNext.store]
  exact resumption.torn target torn

theorem redo_document {score : Option Nat} (unforced : pass.force = false)
    (apart : tree.Apart (pass.documentTarget path) (pass.target path))
    (reads : Reads tree (pass.target path) true (.ok bytes) begun.files)
    (differs : begun.store.digestOf? (pass.target path) ≠ some (Digest.ofBytes bytes))
    (due : pass.Due path base bytes begun.store)
    (carried : carry pass.now result (pass.documentCourse path bytes score).effects begun =
      (ended, last)) (sound : ended ≠ .error .store)
    (part : carry pass.now (.ok ()) ((pass.documentCourse path bytes score).effects.take count)
      begun = (.ok (), left))
    (here : (pass.documentCourse path bytes score).effects[count]? = some effect)
    (followed : left.follow pass.now effect = .ok next) (same : Matches resumed left)
    (settled : (pass.again later).settled path base resumed = (.ok outcome, resumedLast)) :
    Resumed tree effect left next last resumedLast := by
  unfold documentCourse at carried part here
  cases generates : pass.generator path (Text.decodeLossy bytes) with
  | error failure =>
      rw [generates] at here
      cases here
  | ok generated =>
      rw [generates] at carried part here
      exact redo_documenting unforced apart reads generates differs due carried sound part here
        followed same settled

theorem redo_verdict {commit old : String} {verdict : Store.Verdict} {advice : Option Bool}
    (unforced : pass.force = false)
    (apart : tree.Apart (pass.documentTarget path) (pass.target path))
    (reads : Reads tree (pass.target path) true (.ok bytes) begun.files)
    (differs : begun.store.digestOf? (pass.target path) ≠ some (Digest.ofBytes bytes))
    (told : base = some commit) (earlier : pass.history.textAt path commit = .ok (some old))
    (kept : begun.store.adviceOf? (pass.pairOf path old bytes) = some advice)
    (agrees : advice ≠ some (!verdict.recommendation.regenerate))
    (carried : carry pass.now result (pass.verdictCourse path bytes verdict).effects begun =
      (ended, last)) (sound : ended ≠ .error .store)
    (part : carry pass.now (.ok ()) ((pass.verdictCourse path bytes verdict).effects.take count)
      begun = (.ok (), left))
    (here : (pass.verdictCourse path bytes verdict).effects[count]? = some effect)
    (followed : left.follow pass.now effect = .ok next) (same : Matches resumed left)
    (settled : (pass.again later).settled path base resumed = (.ok outcome, resumedLast)) :
    Resumed tree effect left next last resumedLast := by
  unfold verdictCourse at carried part here
  split at here
  case isFalse => cases here
  case isTrue favours =>
    rw [if_pos favours] at carried part
    rw [favours] at agrees
    have due : pass.Due path base bytes begun.store :=
      .inr (.inr ⟨commit, told, .inr ⟨old, advice, earlier, kept, agrees⟩⟩)
    exact redo_document unforced apart reads differs due carried sound part here followed same
      settled

/-- A pass that was cut off once a change was scored follows the verdict that was kept. -/
theorem redo_scored {commit old : String} {verdict : Store.Verdict} (unforced : pass.force = false)
    (apart : tree.Apart (pass.documentTarget path) (pass.target path))
    (reads : Reads tree (pass.target path) true (.ok bytes) begun.files)
    (differs : begun.store.digestOf? (pass.target path) ≠ some (Digest.ofBytes bytes))
    (told : base = some commit) (earlier : pass.history.textAt path commit = .ok (some old))
    (carried : carry pass.now result (.wroteStore (.scored (pass.pairOf path old bytes) verdict) ::
      (pass.verdictCourse path bytes verdict).effects) begun = (ended, last))
    (sound : ended ≠ .error .store)
    (part : carry pass.now (.ok ()) (.wroteStore (.scored (pass.pairOf path old bytes) verdict) ::
      (pass.verdictCourse path bytes verdict).effects.take count) begun = (.ok (), left))
    (here : (pass.verdictCourse path bytes verdict).effects[count]? = some effect)
    (followed : left.follow pass.now effect = .ok next) (same : Matches resumed left)
    (settled : (pass.again later).settled path base resumed = (.ok outcome, resumedLast)) :
    Resumed tree effect left next last resumedLast := by
  obtain ⟨scored, wrote, part⟩ := carry_cons_ok part
  rw [carry_follow wrote] at carried
  obtain ⟨store, done, rfl⟩ := follow_wroteStore.mp wrote
  refine redo_verdict unforced apart ?_ ?_ told earlier ?_ (advice?_not_contrary verdict) carried
    sound part here followed same settled
  · exact reads
  · exact fun documented => differs ((Store.digestOf?_write done _).symm.trans documented)
  · exact (Store.adviceOf?_write done _).trans (if_pos rfl)

theorem advice_agrees (verdict : Store.Verdict) :
    some verdict.recommendation.regenerate ≠ some (!verdict.recommendation.regenerate) := by
  cases verdict.recommendation.regenerate <;> decide

/-- A pass that was cut off inside a file settles it all the same. -/
theorem resumed_inside {world : World} {first : Outcome} (unforced : pass.force = false)
    (apart : tree.Apart (pass.documentTarget path) (pass.target path))
    (formed : world.files.WellFormed) (grown : tree.Grows world.files)
    (settled : pass.settled path base world = (.ok first, last)) (start : Matches begun world)
    (part : carry pass.now (.ok ())
      ((pass.course path base world.files world.store).effects.take count) begun = (.ok (), left))
    (here : (pass.course path base world.files world.store).effects[count]? = some effect)
    (followed : left.follow pass.now effect = .ok next) (same : Matches resumed left)
    (resettled : (pass.again later).settled path base resumed = (.ok outcome, resumedLast)) :
    Resumed tree effect left next last resumedLast := by
  obtain ⟨origin, ended, files, store, _listed, carried, sound⟩ := settled_carriage settled
  -- The part and the whole are carried out from one world, in which the questions were asked.
  have origins : Matches origin world := ⟨files, store⟩
  obtain ⟨left', part', sameLeft⟩ := (start.trans origins.symm).carry part
  obtain ⟨next', followed', sameNext⟩ := sameLeft.follow followed
  refine Resumed.moves ?_ sameLeft.symm sameNext.symm
  have resumedSame := same.trans sameLeft
  have readsOf : ∀ bytes, origin.files.read (pass.target path) = .ok bytes →
      Reads tree (pass.target path) true (.ok bytes) origin.files := by
    intro bytes read
    exact ⟨files ▸ formed, files ▸ grown, FileTree.exists?_of_read read, fun _ => read⟩
  rw [← files, ← store] at carried part' here
  have evaluated := course_evaluation pass path base origin.files origin.store
  generalize pass.course path base origin.files origin.store = course at evaluated carried part' here
  cases evaluated with
  | baseless bytes read due baseless =>
      have needed : pass.Due path base bytes origin.store := baseless.imp_right .inl
      exact redo_document unforced apart (readsOf bytes read) (unforced_due unforced due) needed
        carried sound part' here followed' resumedSame resettled
  | added bytes commit read due known told absent =>
      have needed : pass.Due path base bytes origin.store := .inr (.inr ⟨commit, told, .inl absent⟩)
      rw [Course.afterQuestion_effects] at carried part' here
      exact redo_document unforced apart (readsOf bytes read) (unforced_due unforced due) needed
        carried sound part' here followed' resumedSame resettled
  | changed bytes commit old read due known told earlier =>
      rw [Course.afterQuestion_effects] at carried part' here
      have differs := unforced_due unforced due
      have judged := judgeCourse_judgement pass path bytes old origin.store
      generalize pass.judgeCourse path bytes old origin.store = course at judged carried part' here
      cases judged with
      | undecided failure failed => cases here
      | kept verdict knownVerdict =>
          exact redo_verdict unforced apart (readsOf bytes read) differs told earlier
            (Store.adviceOf?_some knownVerdict) (advice_agrees verdict) carried sound part' here
            followed' resumedSame resettled
      | fresh documented unknown listed =>
          rw [Course.afterEffect_effects] at carried part' here
          cases count with
          | zero =>
              -- No verdict was kept yet, so the later pass starts where the first one did.
              obtain rfl := carry_nil_ok part'
              rw [List.getElem?_cons_zero] at here
              obtain rfl := Option.some.inj here
              refine .of_alike rfl ?_
              exact settled_alike later (origins.symm.trans resumedSame.symm).alike
                (Option.some_ne_none _).symm settled resettled
          | succ count =>
              rw [List.take_succ_cons] at part'
              rw [List.getElem?_cons_succ] at here
              exact redo_scored unforced apart (readsOf bytes read) differs told earlier carried
                sound part' here followed' resumedSame resettled
  | untold commit failure known told failed =>
      rw [Course.afterQuestion_effects] at here
      cases here
  | _ => cases here

end Inside

/-! ### The files after the cut -/

section Onward

variable {pass : Pass} {path : String} {base : Option String} {tree : FileTree} {later : String}
  {left next last resumed : World} {effect : Effect}

/-- A file that is documented as it is stays so, with its symbols, while others are settled. -/
theorem noted_kept {target : String} {bytes : ByteArray} {symbols : NameMap String}
    (apart : tree.Apart (pass.documentTarget path) target) (different : pass.target path ≠ target) :
    pass.Kept path (Noted tree target bytes symbols) := by
  have written : ∀ {write : Store.Write} {before after : World},
      before.follow pass.now (.wroteStore write) = .ok after →
      Noted tree target bytes symbols before →
      (∀ digest, write.digestAfter target digest = digest) →
      (∀ rows, write.symbolsAfter target rows = rows) →
      Noted tree target bytes symbols after := by
    intro write before after followed noted sameDigest sameSymbols
    obtain ⟨store, wrote, rfl⟩ := follow_wroteStore.mp followed
    refine ⟨noted.reads, ?_, ?_⟩
    · exact (Store.digestOf?_write wrote _).trans ((sameDigest _).trans noted.digest)
    · exact (Store.symbolsAt_write wrote _).trans ((sameSymbols _).trans noted.symbols)
  refine ⟨?_, ?_, ?_⟩
  · intro world asked noted
    exact ⟨noted.reads, noted.digest, noted.symbols⟩
  · intro begun _begins effect documents before after followed noted
    have reads := noted.reads.follow apart documents rfl followed
    cases documents with
    | madeParent => exact ⟨reads, store_of_madeParent followed ▸ noted.digest,
        store_of_madeParent followed ▸ noted.symbols⟩
    | wroteFile text => exact ⟨reads, store_of_wroteFile followed ▸ noted.digest,
        store_of_wroteFile followed ▸ noted.symbols⟩
    | documented other document read =>
        exact written followed noted (fun _ => if_neg different) (fun _ => rfl)
    | listed names digest =>
        exact written followed noted (fun _ => rfl) (fun _ => if_neg different)
    | spent usage => exact written followed noted (fun _ => rfl) (fun _ => rfl)
  · intro before after old new verdict _fresh followed noted
    exact written followed noted (fun _ => rfl) (fun _ => rfl)

theorem Noted.moves {target : String} {bytes : ByteArray} {symbols : NameMap String}
    {here there : World} (noted : Noted tree target bytes symbols here)
    (same : Matches here there) : Noted tree target bytes symbols there := by
  refine ⟨?_, ?_, ?_⟩
  · rw [← same.files]
    exact noted.reads
  · rw [← same.store]
    exact noted.digest
  · rw [← same.store]
    exact noted.symbols

/-- Settling a file that is documented as it is changes nothing. -/
theorem settled_noted {target : String} {bytes : ByteArray} {symbols : NameMap String}
    {world after : World} {outcome : Outcome} (unforced : pass.force = false)
    (noted : Noted tree target bytes symbols world) (here : pass.target path = target)
    (settled : pass.settled path base world = (.ok outcome, after)) : Matches world after := by
  subst here
  obtain ⟨files, store⟩ := settled_at_rest unforced
    (.documented bytes (noted.reads.contents rfl) noted.digest) settled
  exact ⟨files.symm, store.symm⟩

theorem resumed_settled {last' resumed' : World} {outcome outcome' : Outcome}
    (unforced : pass.force = false)
    (apart : ∀ target, tearOf effect = some target →
      tree.Apart (pass.documentTarget path) target)
    (resumption : Resumed tree effect left next last resumed)
    (settled : pass.settled path base last = (.ok outcome, last'))
    (settled' : (pass.again later).settled path base resumed = (.ok outcome', resumed')) :
    Resumed tree effect left next last' resumed' := by
  have unforcedAgain : (pass.again later).force = false := unforced
  by_cases here : tearOf effect = some (pass.target path)
  · obtain ⟨bytes, noted, noted'⟩ := resumption.torn _ here
    have same := settled_noted unforced noted rfl settled
    have same' := settled_noted unforcedAgain noted' rfl settled'
    refine ⟨resumption.alike.moves same same', ?_⟩
    intro target torn
    obtain ⟨bytes, noted, noted'⟩ := resumption.torn target torn
    exact ⟨bytes, noted.moves same, noted'.moves same'⟩
  · refine ⟨settled_alike later resumption.alike here settled settled', ?_⟩
    intro target torn
    have different : pass.target path ≠ target := by
      rintro rfl
      exact here torn
    have differentAgain : (pass.again later).target path ≠ target := different
    obtain ⟨bytes, noted, noted'⟩ := resumption.torn target torn
    have apartAgain : tree.Apart ((pass.again later).documentTarget path) target :=
      apart target torn
    have kept := settled_keeps base (noted_kept (apart target torn) different) noted
    have kept' := settled_keeps base (noted_kept apartAgain differentAgain) noted'
    rw [settled] at kept
    rw [settled'] at kept'
    exact ⟨bytes, kept, kept'⟩

theorem resumed_settledAll {paths : List String} {last' resumed' : World}
    {outcomes outcomes' : List Outcome} (unforced : pass.force = false)
    (apart : ∀ path ∈ paths, ∀ target, tearOf effect = some target →
      tree.Apart (pass.documentTarget path) target)
    (resumption : Resumed tree effect left next last resumed)
    (settled : pass.settledAll base paths last = (.ok outcomes, last'))
    (settled' : (pass.again later).settledAll base paths resumed = (.ok outcomes', resumed')) :
    Resumed tree effect left next last' resumed' := by
  induction paths generalizing last resumed outcomes outcomes' with
  | nil =>
      obtain ⟨_none, rfl⟩ := settledAll_nil settled
      obtain ⟨_none', rfl⟩ := settledAll_nil settled'
      exact resumption
  | cons path rest ih =>
      obtain ⟨outcome, others, middle, first, rested, rfl⟩ := settledAll_cons settled
      obtain ⟨outcome', others', middle', first', rested', rfl⟩ := settledAll_cons settled'
      have onward := resumed_settled unforced (apart path List.mem_cons_self) resumption first first'
      exact ih (fun other mem => apart other (List.mem_cons_of_mem _ mem)) onward rested rested'

/-! ### Cut off anywhere -/

/-- Only its own symbols can be torn when a file is settled. -/
theorem tearOf_course {files : FileTree} {store : Store} {target : String}
    (mem : effect ∈ (pass.course path base files store).effects)
    (torn : tearOf effect = some target) : target = pass.target path := by
  have own : ∀ found, pass.Documents path found effect → target = pass.target path := by
    intro found documents
    cases documents with
    | listed names digest => exact (Option.some.inj torn).symm
    | _ => cases torn
  have changes := course_changes pass path base files store
  generalize (pass.course path base files store).effects = effects at changes mem
  cases changes with
  | documents effects each => exact own _ (each effect mem)
  | scored old new verdict rest fresh each =>
      rcases List.mem_cons.mp mem with rfl | later
      · cases torn
      · exact own _ (each effect later)

/-- Settling a file leaves alone what its path leads to. -/
theorem settled_reads {world : World} {outcome : Outcome}
    (own : tree.Apart (pass.documentTarget path) (pass.target path))
    (formed : world.files.WellFormed) (grown : tree.Grows world.files)
    (settled : pass.settled path base world = (.ok outcome, last)) :
    Reads tree (pass.target path) (world.files.exists? (pass.target path))
      (world.files.read (pass.target path)) last.files := by
  have begins : Reads tree (pass.target path) (world.files.exists? (pass.target path))
      (world.files.read (pass.target path)) world.files := ⟨formed, grown, rfl, fun _ => rfl⟩
  have kept := settled_keeps base (reads_kept own) begins
  rw [settled] at kept
  exact kept

variable {paths all : List String}

/-- A pass that goes on where another was cut off finds the files before the cut at rest, settles the
file of the cut all the same, and the files after it alike. -/
theorem resumed_cutOff {world resumedLast : World} {outcomes outcomes' : List Outcome}
    (unforced : pass.force = false)
    (apart : ∀ path ∈ all, ∀ other ∈ all,
      tree.Apart (pass.documentTarget path) (pass.target other))
    (within : ∀ path ∈ paths, path ∈ all) (formed : world.files.WellFormed)
    (grown : tree.Grows world.files) (cut : pass.CutOff base left next effect paths world)
    (settled : pass.settledAll base paths world = (.ok outcomes, last))
    (same : Matches resumed left)
    (settled' : (pass.again later).settledAll base paths resumed = (.ok outcomes', resumedLast)) :
    Resumed tree effect left next last resumedLast := by
  induction cut generalizing resumed outcomes outcomes' with
  | inside path rest world begun count start part here followed =>
      obtain ⟨outcome, others, middle, first, rested, rfl⟩ := settledAll_cons settled
      obtain ⟨outcome', others', middle', first', rested', rfl⟩ := settledAll_cons settled'
      have pathMem := within path List.mem_cons_self
      have inside := resumed_inside unforced (apart path pathMem path pathMem) formed grown first
        start part here followed same first'
      refine resumed_settledAll unforced ?_ inside rested rested'
      intro other mem target torn
      rw [tearOf_course (List.mem_of_getElem? here) torn]
      exact apart other (within other (List.mem_cons_of_mem _ mem)) path pathMem
  | beyond path rest world middle outcome settledFirst cut ih =>
      obtain ⟨outcome, others, middle', first, rested, rfl⟩ := settledAll_cons settled
      obtain ⟨outcome', others', resumed', first', rested', rfl⟩ := settledAll_cons settled'
      rw [settledFirst] at first
      cases first
      have pathMem := within path List.mem_cons_self
      have own := apart path pathMem path pathMem
      have restMem : ∀ other ∈ rest, other ∈ all :=
        fun other mem => within other (List.mem_cons_of_mem _ mem)
      -- The file is at rest once it was settled, and still where the pass was cut off.
      have reads := settled_reads own formed grown settledFirst
      have rests := rests_of_settled formed (grown.apart own) settledFirst
      have restsLeft := cutOff_keeps
        (fun other mem => rests_kept (apart other (restMem other mem) path pathMem))
        (fun here there sameHere kept => by rwa [← sameHere.files, ← sameHere.store]) cut
        ⟨reads, rests⟩
      have restsHere : pass.Rests path base resumed.files resumed.store := by
        rw [same.files, same.store]
        exact restsLeft.2
      have unforcedAgain : (pass.again later).force = false := unforced
      obtain ⟨files, store⟩ :=
        settled_at_rest unforcedAgain (rests_again later restsHere) first'
      have stayed : Matches resumed' left := ⟨files.trans same.files, store.trans same.store⟩
      exact ih restMem reads.formed reads.grown rested stayed rested'

theorem settledAll_rests {world : World} {outcomes : List Outcome}
    (apart : ∀ path ∈ all, ∀ other ∈ all,
      tree.Apart (pass.documentTarget path) (pass.target other))
    (within : ∀ path ∈ paths, path ∈ all) (formed : world.files.WellFormed)
    (grown : tree.Grows world.files)
    (settled : pass.settledAll base paths world = (.ok outcomes, last)) :
    ∀ path ∈ paths, pass.Rests path base last.files last.store := by
  induction paths generalizing world outcomes with
  | nil =>
      intro path mem
      cases mem
  | cons path rest ih =>
      obtain ⟨outcome, others, middle, first, rested, rfl⟩ := settledAll_cons settled
      have pathMem := within path List.mem_cons_self
      have own := apart path pathMem path pathMem
      have restMem : ∀ other ∈ rest, other ∈ all :=
        fun other mem => within other (List.mem_cons_of_mem _ mem)
      have reads := settled_reads own formed grown first
      have rests := rests_of_settled formed (grown.apart own) first
      intro other mem
      rcases List.mem_cons.mp mem with rfl | later
      · have kept := settledAll_keeps base
          (fun next mem => rests_kept (apart next (restMem next mem) other pathMem))
          ⟨reads, rests⟩
        rw [rested] at kept
        exact kept.2
      · exact ih restMem reads.formed reads.grown rested other later

theorem settledAll_at_rest {resumedLast : World} {outcomes : List Outcome}
    (unforced : pass.force = false)
    (rests : ∀ path ∈ paths, pass.Rests path base resumed.files resumed.store)
    (settled : pass.settledAll base paths resumed = (.ok outcomes, resumedLast)) :
    Matches resumedLast resumed := by
  induction paths generalizing resumed outcomes with
  | nil =>
      obtain ⟨_none, rfl⟩ := settledAll_nil settled
      exact .refl _
  | cons path rest ih =>
      obtain ⟨outcome, others, middle, first, rested, rfl⟩ := settledAll_cons settled
      obtain ⟨files, store⟩ := settled_at_rest unforced (rests path List.mem_cons_self) first
      refine (ih ?_ rested).trans ⟨files, store⟩
      intro other mem
      rw [files, store]
      exact rests other (List.mem_cons_of_mem _ mem)

end Onward

end DocDrift.Pass
