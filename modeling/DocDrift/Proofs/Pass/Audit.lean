import DocDrift.Proofs.Pass.Replay
import DocDrift.Proofs.Store.Operations

/-!
The row that is kept of a scored change. A pass writes it once and never again, so it agrees with
the outcome that the pass reports. As long as it can be read, it decides for every later pass that
comes to the same change, whatever that pass would have scored.
-/

set_option autoImplicit false

namespace DocDrift

namespace Store

/-- The row was written for the verdict, or it is read as the verdict. -/
def AnalysisRow.Keeps (row : AnalysisRow) (verdict : Verdict) : Prop :=
  row = verdict.toRow ∨ Verdict.ofRow? row = some verdict

theorem AnalysisRow.Keeps.score {row : AnalysisRow} {verdict : Verdict}
    (keeps : row.Keeps verdict) : row.score = some (verdict.score : Int) := by
  rcases keeps with rfl | read
  · rfl
  · unfold Verdict.ofRow? at read
    obtain ⟨score, held, read⟩ := Option.bind_eq_some_iff.mp read
    split at read
    case isTrue bounds =>
      obtain ⟨classification, _readClassification, read⟩ := Option.bind_eq_some_iff.mp read
      obtain ⟨recommendation, _readRecommendation, read⟩ := Option.bind_eq_some_iff.mp read
      cases read
      rw [held, Int.toNat_of_nonneg bounds.1]
    case isFalse => cases read

theorem verdict?_of_row {store : Store} {pair : Pair} {row : AnalysisRow} {verdict : Verdict}
    (held : store.analysisOf? pair = some row) (read : Verdict.ofRow? row = some verdict) :
    store.verdict? pair = .ok (some verdict) := by
  rw [verdict?_eq, held]
  cases there : store.analyses with
  | none =>
      rw [analysisOf?, there] at held
      cases held
  | some analyses =>
      dsimp only
      rw [read]

def Operation.Spares (pair : Pair) : Operation → Prop
  | .wrote _ (.scored other _) => other ≠ pair
  | _ => True

theorem analysisOf?_on {pair : Pair} {operation : Operation} (spares : operation.Spares pair)
    (store : Store) : (operation.on store).analysisOf? pair = store.analysisOf? pair := by
  cases operation with
  | wrote now write =>
      rcases done : store.write now write with failure | next
      · rw [on_wrote_of_error done]
      · rw [on_wrote done, analysisOf?_write done]
        cases write with
        | scored other verdict => exact if_neg spares
        | _ => rfl
  | cleaned files =>
      rcases done : store.cleanup (fun path => !files.exists? path) with failure | ⟨next, count⟩
      · simp [Operation.on, done, Except.toOption]
      · rw [on_cleaned done, analysisOf?, analysisOf?, (Pass.cleanup_keeps done).2.1]
  | reopened =>
      rw [Operation.on, analysisOf?, analysisOf?, prepared]
      cases store.analyses <;> rfl

end Store

namespace Pass

open Store (AnalysisRow Operation)

/-! ### Rows stay -/

section Rows

variable {pass : Pass} {now : String} {before after : World} {effect : Effect} {pair : Store.Pair}
  {row : AnalysisRow}

theorem analysisOf?_follow (followed : before.follow now effect = .ok after)
    (spares : ∀ verdict, effect ≠ .wroteStore (.scored pair verdict)) :
    after.store.analysisOf? pair = before.store.analysisOf? pair := by
  cases effect with
  | madeParent path =>
      obtain ⟨files, _made, rfl⟩ := follow_madeParent.mp followed
      rfl
  | wroteFile path text =>
      obtain ⟨files, _wrote, rfl⟩ := follow_wroteFile.mp followed
      rfl
  | wroteStore write =>
      obtain ⟨store, wrote, rfl⟩ := follow_wroteStore.mp followed
      refine (Store.analysisOf?_write wrote pair).trans ?_
      cases write with
      | scored other verdict =>
          rw [Store.Write.analysisAfter, if_neg]
          rintro rfl
          exact spares verdict rfl
      | _ => rfl

theorem analysisOf?_scored {verdict : Store.Verdict}
    (followed : before.follow now (.wroteStore (.scored pair verdict)) = .ok after) :
    after.store.analysisOf? pair = some verdict.toRow := by
  obtain ⟨store, wrote, rfl⟩ := follow_wroteStore.mp followed
  refine (Store.analysisOf?_write wrote pair).trans ?_
  exact if_pos rfl

theorem Documents.spares {path : String} {files : FileTree}
    (documents : pass.Documents path files effect) (pair : Store.Pair) (verdict : Store.Verdict) :
    effect ≠ .wroteStore (.scored pair verdict) := by
  rintro rfl
  cases documents

/-- A row that is there stays: a pass scores only where there is none. -/
theorem row_kept (pass : Pass) (path : String) (pair : Store.Pair) (row : AnalysisRow) :
    pass.Kept path (fun world => world.store.analysisOf? pair = some row) where
  asks _world _asked kept := kept
  documents begun _held effect documents before after followed kept := by
    rw [analysisOf?_follow followed (documents.spares pair), kept]
  scores before after old new verdict unknown followed kept := by
    rw [analysisOf?_follow followed, kept]
    rintro other same
    cases same
    rw [Store.verdict?_none unknown] at kept
    cases kept

theorem run_row (pass : Pass) (files : FileTree) {store : Store}
    (kept : store.analysisOf? pair = some row) :
    (pass.run files store).2.store.analysisOf? pair = some row := by
  apply run_each (fun world => world.store.analysisOf? pair = some row)
  · exact fun _asked => kept
  · intro path base world held
    exact settled_keeps base (row_kept pass path pair row) held
  · intro head before after followed held
    rw [analysisOf?_follow followed, held]
    rintro verdict ⟨⟩

/-- Every verdict that was listed as kept is there. -/
def Recorded (world : World) : Prop :=
  ∀ pair verdict, .wroteStore (.scored pair verdict) ∈ world.effects →
    world.store.analysisOf? pair = some verdict.toRow

theorem recorded_follow (followed : before.follow now effect = .ok after)
    (spares : ∀ pair verdict, effect ≠ .wroteStore (.scored pair verdict))
    (recorded : Recorded before) : Recorded after := by
  intro pair verdict listed
  rw [follow_effects followed, List.mem_append, List.mem_singleton] at listed
  rw [analysisOf?_follow followed (spares pair)]
  rcases listed with earlier | same
  · exact recorded pair verdict earlier
  · exact absurd same.symm (spares pair verdict)

theorem recorded_kept (pass : Pass) (path : String) : pass.Kept path Recorded where
  asks _world _asked recorded := recorded
  documents begun _held effect documents before after followed recorded :=
    recorded_follow followed documents.spares recorded
  scores before after old new verdict unknown followed recorded := by
    intro other known listed
    rw [follow_effects followed, List.mem_append, List.mem_singleton] at listed
    rcases listed with earlier | same
    · have held := recorded other known earlier
      rw [analysisOf?_follow followed, held]
      rintro again ⟨⟩
      rw [Store.verdict?_none unknown] at held
      cases held
    · cases same
      exact analysisOf?_scored followed

theorem run_recorded (pass : Pass) (files : FileTree) (store : Store) :
    Recorded (pass.run files store).2 := by
  apply run_each Recorded
  · intro asked pair verdict listed
    cases listed
  · intro path base world recorded
    exact settled_keeps base (recorded_kept pass path) recorded
  · intro head before after followed recorded
    refine recorded_follow followed ?_ recorded
    rintro pair verdict ⟨⟩

end Rows

/-! ### Verdicts and outcomes -/

/-- The outcome of a file is what a verdict on it comes to. Where the verdict is in favour, making
the document may fail. -/
inductive Follows (verdict : Store.Verdict) (path : String) : Outcome → Prop
  | processed (favours : verdict.recommendation.regenerate = true) (document : String) :
      Follows verdict path (.processed path (some verdict.score) document)
  | failed (favours : verdict.recommendation.regenerate = true) (message : String) :
      Follows verdict path (.failed path message)
  | skipped (against : verdict.recommendation.regenerate = false) :
      Follows verdict path (.skipped path (reasonAgainst verdict))

theorem Follows.congr {verdict other : Store.Verdict} {path : String} {outcome : Outcome}
    (follows : Follows other path outcome) (score : other.score = verdict.score)
    (choice : other.recommendation.regenerate = verdict.recommendation.regenerate)
    (reasons : other.recommendation.reasons = verdict.recommendation.reasons) :
    Follows verdict path outcome := by
  cases follows with
  | processed favours document =>
      rw [score]
      exact .processed (choice ▸ favours) document
  | failed favours message => exact .failed (choice ▸ favours) message
  | skipped against =>
      rw [reasonAgainst, score, reasons]
      exact .skipped (choice ▸ against)

/-- The outcome of a file gives no score. -/
inductive Outcome.Unscored : Outcome → Prop
  | processed (path document : String) : Unscored (.processed path none document)
  | deleted (path : String) : Unscored (.skipped path "deleted")
  | unchanged (path : String) : Unscored (.skipped path "unchanged")
  | failed (path message : String) : Unscored (.failed path message)

/-- A pass that starts from a commit, and has come to a file that was documented with other
contents, compares the text of the file at the commit with its contents. -/
inductive Compares (pass : Pass) (base : Option String) (begun : World) (path : String) :
    Store.Pair → Prop
  | change (commit old : String) (bytes : ByteArray) (told : base = some commit)
      (present : pass.history.textAt path commit = .ok (some old))
      (read : begun.files.read (pass.target path) = .ok bytes)
      (known : begun.store.digestOf? (pass.target path) ≠ none)
      (due : pass.force = true ∨
        begun.store.digestOf? (pass.target path) ≠ some (Digest.ofBytes bytes)) :
      Compares pass base begun path (pass.pairOf path old bytes)

section Outcomes

variable {pass : Pass} {path : String} {bytes : ByteArray} {world after : World}
  {ended : Except Failure Outcome} {outcome : Outcome}

theorem unscored_of_document
    (carried : carry pass.now (pass.documentCourse path bytes none).result
      (pass.documentCourse path bytes none).effects world = (ended, after))
    (reported : Reported path ended outcome) : outcome.Unscored := by
  cases reported with
  | done outcome =>
      rw [documentCourse_result (carry_ok carried)]
      exact .processed path _
  | failed failure harmless => exact .failed path _

theorem follows_of_verdict {verdict : Store.Verdict}
    (carried : carry pass.now (pass.verdictCourse path bytes verdict).result
      (pass.verdictCourse path bytes verdict).effects world = (ended, after))
    (reported : Reported path ended outcome) : Follows verdict path outcome := by
  unfold verdictCourse at carried
  split at carried
  case isTrue favours =>
    cases reported with
    | done outcome =>
        rw [documentCourse_result (carry_ok carried)]
        exact .processed favours _
    | failed failure harmless => exact .failed favours _
  case isFalse against =>
    cases carried
    cases reported with
    | done outcome => exact .skipped (Bool.eq_false_iff.mpr against)

theorem settled_follows {base : Option String} {pair : Store.Pair} {verdict : Store.Verdict}
    (compares : pass.Compares base world path pair)
    (kept : world.store.verdict? pair = .ok (some verdict))
    (settled : pass.settled path base world = (.ok outcome, after)) :
    Follows verdict path outcome := by
  obtain ⟨ended, carried, reported⟩ := settled_ended settled
  cases compares with
  | change commit old bytes told present read known due =>
      rw [course_kept read due known told present kept] at carried
      exact follows_of_verdict carried reported

theorem settled_skipped {base : Option String} {pair : Store.Pair} {verdict : Store.Verdict}
    (compares : pass.Compares base world path pair)
    (kept : world.store.verdict? pair = .ok (some verdict))
    (against : verdict.recommendation.regenerate = false) :
    ∃ after, pass.settled path base world =
      (.ok (.skipped path (reasonAgainst verdict)), after) := by
  cases compares with
  | change commit old bytes told present read known due =>
      have course := course_kept read due known told present kept
      rw [verdictCourse, if_neg (by simp [against])] at course
      have carried := Course.carriedOut_still (.ok (.skipped path (reasonAgainst verdict))) pass.now
        { world with asked := world.asked ++ [.textAt path commit] }
      rw [← Course.carriedOut_afterQuestion, ← course] at carried
      exact ⟨_, settled_of_reported carried (.done _)⟩

theorem row_of_scored {pair : Store.Pair} {verdict : Store.Verdict} {files : FileTree}
    (read : files.read (pass.target path) = .ok bytes)
    (followed : world.follow pass.now (.wroteStore (.scored pair verdict)) = .ok after)
    (result : Except Failure Outcome) :
    (carry pass.now result (pass.verdictCourse path bytes verdict).effects
      after).2.store.analysisOf? pair = some verdict.toRow := by
  apply carry_keeps (fun world => world.store.analysisOf? pair = some verdict.toRow)
  · intro effect mem before next followed kept
    have documents := verdictCourse_documents read verdict effect mem
    rw [analysisOf?_follow followed (documents.spares pair), kept]
  · exact analysisOf?_scored followed

/-- A file that was settled has no score, or what is kept of its change agrees with its outcome. -/
theorem settled_audited {base : Option String}
    (settled : pass.settled path base world = (.ok outcome, after)) :
    outcome.Unscored ∨ ∃ pair row verdict, pass.Compares base world path pair ∧
      after.store.analysisOf? pair = some row ∧ row.Keeps verdict ∧
      Follows verdict path outcome := by
  have stays : ∀ pair row, world.store.analysisOf? pair = some row →
      after.store.analysisOf? pair = some row := by
    intro pair row held
    have kept := settled_keeps base (row_kept pass path pair row) held
    rwa [settled] at kept
  obtain ⟨ended, carried, reported⟩ := settled_ended settled
  unfold Course.carriedOut at carried
  have evaluated := course_evaluation pass path base world.files world.store
  generalize pass.course path base world.files world.store = course at evaluated carried
  cases evaluated with
  | deleted gone =>
      cases carried
      cases reported
      exact .inl (.deleted path)
  | unchanged bytes read unforced same =>
      cases carried
      cases reported
      exact .inl (.unchanged path)
  | unreadable fault present unread =>
      cases carried
      cases reported
      exact .inl (.failed path _)
  | unlisted unheld =>
      cases carried
      exact absurd rfl reported.sound
  | untold commit failure known told failed =>
      cases carried
      cases reported
      exact .inl (.failed path _)
  | baseless bytes read due baseless => exact .inl (unscored_of_document carried reported)
  | added bytes commit read due known told absent =>
      exact .inl (unscored_of_document carried reported)
  | changed bytes commit old read due known told present =>
      have compares := Compares.change commit old bytes told present read known due
      rw [Course.afterQuestion_effects, Course.afterQuestion_result] at carried
      have judged := judgeCourse_judgement pass path bytes old world.store
      generalize pass.judgeCourse path bytes old world.store = course at judged carried
      cases judged with
      | undecided failure failed =>
          -- Only the store can fail to answer, and then the file has no outcome.
          have fatal : failure = .store := failed.elim Store.verdict?_error Store.symbolsOf_error
          cases carried
          exact absurd (congrArg Except.error fatal) reported.sound
      | kept verdict known =>
          obtain ⟨row, held, reread⟩ := Store.verdict?_some known
          exact .inr ⟨_, row, verdict, compares, stays _ row held, .inr reread,
            follows_of_verdict carried reported⟩
      | fresh documented unknown listed =>
          rw [Course.afterEffect_effects, Course.afterEffect_result] at carried
          obtain ⟨store, wrote, carried⟩ := carry_wrote carried reported.sound
          have row := row_of_scored read (follow_wroteStore.mpr ⟨store, wrote, rfl⟩)
            (pass.verdictCourse path bytes (pass.freshVerdict old bytes documented.names)).result
          rw [carried] at row
          exact .inr ⟨_, _, _, compares, row, .inl rfl, follows_of_verdict carried reported⟩

/-! ### Scores in reasons -/

theorem scored_inj {score score' : Nat} {reason reason' : String}
    (same : "score " ++ toString score ++ ": " ++ reason =
      "score " ++ toString score' ++ ": " ++ reason') : score = score' ∧ reason = reason' := by
  have leading : ∀ (number : Nat) (rest : List Char),
      (Nat.toDigits 10 number ++ ':' :: rest).takeWhile Char.isDigit = Nat.toDigits 10 number := by
    intro number rest
    apply Json.takeWhile_digits (Json.toDigits_digits number)
    rintro c ⟨⟩
    rfl
  have colon : ": ".toList = [':', ' '] := by decide
  have texts := congrArg String.toList same
  simp only [String.toList_append, Nat.toString_eq_repr, Nat.toList_repr, colon,
    List.append_assoc, List.cons_append, List.nil_append] at texts
  have behind := List.append_cancel_left texts
  have digits := congrArg (List.takeWhile Char.isDigit) behind
  rw [leading, leading] at digits
  have number := congrArg (fun text => Nat.ofDigitChars 10 text 0) digits
  simp only [Nat.ofDigitChars_ten_toDigits] at number
  rw [digits] at behind
  have rest := List.append_cancel_left behind
  simp only [List.cons.injEq, true_and] at rest
  exact ⟨number, String.toList_inj.mp rest⟩

theorem follows_processed {verdict : Store.Verdict} {score : Nat} {document : String}
    (follows : Follows verdict path (.processed path (some score) document)) :
    verdict.score = score ∧ verdict.recommendation.regenerate = true := by
  cases follows with
  | processed favours document => exact ⟨rfl, favours⟩

theorem follows_skipped {verdict : Store.Verdict} {score : Nat} {reason : String}
    (follows : Follows verdict path
      (.skipped path ("score " ++ toString score ++ ": " ++ reason))) :
    verdict.score = score ∧ verdict.recommendation.regenerate = false ∧
      verdict.recommendation.reasons.getLast?.getD "" = reason := by
  generalize text : "score " ++ toString score ++ ": " ++ reason = told at follows
  cases follows with
  | skipped against =>
      obtain ⟨rfl, rfl⟩ := scored_inj text
      exact ⟨rfl, against, rfl⟩

theorem not_unscored_skipped (score : Nat) (reason : String) :
    ¬(Outcome.skipped path ("score " ++ toString score ++ ": " ++ reason)).Unscored := by
  generalize text : "score " ++ toString score ++ ": " ++ reason = told
  have first : told.toList.head? = some 's' := by
    rw [← text]
    simp [String.toList_append]
  intro unscored
  cases unscored
  all_goals revert first; decide

end Outcomes

/-! ### Whole passes -/

/-- A pass over files and a store that has settled files with some outcomes settles one more. -/
structure Comes (pass : Pass) (files : FileTree) (store : Store) (base : Option String)
    (earlier : List Outcome) (outcome : Outcome) (begun after : World) : Prop where
  started : pass.baseFor (store.commitOf? pass.repository) = .ok base
  reached : ∃ asked, (pass.settleAll base (earlier.map Outcome.path)).run
    { World.start files store with asked } = (.ok earlier, begun)
  settled : (pass.settle outcome.path base).run begun = (.ok outcome, after)

/-- Every outcome with a score has its row in the store: for the text of the file at the commit
that the pass started from and the contents that it read, with that score, that choice and that
reason. -/
structure Audited (pass : Pass) (files : FileTree) (store : Store) (report : Report)
    (last : Store) : Prop where
  processed : ∀ earlier path score document later,
    report.outcomes = earlier ++ .processed path (some score) document :: later →
    ∃ base begun after pair row verdict,
      pass.Comes files store base earlier (.processed path (some score) document) begun after ∧
      pass.Compares base begun path pair ∧ last.analysisOf? pair = some row ∧ row.Keeps verdict ∧
      row.score = some (score : Int) ∧ verdict.recommendation.regenerate = true
  skipped : ∀ earlier path (score : Nat) reason later,
    report.outcomes =
      earlier ++ .skipped path ("score " ++ toString score ++ ": " ++ reason) :: later →
    ∃ base begun after pair row verdict,
      pass.Comes files store base earlier
        (.skipped path ("score " ++ toString score ++ ": " ++ reason)) begun after ∧
      pass.Compares base begun path pair ∧ last.analysisOf? pair = some row ∧ row.Keeps verdict ∧
      row.score = some (score : Int) ∧ verdict.recommendation.regenerate = false ∧
      verdict.recommendation.reasons.getLast?.getD "" = reason

/-- The stores after a store: passes over any files lead there, and operations that write no row for
the change. -/
inductive Later (pair : Store.Pair) (store : Store) : Store → Prop
  | now : Later pair store store
  | passed (pass : Pass) (files : FileTree) {next : Store} (before : Later pair store next) :
      Later pair store (pass.run files next).2.store
  | operated (operation : Operation) {next : Store} (before : Later pair store next)
      (spares : operation.Spares pair) : Later pair store (operation.on next)

section Runs

variable {pass : Pass} {files : FileTree} {store : Store} {report : Report}

/-- A pass that comes to its end settles each of its files, and keeps what rows there are then. -/
theorem run_comes {earlier later : List Outcome} {outcome : Outcome}
    (ended : (pass.run files store).1 = .ok report)
    (split : report.outcomes = earlier ++ outcome :: later) :
    ∃ base begun after, pass.Comes files store base earlier outcome begun after ∧
      ∀ pair row, after.store.analysisOf? pair = some row →
        (pass.run files store).2.store.analysisOf? pair = some row := by
  have nonempty : report.outcomes ≠ [] := by
    rw [split]
    exact List.append_ne_nil_of_right_ne_nil _ (List.cons_ne_nil _ _)
  obtain ⟨asked, carried⟩ := run_eq pass files store
  rw [carried] at ended ⊢
  have planned := plan_planned pass store
  generalize pass.plan store = plan at planned ended
  cases planned with
  | empty missing =>
      cases ended
      exact absurd rfl nonempty
  | current head found marked unforced =>
      cases ended
      exact absurd rfl nonempty
  | due head base named found due started told =>
      rcases completed : pass.completed head (store.commitOf? pass.repository) base
        (named.filter pass.config.tracks) { World.start files store with asked } with ⟨_, last⟩
      rw [carryOut, completed] at ended
      subst ended
      obtain ⟨outcomes, middle, settled, followed, rfl⟩ := completed_split completed
      dsimp only at split
      rw [split] at settled
      obtain ⟨begun, after, before, settles, behind⟩ := settledAll_split settled
      refine ⟨base, begun, after, ⟨started, ⟨asked, ?_⟩, ?_⟩, ?_⟩
      · rw [run_settleAll, before]
      · rw [run_settle, settles]
      · intro pair row held
        have kept : (pass.settledAll base (later.map Outcome.path) after).2.store.analysisOf?
            pair = some row :=
          settledAll_keeps base (fun path _mem => row_kept pass path pair row) held
        rw [behind] at kept
        rw [carryOut, completed, analysisOf?_follow followed, kept]
        rintro verdict ⟨⟩
  | _ => cases ended

theorem run_audited (ended : (pass.run files store).1 = .ok report) :
    pass.Audited files store report (pass.run files store).2.store := by
  constructor
  case processed =>
    intro earlier path score document later split
    obtain ⟨base, begun, after, comes, stays⟩ := run_comes ended split
    have settled := comes.settled
    rw [run_settle] at settled
    rcases settled_audited settled with ⟨⟨⟩⟩ | ⟨pair, row, verdict, compares, held, keeps, follows⟩
    obtain ⟨rfl, favours⟩ := follows_processed follows
    exact ⟨base, begun, after, pair, row, verdict, comes, compares, stays pair row held, keeps,
      keeps.score, favours⟩
  case skipped =>
    intro earlier path score reason later split
    obtain ⟨base, begun, after, comes, stays⟩ := run_comes ended split
    have settled := comes.settled
    rw [run_settle] at settled
    rcases settled_audited settled with
      unscored | ⟨pair, row, verdict, compares, held, keeps, follows⟩
    · exact absurd unscored (not_unscored_skipped score reason)
    · obtain ⟨rfl, against, reasons⟩ := follows_skipped follows
      exact ⟨base, begun, after, pair, row, verdict, comes, compares, stays pair row held, keeps,
        keeps.score, against, reasons⟩

theorem Later.row {pair : Store.Pair} {next : Store} {row : AnalysisRow}
    (later : Later pair store next) (held : store.analysisOf? pair = some row) :
    next.analysisOf? pair = some row := by
  induction later with
  | now => exact held
  | passed pass files before ih => exact run_row pass files ih
  | operated operation before spares ih => rw [Store.analysisOf?_on spares, ih]

/-- What is listed as scored are verdicts on changes that the pass found. -/
def ListsScores (pass : Pass) (world : World) : Prop :=
  ∀ pair verdict, .wroteStore (.scored pair verdict) ∈ world.effects → pass.Scores pair verdict

theorem listsScores_follow {effect : Effect} {before after : World}
    (followed : before.follow pass.now effect = .ok after)
    (scores : ∀ pair verdict, effect = .wroteStore (.scored pair verdict) →
      pass.Scores pair verdict)
    (lists : pass.ListsScores before) : pass.ListsScores after := by
  intro pair verdict listed
  rw [follow_effects followed, List.mem_append, List.mem_singleton] at listed
  rcases listed with earlier | same
  · exact lists pair verdict earlier
  · exact scores pair verdict same.symm

theorem run_listsScores (pass : Pass) (files : FileTree) (store : Store) :
    pass.ListsScores (pass.run files store).2 := by
  apply run_each pass.ListsScores
  · intro asked pair verdict listed
    cases listed
  · intro path base world lists
    rw [settled_world, Course.carriedOut]
    refine carry_keeps pass.ListsScores _ ?_ lists
    rintro effect mem before after followed
    apply listsScores_follow followed
    rintro pair verdict rfl
    exact course_scores mem
  · intro head before after followed
    apply listsScores_follow followed
    rintro pair verdict ⟨⟩

theorem Scores.score {pair : Store.Pair} {verdict : Store.Verdict}
    (scores : pass.Scores pair verdict) : verdict.score ≤ 100 := by
  cases scores with
  | change path commit old bytes context result present scored accepted =>
      rw [scored]
      exact Significance.of_score_le ..

/-- A row that can be read has the say in every pass that comes to its change. -/
theorem follows_of_row {pair : Store.Pair} {verdict : Store.Verdict} {base : Option String}
    {earlier : List Outcome} {outcome : Outcome} {begun after : World} (score : verdict.score ≤ 100)
    (finite : verdict.recommendation.confidence.isFinite = true)
    (held : store.analysisOf? pair = some verdict.toRow)
    (comes : pass.Comes files store base earlier outcome begun after)
    (compares : pass.Compares base begun outcome.path pair) :
    Follows verdict outcome.path outcome := by
  obtain ⟨asked, reached⟩ := comes.reached
  have settled := comes.settled
  rw [run_settleAll] at reached
  rw [run_settle] at settled
  have row : (pass.settledAll base (earlier.map Outcome.path)
      { World.start files store with asked }).2.store.analysisOf? pair = some verdict.toRow :=
    settledAll_keeps base (fun path _mem => row_kept pass path pair verdict.toRow) held
  rw [reached] at row
  obtain ⟨confidence, read⟩ := Store.Verdict.ofRow?_toRow (score.trans (by decide)) finite
  have follows := settled_follows compares (Store.verdict?_of_row row read) settled
  exact follows.congr rfl rfl rfl

end Runs

/-- The rows that are kept of scored changes agree with what is reported. After a pass that came to
its end, each outcome with a score has its row. And once a pass has kept a verdict with a finite
confidence, a file of which a later pass compares the same texts has an outcome with that score and
that choice, whatever the pass and its files are, and whatever else became of the store. -/
theorem outcomes_audited (pass : Pass) (files : FileTree) (store : Store) :
    (∀ report, (pass.run files store).1 = .ok report →
      pass.Audited files store report (pass.run files store).2.store) ∧
    ∀ pair verdict, .wroteStore (.scored pair verdict) ∈ (pass.run files store).2.effects →
      verdict.recommendation.confidence.isFinite = true →
      ∀ next, Later pair (pass.run files store).2.store next →
      ∀ (other : Pass) (files : FileTree) (base : Option String) (earlier : List Outcome)
        (outcome : Outcome) (begun after : World),
        other.Comes files next base earlier outcome begun after →
        other.Compares base begun outcome.path pair → Follows verdict outcome.path outcome := by
  constructor
  · intro report ended
    exact run_audited ended
  · intro pair verdict listed finite next later other files base earlier outcome begun after comes
      compares
    have score := (run_listsScores pass _ store pair verdict listed).score
    have held := later.row (run_recorded pass _ store pair verdict listed)
    exact follows_of_row score finite held comes compares

/-! ### A change of layout under another policy -/

/-- The second of two passes once more, under a policy by which a change of layout weighs a lot. -/
def strictPass : Pass :=
  { layoutPass "second" with
    config := { Config.standard with scoring := { Policy.standard with layoutPoints := 60 } } }

def looseFiles : FileTree :=
  layoutFiles "<?php\nfunction f()  {}\n"

/-- The store after the second pass, with the marker put back to where it was. -/
def markedBack : Store :=
  Operation.on ((layoutPass "second").run looseFiles layoutStore).2.store
    (.wrote "later" (.processed "site" "first"))

/-- The change that an effect scores, with the score and the choice. -/
def Effect.scored? : Effect → Option (Store.Pair × Nat × Bool)
  | .wroteStore (.scored pair verdict) =>
      some (pair, verdict.score, verdict.recommendation.regenerate)
  | _ => none

theorem layoutPass_scored :
    ∃ verdict, .wroteStore (.scored layoutPair verdict) ∈
        ((layoutPass "second").run looseFiles layoutStore).2.effects ∧
      verdict.score = 1 ∧ verdict.recommendation.regenerate = false := by
  have listed : (layoutPair, 1, false) ∈
      ((layoutPass "second").run looseFiles layoutStore).2.effects.filterMap Effect.scored? := by
    decide +kernel
  obtain ⟨effect, mem, same⟩ := List.mem_filterMap.mp listed
  unfold Effect.scored? at same
  split at same
  case h_1 pair verdict =>
    obtain ⟨rfl, score, choice⟩ := by simpa only [Option.some.injEq, Prod.mk.injEq] using same
    exact ⟨verdict, mem, score, choice⟩
  case h_2 => cases same

theorem markedBack_facts :
    markedBack.commitOf? strictPass.repository = some "first" ∧
      markedBack.digestOf? (strictPass.target "a.php") ≠ none ∧
      markedBack.digestOf? (strictPass.target "a.php") ≠
        some (Digest.ofBytes "<?php\nfunction f()  {}\n".toUTF8) := by
  decide +kernel

theorem strictPass_compares :
    strictPass.Compares (some "first") (World.start looseFiles markedBack) "a.php" layoutPair :=
  .change "first" "<?php\nfunction f() {}\n" _ rfl (ok_of_toOption (by decide +kernel)) rfl
    markedBack_facts.2.1 (.inr markedBack_facts.2.2)

theorem strictPass_comes {verdict : Store.Verdict}
    (kept : markedBack.verdict? layoutPair = .ok (some verdict))
    (against : verdict.recommendation.regenerate = false) :
    ∃ after, strictPass.Comes looseFiles markedBack (some "first") []
      (.skipped "a.php" (reasonAgainst verdict)) (World.start looseFiles markedBack) after := by
  obtain ⟨after, settled⟩ := settled_skipped strictPass_compares kept against
  refine ⟨after, ?_, ⟨[], rfl⟩, ?_⟩
  · rw [markedBack_facts.1]
    rfl
  · exact (run_settle ..).trans settled

/-- The pass would score 60; what it goes by is the verdict that is kept, which says 1. -/
theorem outcomes_audited_of_layout :
    (layoutPass "second").Audited looseFiles layoutStore layoutReport
      ((layoutPass "second").run looseFiles layoutStore).2.store ∧
    (strictPass.freshVerdict "<?php\nfunction f() {}\n" "<?php\nfunction f()  {}\n".toUTF8 []).score
      = 60 ∧
    ∃ verdict reason after, verdict.score = 1 ∧
      strictPass.Comes looseFiles markedBack (some "first") [] (.skipped "a.php" reason)
        (World.start looseFiles markedBack) after ∧
      Follows verdict "a.php" (.skipped "a.php" reason) := by
  have audited := (outcomes_audited (layoutPass "second") looseFiles layoutStore).1 layoutReport
    layoutPass_second
  have fresh : (strictPass.freshVerdict "<?php\nfunction f() {}\n"
      "<?php\nfunction f()  {}\n".toUTF8 []).score = 60 := by
    decide +kernel
  obtain ⟨verdict, listed, score, choice⟩ := layoutPass_scored
  have finite := layoutPass_finite _ listed
  have later : Later layoutPair ((layoutPass "second").run looseFiles layoutStore).2.store
      markedBack :=
    .operated _ .now trivial
  have row := later.row (run_recorded _ _ _ _ _ listed)
  obtain ⟨confidence, read⟩ := Store.Verdict.ofRow?_toRow (score ▸ by decide) finite
  obtain ⟨after, comes⟩ := strictPass_comes (Store.verdict?_of_row row read) choice
  have follows := (outcomes_audited (layoutPass "second") looseFiles layoutStore).2 layoutPair
    verdict listed finite markedBack later strictPass looseFiles (some "first") [] _
    (World.start looseFiles markedBack) after comes strictPass_compares
  exact ⟨audited, fresh, verdict, _, after, score, comes, follows⟩

end Pass

end DocDrift
