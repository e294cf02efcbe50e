import DocDrift.Proofs.Pass.Outcomes

/-!
No file is dropped. A pass that sets its marker reports one outcome for each file that it was told
of and tracks, in the order in which it was told of them. Which files these are depends on the
history, the marker and the configuration alone: what becomes of one file does not change which
others are reported, and only a failure of the store keeps a pass from reporting them.
-/

set_option autoImplicit false

namespace DocDrift.Pass

/-! ### Counting outcomes -/

theorem Report.counts (report : Report) :
    report.processed + report.skipped + report.failed = report.outcomes.length := by
  unfold Report.processed Report.skipped Report.failed
  induction report.outcomes with
  | nil => rfl
  | cons outcome rest ih =>
      simp only [List.countP_cons, List.length_cons]
      cases outcome <;> simp only [Outcome.isProcessed, Outcome.isSkipped, Outcome.isFailed,
        if_true, if_false, Bool.false_eq_true] <;> omega

/-! ### The files that a pass is told of -/

/-- The files that a pass is told of, up to a commit: all files of the repository if the pass is
forced or starts from no commit that is there, and those changed since its marker otherwise. -/
inductive Told (pass : Pass) (store : Store) (head : String) : List String → Prop
  | all (named : List String)
      (fresh : pass.force = true ∨ store.commitOf? pass.repository = none ∨
        ∃ commit, store.commitOf? pass.repository = some commit ∧
          pass.history.knows commit = .ok false)
      (listed : pass.history.files = .ok named) : Told pass store head named
  | changed (commit : String) (named : List String) (unforced : pass.force = false)
      (marked : store.commitOf? pass.repository = some commit)
      (known : pass.history.knows commit = .ok true)
      (listed : pass.history.changed commit head = .ok named) : Told pass store head named

theorem told_of_named {pass : Pass} {store : Store} {head : String} {base : Option String}
    {named : List String} (started : pass.baseFor (store.commitOf? pass.repository) = .ok base)
    (told : pass.namedFor base head = .ok named) : pass.Told store head named := by
  cases marked : store.commitOf? pass.repository with
  | none =>
      rw [marked] at started
      cases started
      exact .all named (.inr (.inl marked)) told
  | some commit =>
      rw [marked, baseFor] at started
      cases forced : pass.force with
      | true =>
          rw [forced, if_pos rfl] at started
          cases started
          exact .all named (.inl forced) told
      | false =>
          rw [forced, if_neg Bool.false_ne_true] at started
          cases known : pass.history.knows commit with
          | error failure =>
              rw [known] at started
              cases started
          | ok there =>
              rw [known] at started
              cases there with
              | false =>
                  cases started
                  exact .all named (.inr (.inr ⟨commit, marked, known⟩)) told
              | true =>
                  cases started
                  refine .changed commit named forced marked known ?_
                  cases listed : pass.history.between commit head with
                  | error failure =>
                      rw [namedFor, listed] at told
                      cases told
                  | ok commits =>
                      rw [namedFor, listed] at told
                      exact told

/-! ### A file that fails -/

/-- A failure that concerns one file is its outcome, and the files behind it are settled from where
that failure left off. -/
theorem settleAll_goes_on {pass : Pass} {base : Option String} {path : String}
    {rest : List String} {world after last : World} {failure : Failure} {outcomes : List Outcome}
    (failed : (pass.evaluate path base).run world = (.error failure, after))
    (harmless : failure.isFatal = false)
    (rested : (pass.settleAll base rest).run after = (.ok outcomes, last)) :
    (pass.settleAll base (path :: rest)).run world =
      (.ok (.failed path failure.message :: outcomes), last) := by
  have settled : (pass.settle path base).run world = (.ok (.failed path failure.message), after) := by
    rw [settle, run_tryCatch, failed]
    dsimp only
    rw [harmless, if_neg Bool.false_ne_true, run_pure]
  rw [settleAll, run_bind, settled]
  dsimp only
  rw [run_bind, rested]
  rfl

/-! ### A pass that has files to settle -/

/-- Two passes have the same task if they ask the same history from the same marker on and track the
same files. They may find other files, work with another generator, and keep other things. -/
structure SameTask (pass : Pass) (store : Store) (other : Pass) (otherStore : Store) : Prop where
  history : other.history = pass.history
  tracks : other.config.tracks = pass.config.tracks
  force : other.force = pass.force
  marked : otherStore.commitOf? other.repository = store.commitOf? pass.repository

/-- A pass that set its marker had files to settle, and they are those that it was told of. -/
theorem planned_of_advanced {pass : Pass} {files : FileTree} {store : Store} {report : Report}
    (ended : (pass.run files store).1 = .ok report) (advanced : report.advanced = true) :
    ∃ head base named, pass.history.head = .ok (some head) ∧
      pass.baseFor (store.commitOf? pass.repository) = .ok base ∧
      pass.namedFor base head = .ok named ∧
      pass.plan store = .ok (.settle head (store.commitOf? pass.repository) base
        (named.filter pass.config.tracks)) := by
  obtain ⟨asked, carried⟩ := run_eq pass files store
  rw [carried] at ended
  have planned := plan_planned pass store
  generalize pass.plan store = plan at planned ended ⊢
  cases planned with
  | due head base named found due started told =>
      exact ⟨head, base, named, found, started, told, rfl⟩
  | empty missing =>
      cases ended
      cases advanced
  | current head found marked unforced =>
      cases ended
      cases advanced
  | _ => cases ended

/-- A pass with files to settle reports each of them, unless the store fails. -/
theorem run_of_planned {pass : Pass} {store : Store} {head : String}
    {previous base : Option String} {paths : List String} (files : FileTree)
    (planned : pass.plan store = .ok (.settle head previous base paths)) :
    (∃ outcomes, (pass.run files store).1 = .ok ⟨some head, previous, outcomes, true⟩ ∧
        outcomes.map Outcome.path = paths) ∨
      (pass.run files store).1 = .error .store := by
  obtain ⟨asked, carried⟩ := run_eq pass files store
  rw [carried, planned, carryOut, completed]
  rcases settled : pass.settledAll base paths { World.start files store with asked } with
    ⟨failure | outcomes, middle⟩
  · right
    rw [settledAll_error settled]
  · dsimp only
    cases followed : middle.follow pass.now (.wroteStore (.processed pass.repository head)) with
    | error failure =>
        right
        rw [follow_wroteStore_error followed]
    | ok last => exact .inl ⟨outcomes, rfl, settledAll_paths settled⟩

/-- A pass with the task of one that has files to settle has to settle the same files, unless its
markers cannot be read. -/
theorem SameTask.plan {pass other : Pass} {store otherStore : Store} {head : String}
    {base : Option String} {paths : List String}
    (same : pass.SameTask store other otherStore)
    (planned : pass.plan store =
      .ok (.settle head (store.commitOf? pass.repository) base paths)) :
    other.plan otherStore = .ok (.settle head (store.commitOf? pass.repository) base paths) ∨
      other.plan otherStore = .error .store := by
  have bases : ∀ previous, other.baseFor previous = pass.baseFor previous := by
    intro previous
    unfold baseFor
    rw [same.history, same.force]
  have names : ∀ base head, other.namedFor base head = pass.namedFor base head := by
    intro base head
    unfold namedFor
    rw [same.history]
  unfold Pass.plan at planned ⊢
  simp only [previousOf_eq, same.history, same.tracks, same.force, same.marked, bases, names]
    at planned ⊢
  cases found : pass.history.head with
  | error failure =>
      rw [found] at planned
      cases planned
  | ok commit =>
      cases commit with
      | none =>
          rw [found] at planned
          cases planned
      | some current =>
          cases otherStore.markers with
          | none => exact .inr rfl
          | some markers =>
              left
              rw [found] at planned
              cases held : store.markers with
              | none =>
                  rw [held] at planned
                  cases planned
              | some kept =>
                  rw [held] at planned
                  exact planned

/-- No file is dropped: a pass that sets its marker reports each file that it was told of and
tracks, in order, and counts each outcome once. A failure that concerns one file changes nothing
about the others: they are settled behind it, and another pass with the same task reports the same
files, whatever becomes of each of them, unless the store fails. -/
theorem outcome_of_every_candidate {pass : Pass} {files : FileTree} {store : Store}
    {report : Report} (ended : (pass.run files store).1 = .ok report)
    (advanced : report.advanced = true) :
    (∃ head named, pass.history.head = .ok (some head) ∧ report.head = some head ∧
      pass.Told store head named ∧
      report.outcomes.map Outcome.path = named.filter pass.config.tracks) ∧
    report.processed + report.skipped + report.failed = report.outcomes.length ∧
    (∀ path base rest world after last failure outcomes,
      (pass.evaluate path base).run world = (.error failure, after) → failure.isFatal = false →
      (pass.settleAll base rest).run after = (.ok outcomes, last) →
      (pass.settleAll base (path :: rest)).run world =
        (.ok (.failed path failure.message :: outcomes), last)) ∧
    ∀ (other : Pass) (otherFiles : FileTree) (otherStore : Store),
      pass.SameTask store other otherStore →
      (∃ again, (other.run otherFiles otherStore).1 = .ok again ∧ again.advanced = true ∧
        again.outcomes.map Outcome.path = report.outcomes.map Outcome.path) ∨
      (other.run otherFiles otherStore).1 = .error .store := by
  obtain ⟨head, base, named, found, started, told, planned⟩ := planned_of_advanced ended advanced
  have reported : report.head = some head ∧
      report.outcomes.map Outcome.path = named.filter pass.config.tracks := by
    rcases run_of_planned files planned with ⟨outcomes, reached, paths⟩ | stopped
    · rw [ended] at reached
      cases reached
      exact ⟨rfl, paths⟩
    · rw [ended] at stopped
      cases stopped
  refine ⟨⟨head, named, found, reported.1, told_of_named started told, reported.2⟩,
    report.counts, ?_, ?_⟩
  · intro path base rest world after last failure outcomes failed harmless rested
    exact settleAll_goes_on failed harmless rested
  intro other otherFiles otherStore same
  rcases same.plan planned with settles | unmarked
  · rcases run_of_planned otherFiles settles with ⟨outcomes, reached, paths⟩ | stopped
    · exact .inl ⟨_, reached, rfl, paths.trans reported.2.symm⟩
    · exact .inr stopped
  · obtain ⟨asked, carried⟩ := run_eq other otherFiles otherStore
    right
    rw [carried, unmarked]
    rfl

/-! ### A pass whose generator fails -/

/-- The pass over two files of which one is gone, with a model that never answers. -/
def silentPass : Pass :=
  { gonePass with generator := .unavailable }

def silentReport : Report :=
  ⟨some "head", none,
    [.failed "a.php" "Documentation generation failed: model unavailable for a.php",
      .skipped "b.php" "deleted"], true⟩

theorem silentPass_ended : (silentPass.run goneFiles .empty).1 = .ok silentReport :=
  ok_of_toOption (by decide +kernel)

/-- The pass reports both files although the first fails, as it does when a document is made. -/
theorem outcome_of_every_candidate_of_silent :
    silentReport.outcomes.map Outcome.path = ["a.php", "b.php"] ∧
      ((∃ again, (gonePass.run goneFiles .empty).1 = .ok again ∧ again.advanced = true ∧
        again.outcomes.map Outcome.path = silentReport.outcomes.map Outcome.path) ∨
      (gonePass.run goneFiles .empty).1 = .error .store) :=
  ⟨rfl, (outcome_of_every_candidate silentPass_ended rfl).2.2.2 gonePass goneFiles .empty
    ⟨rfl, rfl, rfl, rfl⟩⟩

end DocDrift.Pass
