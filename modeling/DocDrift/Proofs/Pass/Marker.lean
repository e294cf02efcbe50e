import DocDrift.Proofs.Pass.Effects

/-!
The marker of a repository. Settling files leaves all markers alone; a pass sets one marker, that of
its repository, and only after every file that it found has its outcome. So over any sequence of
passes a marker is the head of the latest pass that set it.
-/

set_option autoImplicit false

namespace DocDrift.Pass

/-! ### Settling leaves markers alone -/

theorem write_keeps_markers {pass : Pass} {before after : World} {write : Store.Write}
    (other : ∀ markers, write.onMarkers pass.now markers = markers)
    (followed : before.follow pass.now (.wroteStore write) = .ok after) :
    after.store.markers = before.store.markers := by
  obtain ⟨store, wrote, rfl⟩ := follow_wroteStore.mp followed
  have tables := (Store.write_tables wrote).2.1
  cases held : before.store.markers with
  | none => rw [tables, held, Option.map_none]
  | some markers => rw [tables, held, Option.map_some, other]

theorem markers_kept (pass : Pass) (path : String) (markers : Option (NameMap Store.MarkerRow)) :
    pass.Kept path (fun world => world.store.markers = markers) := by
  refine ⟨fun _ _ kept => kept, ?_, ?_⟩
  · intro begun _kept effect documents before after followed kept
    cases documents with
    | madeParent =>
        obtain ⟨files, made, rfl⟩ := follow_madeParent.mp followed
        exact kept
    | wroteFile text =>
        obtain ⟨files, wrote, rfl⟩ := follow_wroteFile.mp followed
        exact kept
    | documented bytes document read =>
        exact (write_keeps_markers (fun _ => rfl) followed).trans kept
    | listed names digest => exact (write_keeps_markers (fun _ => rfl) followed).trans kept
    | spent usage => exact (write_keeps_markers (fun _ => rfl) followed).trans kept
  · intro before after old new verdict _fresh followed kept
    exact (write_keeps_markers (fun _ => rfl) followed).trans kept

theorem settledAll_markers (pass : Pass) (base : Option String) (paths : List String)
    (world : World) :
    (pass.settledAll base paths world).2.store.markers = world.store.markers :=
  settledAll_keeps base (fun path _mem => markers_kept pass path world.store.markers) rfl

/-! ### Every file has its outcome -/

theorem documentCourse_result {pass : Pass} {path : String} {bytes : ByteArray}
    {score : Option Nat} {outcome : Outcome}
    (ended : (pass.documentCourse path bytes score).result = .ok outcome) :
    outcome = .processed path score (pass.config.documentPath path) := by
  unfold documentCourse at ended
  cases generated : pass.generator path (Text.decodeLossy bytes) with
  | error failure =>
      rw [generated] at ended
      cases ended
  | ok document =>
      rw [generated] at ended
      cases ended
      rfl

theorem documentCourse_path {pass : Pass} {path : String} {bytes : ByteArray} {score : Option Nat}
    {outcome : Outcome} (ended : (pass.documentCourse path bytes score).result = .ok outcome) :
    outcome.path = path := by
  rw [documentCourse_result ended]
  rfl

theorem verdictCourse_path {pass : Pass} {path : String} {bytes : ByteArray}
    {verdict : Store.Verdict} {outcome : Outcome}
    (ended : (pass.verdictCourse path bytes verdict).result = .ok outcome) :
    outcome.path = path := by
  unfold verdictCourse at ended
  split at ended
  · exact documentCourse_path ended
  · cases ended
    rfl

theorem judgeCourse_path {pass : Pass} {path old : String} {bytes : ByteArray} {store : Store}
    {outcome : Outcome}
    (ended : (pass.judgeCourse path bytes old store).result = .ok outcome) :
    outcome.path = path := by
  have judged := judgeCourse_judgement pass path bytes old store
  generalize pass.judgeCourse path bytes old store = course at judged ended
  cases judged with
  | undecided failure failed => cases ended
  | kept verdict known => exact verdictCourse_path ended
  | fresh documented unknown listed =>
      rw [Course.afterEffect_result] at ended
      exact verdictCourse_path ended

theorem course_path {pass : Pass} {path : String} {base : Option String} {files : FileTree}
    {store : Store} {outcome : Outcome}
    (ended : (pass.course path base files store).result = .ok outcome) :
    outcome.path = path := by
  have evaluated := course_evaluation pass path base files store
  generalize pass.course path base files store = course at evaluated ended
  cases evaluated with
  | deleted gone =>
      cases ended
      rfl
  | unreadable fault present unread => cases ended
  | unlisted unheld => cases ended
  | unchanged bytes read unforced same =>
      cases ended
      rfl
  | baseless bytes read due baseless => exact documentCourse_path ended
  | untold commit failure known told failed => cases ended
  | added bytes commit read due known told absent =>
      rw [Course.afterQuestion_result] at ended
      exact documentCourse_path ended
  | changed bytes commit old read due known told present =>
      rw [Course.afterQuestion_result] at ended
      exact judgeCourse_path ended

theorem settled_path {pass : Pass} {path : String} {base : Option String} {world after : World}
    {outcome : Outcome} (settled : pass.settled path base world = (.ok outcome, after)) :
    outcome.path = path := by
  unfold Pass.settled at settled
  rcases carried : (pass.course path base world.files world.store).carriedOut pass.now world with
    ⟨failure | reached, last⟩
  · rw [carried] at settled
    dsimp only at settled
    split at settled
    · cases settled
    · cases settled
      rfl
  · rw [carried] at settled
    cases settled
    exact course_path (carry_ok carried)

/-- If settling files comes to an end, each of them has its outcome. -/
theorem settledAll_paths {pass : Pass} {base : Option String} {paths : List String}
    {world after : World} {outcomes : List Outcome}
    (settled : pass.settledAll base paths world = (.ok outcomes, after)) :
    outcomes.map Outcome.path = paths := by
  induction paths generalizing world outcomes with
  | nil =>
      cases settled
      rfl
  | cons path rest ih =>
      obtain ⟨outcome, others, middle, first, rested, rfl⟩ := settledAll_cons settled
      rw [List.map_cons, settled_path first, ih rested]

/-- Only a failure of the store keeps files from being settled. -/
theorem settledAll_error {pass : Pass} {base : Option String} {paths : List String}
    {world after : World} {failure : Failure}
    (settled : pass.settledAll base paths world = (.error failure, after)) : failure = .store := by
  induction paths generalizing world with
  | nil => cases settled
  | cons path rest ih =>
      rw [settledAll] at settled
      rcases first : pass.settled path base world with ⟨stopped | outcome, next⟩
      · rw [first] at settled
        cases settled
        unfold Pass.settled at first
        revert first
        rcases (pass.course path base world.files world.store).carriedOut pass.now world with
          ⟨reason | reached, last⟩
        · dsimp only
          split
          case isTrue fatal =>
            intro first
            cases first
            cases failure with
            | store => rfl
            | _ => cases fatal
          case isFalse =>
            intro first
            cases first
        · intro first
          cases first
      · rw [first] at settled
        dsimp only at settled
        rcases others : pass.settledAll base rest next with ⟨stopped | reached, last⟩
        · rw [others] at settled
          cases settled
          exact ih others
        · rw [others] at settled
          cases settled

/-! ### A pass sets its marker last -/

/-- A pass over files that ends early leaves the markers alone. -/
theorem completed_error {pass : Pass} {head : String} {previous base : Option String}
    {paths : List String} {world after : World} {failure : Failure}
    (ended : pass.completed head previous base paths world = (.error failure, after)) :
    after.store.markers = world.store.markers := by
  unfold completed at ended
  have kept := settledAll_markers pass base paths world
  rcases settled : pass.settledAll base paths world with ⟨stopped | outcomes, next⟩
  · rw [settled] at ended kept
    cases ended
    exact kept
  · rw [settled] at ended kept
    dsimp only at ended kept
    cases followed : next.follow pass.now (.wroteStore (.processed pass.repository head)) with
    | error stopped =>
        rw [followed] at ended
        cases ended
        exact kept
    | ok last =>
        rw [followed] at ended
        cases ended

/-- A pass over files that comes to its end has an outcome for each of them, and has set its
marker. -/
theorem completed_ok {pass : Pass} {head : String} {previous base : Option String}
    {paths : List String} {world after : World} {report : Report}
    (ended : pass.completed head previous base paths world = (.ok report, after)) :
    ∃ outcomes markers, report = ⟨some head, previous, outcomes, true⟩ ∧
      outcomes.map Outcome.path = paths ∧
      world.store.markers = some markers ∧
      after.store.markers = some (markers.insert pass.repository ⟨head, pass.now⟩) := by
  have kept := settledAll_markers pass base paths world
  obtain ⟨outcomes, middle, settled, followed, rfl⟩ := completed_split ended
  rw [settled] at kept
  obtain ⟨store, wrote, rfl⟩ := follow_wroteStore.mp followed
  obtain ⟨markers, held, rfl⟩ := Store.write_processed.mp wrote
  exact ⟨outcomes, markers, rfl, settledAll_paths settled, kept ▸ held, rfl⟩

/-! ### What a pass makes of the markers -/

/-- Whether a pass has nothing to do: there is no commit, or the marker names the current one. -/
def Idle (pass : Pass) (store : Store) : Prop :=
  pass.history.head = .ok none ∨
    ∃ head, pass.history.head = .ok (some head) ∧
      store.commitOf? pass.repository = some head ∧ pass.force = false

/-- The files that are named between the marker and a commit, as far as a pass tracks them. -/
def Candidates (pass : Pass) (store : Store) (head : String) (paths : List String) : Prop :=
  ∃ base named, pass.baseFor (store.commitOf? pass.repository) = .ok base ∧
    pass.namedFor base head = .ok named ∧ paths = named.filter pass.config.tracks

/-- What a pass makes of the markers of a store, by how it ends. -/
structure KeepsMarkers (pass : Pass) (files : FileTree) (store : Store)
    (result : Except Failure Report) (after : World) : Prop where
  early : ∀ failure, result = .error failure → after.store.markers = store.markers
  idle : ∀ report, result = .ok report → report.advanced = false →
    after.store = store ∧ after.files = files
  idle_iff : ∀ report, result = .ok report → (report.advanced = false ↔ pass.Idle store)
  advanced : ∀ report, result = .ok report → report.advanced = true →
    ∃ head, pass.history.head = .ok (some head) ∧ report.head = some head ∧
      after.store.commitOf? pass.repository = some head ∧
      pass.Candidates store head (report.outcomes.map Outcome.path) ∧
      ∀ other, other ≠ pass.repository → after.store.marker? other = store.marker? other

section KeepsMarkers

variable {pass : Pass} {files : FileTree} {store : Store} {after : World}

theorem keepsMarkers_of_error {failure : Failure}
    (kept : after.store.markers = store.markers) :
    pass.KeepsMarkers files store (.error failure) after := by
  refine ⟨fun _ _ => kept, ?_, ?_, ?_⟩
  all_goals
    intro report ended
    cases ended

theorem keepsMarkers_of_idle {report : Report} (idle : pass.Idle store)
    (stayed : report.advanced = false) (sameStore : after.store = store)
    (sameFiles : after.files = files) :
    pass.KeepsMarkers files store (.ok report) after := by
  refine ⟨?_, ?_, ?_, ?_⟩
  · intro failure ended
    cases ended
  · intro reported ended _stayed
    exact ⟨sameStore, sameFiles⟩
  · intro reported ended
    cases ended
    exact ⟨fun _ => idle, fun _ => stayed⟩
  · intro reported ended advanced
    cases ended
    rw [stayed] at advanced
    cases advanced

theorem not_idle_of_due {head : String} (found : pass.history.head = .ok (some head))
    (due : pass.force = true ∨ store.commitOf? pass.repository ≠ some head) :
    ¬pass.Idle store := by
  rintro (missing | ⟨other, foundOther, marked, unforced⟩)
  · rw [found] at missing
    cases missing
  · rw [found] at foundOther
    cases foundOther
    rcases due with forced | differs
    · rw [unforced] at forced
      cases forced
    · exact differs marked

theorem commitOf?_insert_self {markers : NameMap Store.MarkerRow}
    {repository commit time : String}
    (held : store.markers = some (markers.insert repository ⟨commit, time⟩)) :
    store.commitOf? repository = some commit := by
  rw [Store.commitOf?, held, Option.bind_some, NameMap.find?_insert_self]
  rfl

theorem marker?_insert_of_ne {next : Store} {markers : NameMap Store.MarkerRow}
    {repository other : String} {row : Store.MarkerRow} (different : other ≠ repository)
    (held : store.markers = some markers)
    (inserted : next.markers = some (markers.insert repository row)) :
    next.marker? other = store.marker? other := by
  rw [Store.marker?, Store.marker?, held, inserted]
  change Except.ok ((markers.insert repository row).find? other) = Except.ok (markers.find? other)
  rw [NameMap.find?_insert_of_ne markers row different]

theorem keepsMarkers_of_completed {head : String} {base : Option String} {named : List String}
    {world : World} {result : Except Failure Report} (begun : world.store = store)
    (found : pass.history.head = .ok (some head))
    (due : pass.force = true ∨ store.commitOf? pass.repository ≠ some head)
    (started : pass.baseFor (store.commitOf? pass.repository) = .ok base)
    (told : pass.namedFor base head = .ok named)
    (ended : pass.completed head (store.commitOf? pass.repository) base
      (named.filter pass.config.tracks) world = (result, after)) :
    pass.KeepsMarkers files store result after := by
  cases result with
  | error failure => exact keepsMarkers_of_error (begun ▸ completed_error ended)
  | ok report =>
      obtain ⟨outcomes, markers, rfl, paths, held, inserted⟩ := completed_ok ended
      rw [begun] at held
      refine ⟨?_, ?_, ?_, ?_⟩
      · intro failure ended
        cases ended
      · intro reported ended stayed
        cases ended
        cases stayed
      · intro reported ended
        cases ended
        constructor
        · intro stayed
          cases stayed
        · intro idle
          exact absurd idle (not_idle_of_due found due)
      · intro reported ended _advanced
        cases ended
        refine ⟨head, found, rfl, commitOf?_insert_self inserted, ?_, ?_⟩
        · exact ⟨base, named, started, told, paths⟩
        · intro other different
          exact marker?_insert_of_ne different held inserted

end KeepsMarkers

theorem run_keepsMarkers (pass : Pass) (files : FileTree) (store : Store) :
    pass.KeepsMarkers files store (pass.run files store).1 (pass.run files store).2 := by
  obtain ⟨asked, carried⟩ := run_eq pass files store
  rw [carried]
  have planned := plan_planned pass store
  generalize pass.plan store = plan at planned
  cases planned with
  | empty missing => exact keepsMarkers_of_idle (.inl missing) rfl rfl rfl
  | current head found marked unforced =>
      exact keepsMarkers_of_idle (.inr ⟨head, found, marked, unforced⟩) rfl rfl rfl
  | due head base named found due started told =>
      exact keepsMarkers_of_completed rfl found due started told rfl
  | _ => exact keepsMarkers_of_error rfl

/-! ### Sequences of passes -/

/-- The store after passes one after another, each over files of its own. -/
def storeAfter : Store → List (Pass × FileTree) → Store
  | store, [] => store
  | store, (pass, files) :: rest => storeAfter (pass.run files store).2.store rest

/-- The head of the latest pass over a repository that came to its end and set its marker; there is
an earlier one to begin with. -/
def latestHead (repository : String) :
    Option String → Store → List (Pass × FileTree) → Option String
  | latest, _, [] => latest
  | latest, store, (pass, files) :: rest =>
      let reached :=
        match (pass.run files store).1 with
        | .ok report =>
            if report.advanced && pass.repository == repository then report.head else latest
        | .error _ => latest
      latestHead repository reached (pass.run files store).2.store rest

theorem commitOf?_of_marker? {before after : Store} {repository : String}
    (same : after.marker? repository = before.marker? repository) :
    after.commitOf? repository = before.commitOf? repository := by
  have read : ∀ store : Store, store.commitOf? repository =
      ((store.marker? repository).toOption.bind id).map (·.commit) := by
    intro store
    unfold Store.commitOf? Store.marker?
    cases store.markers <;> rfl
  rw [read, read, same]

theorem commitOf?_run (pass : Pass) (files : FileTree) (store : Store) (repository : String) :
    (pass.run files store).2.store.commitOf? repository =
      match (pass.run files store).1 with
      | .ok report =>
          if report.advanced && pass.repository == repository then report.head
          else store.commitOf? repository
      | .error _ => store.commitOf? repository := by
  have keeps := run_keepsMarkers pass files store
  revert keeps
  rcases pass.run files store with ⟨failure | report, after⟩
  · intro keeps
    dsimp only
    rw [Store.commitOf?, keeps.early failure rfl, Store.commitOf?]
  · intro keeps
    dsimp only
    cases advanced : report.advanced with
    | false =>
        rw [(keeps.idle report rfl advanced).1, Bool.false_and, if_neg Bool.false_ne_true]
    | true =>
        obtain ⟨head, _found, reached, marked, _candidates, others⟩ :=
          keeps.advanced report rfl advanced
        by_cases same : pass.repository = repository
        · rw [Bool.true_and, if_pos (beq_iff_eq.mpr same), reached, ← same, marked]
        · rw [Bool.true_and, if_neg (fun equal => same (beq_iff_eq.mp equal))]
          exact commitOf?_of_marker? (others repository (fun equal => same equal.symm))

/-- Over any passes, forced or not, over whatever histories and files, a marker changes only when a
pass comes to its end, and then it names the head of that pass. -/
theorem marker_safety :
    (∀ (pass : Pass) (files : FileTree) (store : Store),
      pass.KeepsMarkers files store (pass.run files store).1 (pass.run files store).2) ∧
    ∀ (repository : String) (store : Store) (passes : List (Pass × FileTree)),
      (storeAfter store passes).commitOf? repository =
        latestHead repository (store.commitOf? repository) store passes := by
  refine ⟨run_keepsMarkers, ?_⟩
  intro repository store passes
  induction passes generalizing store with
  | nil => rfl
  | cons entry rest ih =>
      obtain ⟨pass, files⟩ := entry
      rw [storeAfter, latestHead, ih, commitOf?_run]

end DocDrift.Pass
