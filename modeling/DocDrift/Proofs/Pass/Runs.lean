import DocDrift.Proofs.Pass.Coverage

/-!
Runs over a repository: its commits and their texts stay what they are, while the current commit
moves, commits get lost, and passes and clean-ups are made in any order. Every pass that comes to its
end covers the files of its head: those that it is told of because it settles them, the others because
they have the contents that they had at the marker.
-/

set_option autoImplicit false

namespace DocDrift.Pass

/-- What stays the same over a run. -/
structure Setting where
  root : String
  repository : String
  config : Config
  /-- The text of a file at a commit. -/
  textAt : String → String → Option String

namespace Setting

def tracked (setting : Setting) (commit path : String) : Option String :=
  if setting.config.tracks path then setting.textAt commit path else none

def target (setting : Setting) (path : String) : String :=
  Path.join setting.root path

/-- A pass over the repository. Its history may fail to answer any question; which files it names is
right, if it names them. -/
structure Makes (setting : Setting) (pass : Pass) : Prop where
  root : pass.root = setting.root
  repository : pass.repository = setting.repository
  config : pass.config = setting.config
  changed : ∀ head start paths, pass.history.head = .ok (some head) →
    pass.history.knows start = .ok true → pass.history.changed start head = .ok paths →
    ∀ path, path ∈ paths ↔ setting.textAt start path ≠ setting.textAt head path
  files : ∀ head paths, pass.history.head = .ok (some head) →
    pass.history.files = .ok paths → ∀ path, path ∈ paths ↔ setting.textAt head path ≠ none

/-- The tracked files of a commit are on disk, and no document takes the place of one. -/
structure OnDisk (setting : Setting) (files : FileTree) (commit : String) : Prop where
  formed : files.WellFormed
  contents : ∀ path text, setting.tracked commit path = some text →
    files.read (setting.target path) = .ok text.toUTF8
  aside : ∀ other path source, setting.tracked other path ≠ none →
    setting.tracked commit source ≠ none →
    files.goal (setting.target (setting.config.documentPath path)) ≠
      files.goal (setting.target source)

/-- A pass ended without a failure of the store, and no file of the head failed. -/
def Smooth (setting : Setting) (head : String) (result : Except Failure Report) : Prop :=
  result ≠ .error .store ∧ ∀ report, result = .ok report → ∀ outcome ∈ report.outcomes,
    setting.tracked head outcome.path ≠ none → outcome.isFailed = false

/-- The stores of runs that begin with an empty one. -/
inductive Reachable (setting : Setting) : Store → Prop
  | empty : Reachable setting .empty
  | passed (pass : Pass) (files : FileTree) {store : Store} (before : Reachable setting store)
      (makes : setting.Makes pass)
      (disk : ∀ head, pass.history.head = .ok (some head) → setting.OnDisk files head)
      (smooth : ∀ head, pass.history.head = .ok (some head) →
        setting.Smooth head (pass.run files store).1) :
      Reachable setting (pass.run files store).2.store
  | cleaned (head : String) (files : FileTree) (count : Nat) {store next : Store}
      (before : Reachable setting store)
      (current : store.commitOf? setting.repository = some head)
      (disk : setting.OnDisk files head)
      (cleaned : store.cleanup (fun path => !files.exists? path) = .ok (next, count)) :
      Reachable setting next

/-- The contents of the tracked files of a commit are covered. -/
def Covers (setting : Setting) (commit : String) (store : Store) : Prop :=
  ∀ path text, setting.tracked commit path = some text →
    Covered store (setting.target path) (Digest.ofBytes text.toUTF8)

/-- What holds of every store of a run: the commit that the marker names is covered. -/
structure Holds (setting : Setting) (store : Store) : Prop where
  verdicts : KeepsVerdicts store
  covers : ∀ commit, store.commitOf? setting.repository = some commit →
    setting.Covers commit store

end Setting

section Runs

variable {setting : Setting} {pass : Pass} {files : FileTree} {store : Store}

/-! ### Clean-ups -/

theorem holds_empty (setting : Setting) : setting.Holds .empty := by
  refine ⟨?_, ?_⟩
  · intro pair row kept
    cases kept
  · intro commit marked
    cases marked

/-- A clean-up forgets none of the files that are there. -/
theorem cleanup_keeps {next : Store} {isGone : String → Bool} {count : Nat}
    (cleaned : store.cleanup isGone = .ok (next, count)) :
    next.markers = store.markers ∧ next.analyses = store.analyses ∧
      ∀ path, isGone path = false → next.digestOf? path = store.digestOf? path := by
  obtain ⟨ledger, held, ⟨_none, rfl⟩ | ⟨symbols, _held, rfl⟩⟩ := Store.cleanup_cases cleaned
  · exact ⟨rfl, rfl, fun _ _ => rfl⟩
  · refine ⟨rfl, rfl, ?_⟩
    intro path stays
    rw [Store.digestOf?, Store.digestOf?, held, Option.bind_some, Option.bind_some,
      NameMap.find?_filter ledger (fun other => !isGone other), stays, if_pos Bool.not_false]

theorem holds_cleaned {head : String} {next : Store} {count : Nat} (holds : setting.Holds store)
    (current : store.commitOf? setting.repository = some head)
    (disk : setting.OnDisk files head)
    (cleaned : store.cleanup (fun path => !files.exists? path) = .ok (next, count)) :
    setting.Holds next := by
  obtain ⟨markers, analyses, digests⟩ := cleanup_keeps cleaned
  have sameAnalyses : ∀ pair, next.analysisOf? pair = store.analysisOf? pair := by
    intro pair
    rw [Store.analysisOf?, analyses, Store.analysisOf?]
  refine ⟨?_, ?_⟩
  · intro pair row kept
    rw [sameAnalyses] at kept
    exact holds.verdicts pair row kept
  · intro commit marked path text known
    rw [Store.commitOf?, markers, ← Store.commitOf?, current] at marked
    cases marked
    have present := FileTree.exists?_of_read (disk.contents path text known)
    obtain ⟨documented, listed, otherwise⟩ := holds.covers head current path text known
    refine ⟨documented, ?_, ?_⟩
    · rw [digests _ (by rw [present, Bool.not_true]), listed]
    · intro different
      obtain ⟨old, verdict, kept, advice⟩ := otherwise different
      exact ⟨old, verdict, (sameAnalyses _).trans kept, advice⟩

/-! ### Recorded histories -/

/-- The recorded commits have the texts of the setting; other commits may be lost by now. -/
structure Setting.Records (setting : Setting) (recorded : History.Recorded) : Prop where
  unset : recorded.changes = []
  texts : ∀ commit snapshot, recorded.commits.find? commit = some snapshot →
    ∀ path, setting.textAt commit path = snapshot.find? path
  current : ∀ head, recorded.current = some head → recorded.commits.find? head ≠ none

theorem answer_ok {α : Type} {recorded : History.Recorded} {kind : History.Kind}
    {value told : α} (answered : recorded.answer kind value = .ok told) : value = told := by
  unfold History.Recorded.answer at answered
  split at answered
  · cases answered
  · exact Except.ok.inj answered

theorem Setting.Records.snapshot {recorded : History.Recorded} (records : setting.Records recorded)
    {commit : String} (there : recorded.commits.find? commit ≠ none) (path : String) :
    setting.textAt commit path = (recorded.snapshot commit).find? path := by
  obtain ⟨snapshot, found⟩ := Option.ne_none_iff_exists'.mp there
  rw [records.texts commit snapshot found, History.Recorded.snapshot, found, Option.getD_some]

/-- A recorded history names the right files, whatever questions it fails to answer. -/
theorem makes_of_records {recorded : History.Recorded} (records : setting.Records recorded)
    (told : pass.history = recorded.toHistory) (root : pass.root = setting.root)
    (repository : pass.repository = setting.repository) (config : pass.config = setting.config) :
    setting.Makes pass := by
  refine ⟨root, repository, config, ?_, ?_⟩
  · intro head start paths found known named path
    rw [told] at found known named
    have startThere : recorded.commits.find? start ≠ none :=
      Option.isSome_iff_ne_none.mp (answer_ok known)
    have headThere := records.current head (answer_ok found)
    rw [← answer_ok named, records.unset, records.snapshot startThere, records.snapshot headThere]
    exact History.Recorded.mem_differing _ _ path
  · intro head paths found named path
    rw [told] at found named
    have headThere := records.current head (answer_ok found)
    rw [← answer_ok named, answer_ok found, records.snapshot headThere, Ne,
      NameMap.find?_eq_none, not_not]
    rfl

/-! ### The files that a pass is told of -/

theorem baseFor_ok {previous base : Option String}
    (started : pass.baseFor previous = .ok base) :
    base = none ∨ ∃ commit, base = some commit ∧ previous = some commit ∧
      pass.history.knows commit = .ok true := by
  unfold baseFor at started
  cases previous with
  | none =>
      cases started
      exact .inl rfl
  | some commit =>
      dsimp only at started
      split at started
      · cases started
        exact .inl rfl
      · cases known : pass.history.knows commit with
        | error failure =>
            rw [known] at started
            cases started
        | ok answer =>
            rw [known] at started
            cases answer with
            | false =>
                cases started
                exact .inl rfl
            | true =>
                cases started
                exact .inr ⟨commit, rfl, rfl, known⟩

theorem namedFor_some {commit head : String} {named : List String}
    (told : pass.namedFor (some commit) head = .ok named) :
    pass.history.changed commit head = .ok named := by
  unfold namedFor at told
  dsimp only at told
  cases between : pass.history.between commit head with
  | error failure =>
      rw [between] at told
      cases told
  | ok commits =>
      rw [between] at told
      exact told

theorem named_has_text {head : String} {base : Option String} {named : List String}
    (makes : setting.Makes pass) (found : pass.history.head = .ok (some head))
    (started : pass.baseFor (store.commitOf? setting.repository) = .ok base)
    (told : pass.namedFor base head = .ok named) {path : String} (mem : path ∈ named) :
    ∃ commit, setting.textAt commit path ≠ none := by
  rcases baseFor_ok started with rfl | ⟨commit, rfl, _marked, known⟩
  · exact ⟨head, (makes.files head named found told path).mp mem⟩
  · have differs := (makes.changed head commit named found known (namedFor_some told) path).mp mem
    by_cases absent : setting.textAt commit path = none
    · refine ⟨head, fun missing => differs ?_⟩
      rw [absent, missing]
    · exact ⟨commit, absent⟩

/-- A file of the head that is not named to a pass has the text that it had at the marker. -/
theorem text_of_not_named {head : String} {base : Option String} {named : List String}
    (makes : setting.Makes pass) (found : pass.history.head = .ok (some head))
    (started : pass.baseFor (store.commitOf? setting.repository) = .ok base)
    (told : pass.namedFor base head = .ok named) {path text : String}
    (present : setting.textAt head path = some text) (unnamed : path ∉ named) :
    ∃ commit, store.commitOf? setting.repository = some commit ∧
      setting.textAt commit path = some text := by
  rcases baseFor_ok started with rfl | ⟨commit, rfl, marked, known⟩
  · refine absurd ((makes.files head named found told path).mpr ?_) unnamed
    rw [present]
    exact Option.some_ne_none text
  · refine ⟨commit, marked, ?_⟩
    have same := (makes.changed head commit named found known (namedFor_some told) path).not.mp unnamed
    rw [not_not.mp same, present]

/-! ### What a pass covers -/

theorem tracked_some {commit path text : String}
    (known : setting.tracked commit path = some text) :
    setting.config.tracks path = true ∧ setting.textAt commit path = some text := by
  unfold Setting.tracked at known
  split at known
  case isTrue tracks => exact ⟨tracks, known⟩
  case isFalse => cases known

theorem Setting.Makes.target (makes : setting.Makes pass) (path : String) :
    pass.target path = setting.target path := by
  rw [Pass.target, Setting.target, makes.root]

theorem Setting.Makes.documentTarget (makes : setting.Makes pass) (path : String) :
    pass.documentTarget path = setting.target (setting.config.documentPath path) := by
  rw [Pass.documentTarget, Setting.target, makes.root, makes.config]

theorem stands_start {head : String} {world : World} (makes : setting.Makes pass)
    (disk : setting.OnDisk files head) (holds : setting.Holds world.store)
    (begun : world.files = files) : pass.Stands files (setting.tracked head) world := by
  subst begun
  refine ⟨disk.formed, .refl _, ?_, holds.verdicts⟩
  intro path text known
  rw [makes.target]
  exact disk.contents path text known

theorem aside_named {head : String} {base : Option String} {named : List String}
    (makes : setting.Makes pass) (disk : setting.OnDisk files head)
    (found : pass.history.head = .ok (some head))
    (started : pass.baseFor (store.commitOf? setting.repository) = .ok base)
    (told : pass.namedFor base head = .ok named) :
    ∀ path ∈ named.filter pass.config.tracks, pass.Aside files (setting.tracked head) path := by
  intro path mem other text known
  obtain ⟨named, tracks⟩ := List.mem_filter.mp mem
  obtain ⟨commit, present⟩ := named_has_text makes found started told named
  rw [makes.documentTarget, makes.target]
  refine disk.aside commit path other ?_ ?_
  · rw [Setting.tracked, ← makes.config, if_pos tracks]
    exact present
  · rw [known]
    exact Option.some_ne_none text

/-- Settling the files that a pass is told of covers its head. -/
theorem settledAll_covers_head {head : String} {base : Option String} {named : List String}
    {world after : World} {outcomes : List Outcome} (makes : setting.Makes pass)
    (disk : setting.OnDisk files head) (found : pass.history.head = .ok (some head))
    (holds : setting.Holds world.store) (begun : world.files = files)
    (started : pass.baseFor (world.store.commitOf? setting.repository) = .ok base)
    (told : pass.namedFor base head = .ok named)
    (settled : pass.settledAll base (named.filter pass.config.tracks) world =
      (.ok outcomes, after))
    (succeeded : ∀ outcome ∈ outcomes,
      setting.tracked head outcome.path ≠ none → outcome.isFailed = false) :
    pass.Stands files (setting.tracked head) after ∧ setting.Covers head after.store := by
  have stands := stands_start makes disk holds begun
  have aside := aside_named makes disk found started told
  refine ⟨settledAll_stands aside stands settled, ?_⟩
  intro path text known
  obtain ⟨tracks, present⟩ := tracked_some known
  rw [← makes.target]
  by_cases mem : path ∈ named
  · refine settledAll_covers aside stands settled succeeded ?_ known
    rw [List.mem_filter, makes.config]
    exact ⟨mem, tracks⟩
  · obtain ⟨commit, marked, same⟩ := text_of_not_named makes found started told present mem
    refine settledAll_keeps_covered aside stands settled known ?_
    rw [makes.target]
    refine holds.covers commit marked path text ?_
    rw [Setting.tracked, if_pos tracks, same]

/-- What a pass leaves behind: what holds of every store, and if it came to its end, its head is
covered and still on disk. -/
structure Leaves (setting : Setting) (pass : Pass) (result : Except Failure Report)
    (after : World) : Prop where
  holds : setting.Holds after.store
  covers : ∀ report head, result = .ok report → pass.history.head = .ok (some head) →
    setting.Covers head after.store ∧ ∀ path text, setting.tracked head path = some text →
      after.files.read (setting.target path) = .ok text.toUTF8

theorem leaves_of_error {failure : Failure} {after : World} (holds : setting.Holds after.store) :
    Leaves setting pass (.error failure) after := by
  refine ⟨holds, ?_⟩
  intro report head ended
  cases ended

/-- A pass with files to settle that comes to its end covers its head. -/
theorem completed_leaves {head : String} {base : Option String} {named : List String}
    {world after : World} {result : Except Failure Report} (makes : setting.Makes pass)
    (disk : setting.OnDisk files head) (found : pass.history.head = .ok (some head))
    (holds : setting.Holds world.store) (begun : world.files = files)
    (started : pass.baseFor (world.store.commitOf? setting.repository) = .ok base)
    (told : pass.namedFor base head = .ok named)
    (ended : pass.completed head (world.store.commitOf? setting.repository) base
      (named.filter pass.config.tracks) world = (result, after))
    (smooth : setting.Smooth head result) : Leaves setting pass result after := by
  unfold completed at ended
  rcases settled : pass.settledAll base (named.filter pass.config.tracks) world with
    ⟨failure | outcomes, next⟩
  · rw [settled] at ended
    cases ended
    rw [settledAll_error settled] at smooth
    exact absurd rfl smooth.1
  · rw [settled] at ended
    dsimp only at ended
    cases followed : next.follow pass.now (.wroteStore (.processed pass.repository head)) with
    | error failure =>
        rw [followed] at ended
        cases ended
        rw [follow_wroteStore_error followed] at smooth
        exact absurd rfl smooth.1
    | ok last =>
        rw [followed] at ended
        cases ended
        obtain ⟨stands, covers⟩ := settledAll_covers_head makes disk found holds begun started told
          settled (smooth.2 _ rfl)
        obtain ⟨store, wrote, rfl⟩ := follow_wroteStore.mp followed
        have covered : setting.Covers head store := by
          intro path text known
          exact covered_write wrote (fun _ => rfl) (fun _ _ => rfl) (covers path text known)
        refine ⟨⟨(stands.write followed).verdicts, ?_⟩, ?_⟩
        · intro commit marked
          obtain ⟨markers, _held, rfl⟩ := Store.write_processed.mp wrote
          rw [← makes.repository, commitOf?_insert_self rfl] at marked
          cases marked
          exact covered
        · intro report commit reported foundAgain
          rw [found] at foundAgain
          cases foundAgain
          refine ⟨covered, ?_⟩
          intro path text known
          rw [← makes.target]
          exact stands.contents path text known

theorem leaves_of_idle {report : Report} {after : World} (makes : setting.Makes pass)
    (holds : setting.Holds store) (idle : pass.Idle store)
    (disk : ∀ head, pass.history.head = .ok (some head) → setting.OnDisk files head)
    (sameStore : after.store = store) (sameFiles : after.files = files) :
    Leaves setting pass (.ok report) after := by
  subst sameStore sameFiles
  refine ⟨holds, ?_⟩
  intro _reported head _ended found
  refine ⟨?_, (disk head found).contents⟩
  rcases idle with missing | ⟨other, foundOther, marked, _unforced⟩
  · rw [missing] at found
    cases found
  · rw [found] at foundOther
    cases foundOther
    rw [makes.repository] at marked
    exact holds.covers head marked

theorem run_leaves (makes : setting.Makes pass) (holds : setting.Holds store)
    (disk : ∀ head, pass.history.head = .ok (some head) → setting.OnDisk files head)
    (smooth : ∀ head, pass.history.head = .ok (some head) →
      setting.Smooth head (pass.run files store).1) :
    Leaves setting pass (pass.run files store).1 (pass.run files store).2 := by
  obtain ⟨asked, carried⟩ := run_eq pass files store
  rw [carried] at smooth ⊢
  have planned := plan_planned pass store
  generalize pass.plan store = plan at planned smooth
  cases planned with
  | empty missing => exact leaves_of_idle makes holds (.inl missing) disk rfl rfl
  | current head found marked unforced =>
      exact leaves_of_idle makes holds (.inr ⟨head, found, marked, unforced⟩) disk rfl rfl
  | due head base named found due started told =>
      rw [makes.repository] at started smooth ⊢
      exact completed_leaves makes (disk head found) found holds rfl started told rfl
        (smooth head found)
  | _ => exact leaves_of_error holds

theorem holds_reachable (reached : setting.Reachable store) : setting.Holds store := by
  induction reached with
  | empty => exact holds_empty setting
  | passed pass files before makes disk smooth holds =>
      exact (run_leaves makes holds disk smooth).holds
  | cleaned head files count before current disk cleaned holds =>
      exact holds_cleaned holds current disk cleaned

/-- No change is missed: over any run that begins with an empty store, every pass that comes to its
end leaves every tracked file of its head covered, with the contents that it has then. -/
theorem no_change_missed (setting : Setting) (pass : Pass) (files : FileTree) (store : Store)
    (reached : setting.Reachable store) (makes : setting.Makes pass)
    (disk : ∀ head, pass.history.head = .ok (some head) → setting.OnDisk files head)
    (smooth : ∀ head, pass.history.head = .ok (some head) →
      setting.Smooth head (pass.run files store).1)
    (report : Report) (ended : (pass.run files store).1 = .ok report) (head : String)
    (found : pass.history.head = .ok (some head)) (path text : String)
    (present : setting.textAt head path = some text) (tracks : setting.config.tracks path = true) :
    ∃ bytes, (pass.run files store).2.files.read (setting.target path) = .ok bytes ∧
      Covered (pass.run files store).2.store (setting.target path) (Digest.ofBytes bytes) := by
  have known : setting.tracked head path = some text := by
    rw [Setting.tracked, if_pos tracks, present]
  have leaves := run_leaves makes (holds_reachable reached) disk smooth
  obtain ⟨covers, contents⟩ := leaves.covers report head ended found
  exact ⟨text.toUTF8, contents path text known, covers path text known⟩

end Runs

/-! ### A run of two passes -/

/-- The history of one file, of which the second commit changes the layout only. -/
def layoutHistory (head : String) : History.Recorded :=
  { current := some head
    commits := [
      ("first", [("a.php", "<?php\nfunction f() {}\n")]),
      ("second", [("a.php", "<?php\nfunction f()  {}\n")])]
    changes := []
    faults := [] }

def layoutSetting : Setting :=
  ⟨"/site", "site", .standard, fun commit path =>
    ((layoutHistory commit).snapshot commit).find? path⟩

def layoutFiles (text : String) : FileTree :=
  .withFile "site" "a.php" text.toUTF8

def layoutPass (head : String) : Pass :=
  ⟨"/site", "site", (layoutHistory head).toHistory, .outline, .standard, false, "now"⟩

theorem layoutPass_makes {head : String}
    (there : (layoutHistory head).commits.find? head ≠ none) :
    layoutSetting.Makes (layoutPass head) := by
  have records : layoutSetting.Records (layoutHistory head) := by
    refine ⟨rfl, ?_, ?_⟩
    · intro commit snapshot found path
      change NameMap.find? (((layoutHistory head).commits.find? commit).getD []) path = _
      rw [found, Option.getD_some]
    · intro current same
      cases same
      exact there
  exact makes_of_records records rfl rfl rfl rfl

theorem layoutSetting_tracked {commit path text : String}
    (known : layoutSetting.tracked commit path = some text) :
    path = "a.php" ∧ layoutSetting.textAt commit "a.php" = some text := by
  obtain ⟨_tracks, present⟩ := tracked_some known
  have same : path = "a.php" := by
    by_contra other
    have nowhere : ∀ value : String, NameMap.find? [("a.php", value)] path = none := by
      intro value
      rw [NameMap.find?_cons, if_neg (Ne.symm other)]
      rfl
    simp only [layoutSetting, layoutHistory, History.Recorded.snapshot, NameMap.find?_cons] at present
    split at present
    · rw [Option.getD_some, nowhere] at present
      cases present
    · split at present
      · rw [Option.getD_some, nowhere] at present
        cases present
      · cases present
  rw [same] at present
  exact ⟨same, present⟩

theorem layoutFiles_onDisk {commit text : String}
    (present : layoutSetting.textAt commit "a.php" = some text) :
    layoutSetting.OnDisk (layoutFiles text) commit := by
  have formed : (layoutFiles text).WellFormed :=
    FileTree.wellFormed_withFile "site" "a.php" text.toUTF8
  have contents : (layoutFiles text).read (layoutSetting.target "a.php") = .ok text.toUTF8 := by
    unfold layoutFiles
    generalize text.toUTF8 = bytes
    rfl
  refine ⟨formed, ?_, ?_⟩
  · intro path other known
    obtain ⟨rfl, same⟩ := layoutSetting_tracked known
    rw [present] at same
    cases same
    exact contents
  · intro other path source known there
    obtain ⟨text, known⟩ := Option.ne_none_iff_exists'.mp known
    obtain ⟨text', there⟩ := Option.ne_none_iff_exists'.mp there
    rw [(layoutSetting_tracked known).1, (layoutSetting_tracked there).1]
    change (FileTree.withHere "site").goal _ ≠ (FileTree.withHere "site").goal _
    decide +kernel

theorem smooth_of_ok {setting : Setting} {head : String} {result : Except Failure Report}
    {report : Report} (ended : result = .ok report)
    (succeeded : ∀ outcome ∈ report.outcomes, outcome.isFailed = false) :
    setting.Smooth head result := by
  subst ended
  refine ⟨fun failed => ?_, ?_⟩
  · cases failed
  · intro other same outcome mem _tracked
    cases same
    exact succeeded outcome mem

theorem layoutSetting_head {head text : String}
    (present : layoutSetting.textAt head "a.php" = some text) :
    ∀ other, (layoutPass head).history.head = .ok (some other) →
      layoutSetting.OnDisk (layoutFiles text) other := by
  intro other found
  cases found
  exact layoutFiles_onDisk present

theorem layoutPass_first :
    ((layoutPass "first").run (layoutFiles "<?php\nfunction f() {}\n") .empty).1 =
      .ok ⟨some "first", none, [.processed "a.php" none "docs/api/a.md"], true⟩ :=
  ok_of_toOption (by decide +kernel)

def layoutStore : Store :=
  ((layoutPass "first").run (layoutFiles "<?php\nfunction f() {}\n") .empty).2.store

theorem layoutPass_second :
    ((layoutPass "second").run (layoutFiles "<?php\nfunction f()  {}\n") layoutStore).1 =
      .ok ⟨some "second", some "first",
        [.skipped "a.php" "score 1: formatting-only change never needs new docs"], true⟩ :=
  ok_of_toOption (by decide +kernel)

theorem layoutStore_reachable : layoutSetting.Reachable layoutStore := by
  refine .passed (layoutPass "first") (layoutFiles "<?php\nfunction f() {}\n") .empty
    (layoutPass_makes (by decide)) (layoutSetting_head rfl) ?_
  intro head _found
  exact smooth_of_ok layoutPass_first (by decide)

/-- The second pass finds the file changed, and leaves it covered by the verdict that it keeps. -/
theorem no_change_missed_of_layout :
    ∃ bytes, ((layoutPass "second").run (layoutFiles "<?php\nfunction f()  {}\n")
        layoutStore).2.files.read "/site/a.php" = .ok bytes ∧
      Covered ((layoutPass "second").run (layoutFiles "<?php\nfunction f()  {}\n")
        layoutStore).2.store "/site/a.php" (Digest.ofBytes bytes) :=
  no_change_missed layoutSetting (layoutPass "second") _ layoutStore layoutStore_reachable
    (layoutPass_makes (by decide)) (layoutSetting_head rfl)
    (fun _ _ => smooth_of_ok layoutPass_second (by decide)) _ layoutPass_second "second" rfl
    "a.php" _ rfl (by decide)

end DocDrift.Pass
