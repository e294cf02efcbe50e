import DocDrift.Proofs.Pass.Plan
import DocDrift.Proofs.Store.Records

/-!
What the changes of a pass may be, and what they keep. Settling a file changes its document, its
rows and its verdicts, and nothing of other files. What every such change keeps is kept when files
are settled one after another.
-/

set_option autoImplicit false

namespace DocDrift.Pass

/-! ### Following a change -/

section Follow

variable {now : String} {world next : World} {path text : String} {write : Store.Write}

theorem follow_madeParent :
    world.follow now (.madeParent path) = .ok next ↔
      ∃ files, world.files.makeParent path = .ok files ∧
        { world with files, effects := world.effects ++ [.madeParent path] } = next := by
  rw [World.follow]
  cases world.files.makeParent path with
  | error fault => simp only [reduceCtorEq, false_and, exists_false]
  | ok files => simp only [Except.ok.injEq, exists_eq_left']

theorem follow_wroteFile :
    world.follow now (.wroteFile path text) = .ok next ↔
      ∃ files, world.files.write path text.toUTF8 = .ok files ∧
        { world with files, effects := world.effects ++ [.wroteFile path text] } = next := by
  rw [World.follow]
  cases world.files.write path text.toUTF8 with
  | error fault => simp only [reduceCtorEq, false_and, exists_false]
  | ok files => simp only [Except.ok.injEq, exists_eq_left']

theorem follow_wroteStore :
    world.follow now (.wroteStore write) = .ok next ↔
      ∃ store, world.store.write now write = .ok store ∧
        { world with store, effects := world.effects ++ [.wroteStore write] } = next := by
  rw [World.follow]
  cases world.store.write now write with
  | error failure => simp only [bind, Except.bind, reduceCtorEq, false_and, exists_false]
  | ok store =>
      simp only [bind, Except.bind, pure, Except.pure, Except.ok.injEq, exists_eq_left']

theorem follow_wroteStore_error {failure : Failure}
    (failed : world.follow now (.wroteStore write) = .error failure) : failure = .store := by
  rw [World.follow] at failed
  cases wrote : world.store.write now write with
  | ok store =>
      rw [wrote] at failed
      cases failed
  | error other =>
      rw [wrote] at failed
      cases failed
      exact Store.write_error wrote

theorem follow_error {effect : Effect} {failure : Failure}
    (failed : world.follow now effect = .error failure) :
    failure = .store ∨ ∃ fault, failure = .file fault := by
  cases effect with
  | madeParent path =>
      rw [World.follow] at failed
      cases made : world.files.makeParent path with
      | ok files =>
          rw [made] at failed
          cases failed
      | error fault =>
          rw [made] at failed
          cases failed
          exact .inr ⟨fault, rfl⟩
  | wroteFile path text =>
      rw [World.follow] at failed
      cases wrote : world.files.write path text.toUTF8 with
      | ok files =>
          rw [wrote] at failed
          cases failed
      | error fault =>
          rw [wrote] at failed
          cases failed
          exact .inr ⟨fault, rfl⟩
  | wroteStore write => exact .inl (follow_wroteStore_error failed)

end Follow

/-! ### Carrying out changes -/

theorem carry_follow {α : Type} {now : String} {result : Except Failure α} {effect : Effect}
    {rest : List Effect} {world next : World} (followed : world.follow now effect = .ok next) :
    carry now result (effect :: rest) world = carry now result rest next := by
  rw [carry, followed]

theorem carry_of_error {α : Type} {now : String} {effect : Effect} {failure : Failure}
    {world : World} (failed : world.follow now effect = .error failure) (result : Except Failure α)
    (rest : List Effect) : carry now result (effect :: rest) world = (.error failure, world) := by
  rw [carry, failed]

/-- The first of some changes that were carried out, and the others. -/
theorem carry_cons_ok {α : Type} {now : String} {result : Except Failure α} {effect : Effect}
    {rest : List Effect} {world reached : World} {value : α}
    (part : carry now result (effect :: rest) world = (.ok value, reached)) :
    ∃ next, world.follow now effect = .ok next ∧
      carry now result rest next = (.ok value, reached) := by
  rw [carry] at part
  cases followed : world.follow now effect with
  | error failure =>
      rw [followed] at part
      cases part
  | ok next =>
      rw [followed] at part
      exact ⟨next, rfl, part⟩

theorem carry_ok {α : Type} {now : String} {result : Except Failure α} {effects : List Effect}
    {world after : World} {value : α}
    (carried : carry now result effects world = (.ok value, after)) : result = .ok value := by
  induction effects generalizing world with
  | nil => exact congrArg Prod.fst carried
  | cons effect rest ih =>
      obtain ⟨next, _followed, carriedRest⟩ := carry_cons_ok carried
      exact ih carriedRest

theorem carry_nil_ok {α : Type} {now : String} {result : Except Failure α} {world reached : World}
    {value : α} (part : carry now result [] world = (.ok value, reached)) : reached = world :=
  (congrArg Prod.snd part).symm

/-- A change of the store that comes first was made, unless the store failed. -/
theorem carry_wrote {α : Type} {now : String} {result ended : Except Failure α}
    {write : Store.Write} {rest : List Effect} {world last : World}
    (carried : carry now result (.wroteStore write :: rest) world = (ended, last))
    (sound : ended ≠ .error .store) :
    ∃ store, world.store.write now write = .ok store ∧
      carry now result rest { world with store, effects := world.effects ++ [.wroteStore write] } =
        (ended, last) := by
  cases followed : world.follow now (.wroteStore write) with
  | error failure =>
      rw [carry_of_error followed, follow_wroteStore_error followed] at carried
      cases carried
      exact absurd rfl sound
  | ok next =>
      rw [carry_follow followed] at carried
      obtain ⟨store, wrote, rfl⟩ := follow_wroteStore.mp followed
      exact ⟨store, wrote, carried⟩

/-- If all changes are carried out, each of them was followed by those behind it. -/
theorem carry_at {α : Type} {now : String} {result : Except Failure α} (before : List Effect)
    {rest : List Effect} {effect : Effect} {world after : World} {value : α}
    (carried : carry now result (before ++ effect :: rest) world = (.ok value, after)) :
    ∃ reached next : World, reached.follow now effect = .ok next ∧
      carry now result rest next = (.ok value, after) := by
  induction before generalizing world with
  | nil =>
      rw [List.nil_append, carry] at carried
      cases followed : world.follow now effect with
      | error failure =>
          rw [followed] at carried
          cases carried
      | ok next =>
          rw [followed] at carried
          exact ⟨world, next, followed, carried⟩
  | cons first more ih =>
      rw [List.cons_append, carry] at carried
      cases followed : world.follow now first with
      | error failure =>
          rw [followed] at carried
          cases carried
      | ok next =>
          rw [followed] at carried
          exact ih carried

/-! ### The changes that documenting a file makes -/

/-- What documenting a file may change, given the files that it was found among. -/
inductive Documents (pass : Pass) (path : String) (files : FileTree) : Effect → Prop
  | madeParent : Documents pass path files (.madeParent (pass.documentTarget path))
  | wroteFile (text : String) :
      Documents pass path files (.wroteFile (pass.documentTarget path) text)
  | documented (bytes : ByteArray) (document : Option String)
      (read : files.read (pass.target path) = .ok bytes) :
      Documents pass path files
        (.wroteStore (.documented (pass.target path) (Digest.ofBytes bytes) document))
  | listed (names : List String) (digest : String) :
      Documents pass path files (.wroteStore (.listed (pass.target path) names digest))
  | spent (usage : Store.Usage) : Documents pass path files (.wroteStore (.spent usage))

section Documents

variable {pass : Pass} {path : String} {files : FileTree} {bytes : ByteArray}

theorem documentCourse_documents (read : files.read (pass.target path) = .ok bytes)
    (score : Option Nat) :
    ∀ effect ∈ (pass.documentCourse path bytes score).effects, pass.Documents path files effect := by
  unfold documentCourse
  cases pass.generator path (Text.decodeLossy bytes) with
  | error failure =>
      intro effect mem
      cases mem
  | ok generated =>
      intro effect mem
      simp only [documenting, List.mem_cons, List.mem_append] at mem
      rcases mem with rfl | rfl | rfl | mem | mem
      · exact .madeParent
      · exact .wroteFile _
      · exact .documented bytes _ read
      · obtain ⟨names, rfl⟩ := listed_of_mem_listing mem
        exact .listed _ _
      · obtain ⟨usage, rfl⟩ := spent_of_mem_spending mem
        exact .spent _

theorem verdictCourse_documents (read : files.read (pass.target path) = .ok bytes)
    (verdict : Store.Verdict) :
    ∀ effect ∈ (pass.verdictCourse path bytes verdict).effects,
      pass.Documents path files effect := by
  unfold verdictCourse
  split
  · exact documentCourse_documents read _
  · intro effect mem
    cases mem

end Documents

/-- What an evaluation changes, given what it found: it may document the file, and before that it
may keep a verdict where none was kept. -/
inductive Changes (pass : Pass) (path : String) (files : FileTree) (store : Store) :
    List Effect → Prop
  | documents (effects : List Effect)
      (each : ∀ effect ∈ effects, pass.Documents path files effect) :
      Changes pass path files store effects
  | scored (old new : String) (verdict : Store.Verdict) (rest : List Effect)
      (fresh : store.verdict? ⟨pass.target path, old, new⟩ = .ok none)
      (each : ∀ effect ∈ rest, pass.Documents path files effect) :
      Changes pass path files store
        (.wroteStore (.scored ⟨pass.target path, old, new⟩ verdict) :: rest)

theorem no_changes {pass : Pass} {path : String} {files : FileTree} {store : Store}
    {result : Except Failure Outcome} : pass.Changes path files store (Course.still result).effects :=
  .documents [] (fun _ mem => nomatch mem)

theorem course_changes (pass : Pass) (path : String) (base : Option String) (files : FileTree)
    (store : Store) :
    pass.Changes path files store (pass.course path base files store).effects := by
  have evaluated := course_evaluation pass path base files store
  generalize pass.course path base files store = course at evaluated ⊢
  cases evaluated with
  | baseless bytes read due baseless => exact .documents _ (documentCourse_documents read none)
  | added bytes commit read due known told absent =>
      rw [Course.afterQuestion_effects]
      exact .documents _ (documentCourse_documents read none)
  | changed bytes commit old read due known told present =>
      rw [Course.afterQuestion_effects]
      have judged := judgeCourse_judgement pass path bytes old store
      generalize pass.judgeCourse path bytes old store = course at judged ⊢
      cases judged with
      | undecided failure failed => exact no_changes
      | kept verdict known => exact .documents _ (verdictCourse_documents read verdict)
      | fresh documented unknown listed =>
          rw [Course.afterEffect_effects]
          exact .scored _ _ _ _ unknown (verdictCourse_documents read _)
  | untold commit failure known told failed =>
      rw [Course.afterQuestion_effects]
      exact no_changes
  | _ => exact no_changes

/-! ### What is kept -/

/-- What each of some changes keeps is kept by all of them together. -/
theorem carry_keeps {α : Type} (kept : World → Prop) {now : String} (result : Except Failure α)
    {effects : List Effect}
    (keeps : ∀ effect ∈ effects, ∀ before after : World,
      before.follow now effect = .ok after → kept before → kept after)
    {world : World} (begins : kept world) : kept (carry now result effects world).2 := by
  induction effects generalizing world with
  | nil => exact begins
  | cons effect rest ih =>
      rw [carry]
      cases followed : world.follow now effect with
      | error failure => exact begins
      | ok next =>
          refine ih (fun other mem => keeps other (List.mem_cons_of_mem _ mem)) ?_
          exact keeps effect List.mem_cons_self world next followed begins

/-- The changes after a file came into the ledger touch its symbols and the usage only. -/
theorem carry_noting {α : Type} {now target digest : String} {summary : Option Summary}
    {expense : Option Expense} {result reached : Except Failure α} {effects : List Effect}
    {world after : World}
    (each : ∀ effect ∈ effects, effect ∈ listing target digest summary ++ spending target expense)
    (carried : carry now result effects world = (reached, after)) :
    after.files = world.files ∧
      (∀ path, after.store.entryOf? path = world.store.entryOf? path) ∧
      (∀ pair, after.store.adviceOf? pair = world.store.adviceOf? pair) ∧
      ∀ path, path ≠ target → after.store.symbolsAt path = world.store.symbolsAt path := by
  have ended : after = (carry now result effects world).2 := by rw [carried]
  rw [ended]
  refine carry_keeps (fun later => later.files = world.files ∧
    (∀ path, later.store.entryOf? path = world.store.entryOf? path) ∧
    (∀ pair, later.store.adviceOf? pair = world.store.adviceOf? pair) ∧
    ∀ path, path ≠ target → later.store.symbolsAt path = world.store.symbolsAt path) result ?_
    ⟨rfl, fun _ => rfl, fun _ => rfl, fun _ _ => rfl⟩
  rintro effect mem before next followed ⟨files, entries, advice, symbols⟩
  have written : ∃ write : Store.Write, effect = .wroteStore write ∧
      (∀ path entry, write.entryAfter path entry = entry) ∧
      (∀ pair kept, write.adviceAfter pair kept = kept) ∧
      ∀ path rows, path ≠ target → write.symbolsAfter path rows = rows := by
    rcases List.mem_append.mp (each effect mem) with listed | spent
    · obtain ⟨names, same⟩ := listed_of_mem_listing listed
      exact ⟨_, same, fun _ _ => rfl, fun _ _ => rfl, fun _ _ different => if_neg different.symm⟩
    · obtain ⟨usage, same⟩ := spent_of_mem_spending spent
      exact ⟨_, same, fun _ _ => rfl, fun _ _ => rfl, fun _ _ _ => rfl⟩
  obtain ⟨write, rfl, sameEntry, sameAdvice, sameSymbols⟩ := written
  obtain ⟨store, wrote, rfl⟩ := follow_wroteStore.mp followed
  refine ⟨files, ?_, ?_, ?_⟩
  · intro path
    exact (Store.entryOf?_write wrote path).trans ((sameEntry _ _).trans (entries path))
  · intro pair
    exact (Store.adviceOf?_write wrote pair).trans ((sameAdvice _ _).trans (advice pair))
  · intro path different
    exact (Store.symbolsAt_write wrote path).trans
      ((sameSymbols _ _ different).trans (symbols path different))

/-- A property is kept when a file is documented, and when a verdict is kept where none was. -/
structure Kept (pass : Pass) (path : String) (kept : World → Prop) : Prop where
  asks : ∀ world asked, kept world → kept { world with asked }
  documents : ∀ begun, kept begun → ∀ effect, pass.Documents path begun.files effect →
    ∀ before after : World, before.follow pass.now effect = .ok after → kept before → kept after
  scores : ∀ before after : World, ∀ old new verdict,
    before.store.verdict? ⟨pass.target path, old, new⟩ = .ok none →
    before.follow pass.now (.wroteStore (.scored ⟨pass.target path, old, new⟩ verdict)) =
      .ok after → kept before → kept after

section Kept

variable {pass : Pass} {kept : World → Prop}

theorem Changes.take {path : String} {files : FileTree} {store : Store} {effects : List Effect}
    (changes : pass.Changes path files store effects) (count : Nat) :
    pass.Changes path files store (effects.take count) := by
  cases changes with
  | documents effects each =>
      exact .documents _ (fun effect mem => each effect (List.mem_of_mem_take mem))
  | scored old new verdict rest fresh each =>
      cases count with
      | zero => exact .documents [] (fun _ mem => nomatch mem)
      | succ count =>
          exact .scored old new verdict _ fresh
            (fun effect mem => each effect (List.mem_of_mem_take mem))

/-- What documenting and scoring a file keep is kept by the changes of an evaluation. -/
theorem changes_keep {α : Type} {path : String} {effects : List Effect} {begun : World}
    (keeps : pass.Kept path kept)
    (changes : pass.Changes path begun.files begun.store effects) (begins : kept begun)
    (result : Except Failure α) : kept (carry pass.now result effects begun).2 := by
  cases changes with
  | documents effects each =>
      exact carry_keeps kept result
        (fun effect mem => keeps.documents begun begins effect (each effect mem)) begins
  | scored old new verdict rest fresh each =>
      rw [carry]
      split
      case h_1 next followed =>
        exact carry_keeps kept result
          (fun effect mem => keeps.documents begun begins effect (each effect mem))
          (keeps.scores begun next old new verdict fresh followed begins)
      case h_2 failure failed => exact begins

/-- A file is settled with what carrying out its course leads to, whether or not that fails. -/
theorem settled_world (pass : Pass) (path : String) (base : Option String) (world : World) :
    (pass.settled path base world).2 =
      ((pass.course path base world.files world.store).carriedOut pass.now world).2 := by
  unfold settled
  rcases (pass.course path base world.files world.store).carriedOut pass.now world with
    ⟨failure | outcome, after⟩
  · dsimp only
    split <;> rfl
  · rfl

/-- What documenting and scoring a file keep is kept when the file is settled. -/
theorem settled_keeps {path : String} (base : Option String) (keeps : pass.Kept path kept)
    {world : World} (begins : kept world) : kept (pass.settled path base world).2 := by
  rw [settled_world]
  apply changes_keep keeps
  · exact course_changes pass path base world.files world.store
  · exact keeps.asks world _ begins

/-- What settling each of some files keeps is kept when they are settled one after another. -/
theorem settledAll_each {base : Option String} {paths : List String}
    (each : ∀ path ∈ paths, ∀ world, kept world → kept (pass.settled path base world).2)
    {world : World} (begins : kept world) : kept (pass.settledAll base paths world).2 := by
  induction paths generalizing world with
  | nil => exact begins
  | cons path rest ih =>
      have first := each path List.mem_cons_self world begins
      rw [settledAll]
      revert first
      rcases pass.settled path base world with ⟨failure | outcome, after⟩
      · exact id
      · intro first
        have others := ih (fun other mem => each other (List.mem_cons_of_mem _ mem)) first
        revert others
        dsimp only
        rcases pass.settledAll base rest after with ⟨failure | outcomes, last⟩ <;> exact id

/-- What documenting and scoring any of some files keep is kept when they are settled. -/
theorem settledAll_keeps {paths : List String} (base : Option String)
    (keeps : ∀ path ∈ paths, pass.Kept path kept) {world : World} (begins : kept world) :
    kept (pass.settledAll base paths world).2 :=
  settledAll_each (fun path mem _world begins => settled_keeps base (keeps path mem) begins) begins

/-- What settling files and setting the marker keep is kept by a pass. -/
theorem run_each (kept : World → Prop) {files : FileTree} {store : Store}
    (begins : ∀ asked, kept { World.start files store with asked })
    (each : ∀ path base world, kept world → kept (pass.settled path base world).2)
    (marks : ∀ head before after,
      before.follow pass.now (.wroteStore (.processed pass.repository head)) = .ok after →
      kept before → kept after) : kept (pass.run files store).2 := by
  obtain ⟨asked, carried⟩ := run_eq pass files store
  rw [carried]
  cases pass.plan store with
  | error failure => exact begins asked
  | ok plan =>
      cases plan with
      | nothing report => exact begins asked
      | settle head previous base paths =>
          have settled : kept
              (pass.settledAll base paths { World.start files store with asked }).2 :=
            settledAll_each (fun path _mem => each path base) (begins asked)
          rw [carryOut, completed]
          revert settled
          rcases pass.settledAll base paths { World.start files store with asked } with
            ⟨failure | outcomes, middle⟩
          · exact id
          · intro settled
            dsimp only
            cases followed :
                middle.follow pass.now (.wroteStore (.processed pass.repository head)) with
            | error failure => exact settled
            | ok last => exact marks head middle last followed settled

end Kept

/-! ### Settling a file -/

/-- The outcome that is reported of a file when its course ended in some way. A failure is reported
unless it is one of the store. -/
inductive Reported (path : String) : Except Failure Outcome → Outcome → Prop
  | done (outcome : Outcome) : Reported path (.ok outcome) outcome
  | failed (failure : Failure) (harmless : failure.isFatal = false) :
      Reported path (.error failure) (.failed path failure.message)

/-- A file does not have an outcome if the store failed. -/
theorem Reported.sound {path : String} {ended : Except Failure Outcome} {outcome : Outcome}
    (reported : Reported path ended outcome) : ended ≠ .error .store := by
  rintro rfl
  cases reported with
  | failed failure harmless => cases harmless

/-- A file is settled with the outcome that is reported of how its course ended. -/
theorem settled_of_reported {pass : Pass} {path : String} {base : Option String}
    {world last : World} {ended : Except Failure Outcome} {outcome : Outcome}
    (carried : (pass.course path base world.files world.store).carriedOut pass.now world =
      (ended, last)) (reported : Reported path ended outcome) :
    pass.settled path base world = (.ok outcome, last) := by
  unfold Pass.settled
  rw [carried]
  cases reported with
  | done outcome => rfl
  | failed failure harmless =>
      dsimp only
      rw [if_neg (by rw [harmless]; exact Bool.false_ne_true)]

/-- A file is settled when its course is carried out as far as that goes. -/
theorem settled_ended {pass : Pass} {path : String} {base : Option String} {world after : World}
    {outcome : Outcome} (settled : pass.settled path base world = (.ok outcome, after)) :
    ∃ ended : Except Failure Outcome,
      (pass.course path base world.files world.store).carriedOut pass.now world = (ended, after) ∧
      Reported path ended outcome := by
  unfold Pass.settled at settled
  revert settled
  rcases (pass.course path base world.files world.store).carriedOut pass.now world with
    ⟨failure | reached, last⟩
  · dsimp only
    split
    · intro settled
      cases settled
    · rename_i harmless
      intro settled
      cases settled
      exact ⟨_, rfl, .failed failure (Bool.eq_false_iff.mpr harmless)⟩
  · intro settled
    cases settled
    exact ⟨_, rfl, .done _⟩

end DocDrift.Pass
