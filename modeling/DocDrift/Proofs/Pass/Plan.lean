import DocDrift.Proofs.Pass.Course

/-!
The two halves of a pass. First it asks the history and the store what is to be done; that changes
nothing. Then, unless there is nothing to do, it settles the files that it found and sets its
marker. `run_eq` says so of every pass.
-/

set_option autoImplicit false

namespace DocDrift.Pass

/-! ### What is to be done -/

/-- What a pass finds that is to be done. -/
inductive Plan
  /-- Nothing; the pass ends with a report. -/
  | nothing (report : Report)
  /-- Files are to be settled, starting from a commit if there is one to start from. -/
  | settle (head : String) (previous base : Option String) (paths : List String)

/-- The commit up to which the repository of a pass was processed. -/
def previousOf (pass : Pass) (store : Store) : Except Failure (Option String) := do
  return (← store.marker? pass.repository).map (·.commit)

/-- The commit that a pass starts from. -/
def baseFor (pass : Pass) : Option String → Except Failure (Option String)
  | none => .ok none
  | some commit =>
      if pass.force then .ok none
      else do
        if ← pass.history.knows commit then return some commit
        else return none

def namedFor (pass : Pass) (base : Option String) (head : String) :
    Except Failure (List String) :=
  match base with
  | some commit => do
      let _ ← pass.history.between commit head
      pass.history.changed commit head
  | none => pass.history.files

/-- What a pass finds that is to be done. -/
def plan (pass : Pass) (store : Store) : Except Failure Plan := do
  match ← pass.history.head with
  | none => return .nothing .empty
  | some head =>
      let previous ← pass.previousOf store
      if previous == some head && !pass.force then
        return .nothing ⟨some head, previous, [], false⟩
      else
        let base ← pass.baseFor previous
        return .settle head previous base
          ((← pass.namedFor base head).filter pass.config.tracks)

/-! ### Settling -/

/-- What settling a file leads to. -/
@[irreducible]
def settled (pass : Pass) (path : String) (base : Option String) (world : World) :
    Except Failure Outcome × World :=
  match (pass.course path base world.files world.store).carriedOut pass.now world with
  | (.ok outcome, after) => (.ok outcome, after)
  | (.error failure, after) =>
      if failure.isFatal then (.error failure, after)
      else (.ok (.failed path failure.message), after)

theorem run_settle (pass : Pass) (path : String) (base : Option String) (world : World) :
    (pass.settle path base).run world = pass.settled path base world := by
  unfold settle settled
  rw [run_tryCatch, run_evaluate]
  rcases (pass.course path base world.files world.store).carriedOut pass.now world with
    ⟨_ | outcome, after⟩
  · dsimp only
    split <;> rfl
  · rfl

def settledAll (pass : Pass) (base : Option String) :
    List String → World → Except Failure (List Outcome) × World
  | [], world => (.ok [], world)
  | path :: rest, world =>
      match pass.settled path base world with
      | (.error failure, after) => (.error failure, after)
      | (.ok outcome, after) =>
          match settledAll pass base rest after with
          | (.error failure, last) => (.error failure, last)
          | (.ok outcomes, last) => (.ok (outcome :: outcomes), last)

theorem settledAll_nil {pass : Pass} {base : Option String} {world last : World}
    {outcomes : List Outcome} (settled : pass.settledAll base [] world = (.ok outcomes, last)) :
    outcomes = [] ∧ last = world := by
  cases settled
  exact ⟨rfl, rfl⟩

/-- Files that were settled were settled one after another. -/
theorem settledAll_cons {pass : Pass} {base : Option String} {path : String} {rest : List String}
    {world last : World} {outcomes : List Outcome}
    (settled : pass.settledAll base (path :: rest) world = (.ok outcomes, last)) :
    ∃ outcome others middle, pass.settled path base world = (.ok outcome, middle) ∧
      pass.settledAll base rest middle = (.ok others, last) ∧ outcomes = outcome :: others := by
  rw [settledAll] at settled
  rcases first : pass.settled path base world with ⟨failure | outcome, middle⟩
  · rw [first] at settled
    cases settled
  · rw [first] at settled
    dsimp only at settled
    rcases rested : pass.settledAll base rest middle with ⟨failure | others, after⟩
    · rw [rested] at settled
      cases settled
    · rw [rested] at settled
      cases settled
      exact ⟨outcome, others, middle, rfl, rested, rfl⟩

theorem run_settleAll (pass : Pass) (base : Option String) (paths : List String)
    (world : World) :
    (pass.settleAll base paths).run world = pass.settledAll base paths world := by
  induction paths generalizing world with
  | nil => rfl
  | cons path rest ih =>
      rw [settleAll, settledAll, run_bind, run_settle]
      rcases pass.settled path base world with ⟨_ | outcome, after⟩
      · rfl
      · dsimp only
        rw [run_bind, ih]
        rcases pass.settledAll base rest after with ⟨_ | outcomes, last⟩ <;> rfl

/-- What a pass with files to settle leads to. -/
def completed (pass : Pass) (head : String) (previous base : Option String)
    (paths : List String) (world : World) : Except Failure Report × World :=
  match pass.settledAll base paths world with
  | (.error failure, after) => (.error failure, after)
  | (.ok outcomes, after) =>
      match after.follow pass.now (.wroteStore (.processed pass.repository head)) with
      | .ok last => (.ok ⟨some head, previous, outcomes, true⟩, last)
      | .error failure => (.error failure, after)

/-- A pass over files that came to its end has settled them and set its marker. -/
theorem completed_split {pass : Pass} {head : String} {previous base : Option String}
    {paths : List String} {world last : World} {report : Report}
    (ended : pass.completed head previous base paths world = (.ok report, last)) :
    ∃ outcomes middle, pass.settledAll base paths world = (.ok outcomes, middle) ∧
      middle.follow pass.now (.wroteStore (.processed pass.repository head)) = .ok last ∧
      report = ⟨some head, previous, outcomes, true⟩ := by
  unfold completed at ended
  rcases settled : pass.settledAll base paths world with ⟨failure | outcomes, middle⟩
  · rw [settled] at ended
    cases ended
  · rw [settled] at ended
    dsimp only at ended
    cases followed : middle.follow pass.now (.wroteStore (.processed pass.repository head)) with
    | error failure =>
        rw [followed] at ended
        cases ended
    | ok reached =>
        rw [followed] at ended
        cases ended
        exact ⟨outcomes, middle, rfl, followed, rfl⟩

theorem run_completed (pass : Pass) (head : String) (previous base : Option String)
    (paths : List String) (world : World) :
    (do
      let outcomes ← pass.settleAll base paths
      pass.perform (.wroteStore (.processed pass.repository head))
      return ⟨some head, previous, outcomes, true⟩ : Step Report).run world =
      pass.completed head previous base paths world := by
  unfold completed
  rw [run_bind, run_settleAll]
  rcases pass.settledAll base paths world with ⟨_ | outcomes, after⟩
  · rfl
  · exact run_perform_return pass _ _ after

/-! ### A pass carries out its plan -/

theorem run_baseOf (pass : Pass) (previous : Option String) (world : World) :
    ∃ asked, (pass.baseOf previous).run world =
      (pass.baseFor previous, { world with asked }) := by
  unfold baseOf baseFor
  cases previous with
  | none => exact ⟨_, rfl⟩
  | some commit =>
      dsimp only
      split
      · exact ⟨_, rfl⟩
      · rw [run_bind, run_ask]
        cases pass.history.knows commit with
        | error failure => exact ⟨_, rfl⟩
        | ok known => cases known <;> exact ⟨_, rfl⟩

theorem run_candidates (pass : Pass) (base : Option String) (head : String) (world : World) :
    ∃ asked, (pass.candidates base head).run world =
      (pass.namedFor base head, { world with asked }) := by
  unfold candidates namedFor
  cases base with
  | none => exact ⟨_, run_ask _ _ world⟩
  | some commit =>
      dsimp only
      rw [run_bind, run_ask]
      cases pass.history.between commit head with
      | error failure => exact ⟨_, rfl⟩
      | ok commits => exact ⟨_, run_ask _ _ _⟩

/-- What a pass leads to, by what it finds that is to be done. -/
def carryOut (pass : Pass) (world : World) : Except Failure Plan → Except Failure Report × World
  | .error failure => (.error failure, world)
  | .ok (.nothing report) => (.ok report, world)
  | .ok (.settle head previous base paths) => pass.completed head previous base paths world

private theorem run_found (pass : Pass) (head : String) (previous : Option String)
    (world : World) :
    ∃ asked,
      (do
        let base ← pass.baseOf previous
        let paths := (← pass.candidates base head).filter pass.config.tracks
        let outcomes ← pass.settleAll base paths
        pass.perform (.wroteStore (.processed pass.repository head))
        return ⟨some head, previous, outcomes, true⟩ : Step Report).run world =
      pass.carryOut { world with asked } (do
        let base ← pass.baseFor previous
        return .settle head previous base
          ((← pass.namedFor base head).filter pass.config.tracks)) := by
  obtain ⟨asked, baseRun⟩ := run_baseOf pass previous world
  rw [run_bind, baseRun]
  cases pass.baseFor previous with
  | error failure => exact ⟨asked, rfl⟩
  | ok base =>
      obtain ⟨asked, candidatesRun⟩ := run_candidates pass base head { world with asked }
      dsimp only
      rw [run_bind, candidatesRun]
      cases named : pass.namedFor base head with
      | error failure =>
          simp only [bind, Except.bind, named]
          exact ⟨asked, rfl⟩
      | ok paths =>
          simp only [bind, Except.bind, pure, Except.pure, named]
          exact ⟨asked, run_completed pass head previous base _ _⟩

/-- A pass looks what is to be done, and does it. -/
theorem run_eq (pass : Pass) (files : FileTree) (store : Store) :
    ∃ asked, pass.run files store =
      pass.carryOut { World.start files store with asked } (pass.plan store) := by
  rw [run, steps, plan, run_bind, run_ask]
  cases pass.history.head with
  | error failure => exact ⟨_, rfl⟩
  | ok head =>
      cases head with
      | none => exact ⟨_, rfl⟩
      | some head =>
          dsimp only
          rw [run_bind, run_look]
          dsimp only [World.start, previousOf]
          cases store.marker? pass.repository with
          | error failure => exact ⟨_, rfl⟩
          | ok marker =>
              simp only [bind, Except.bind, pure, Except.pure]
              split
              · exact ⟨_, rfl⟩
              · exact run_found pass head _ _

/-! ### The plans there are -/

theorem previousOf_eq (pass : Pass) (store : Store) :
    pass.previousOf store =
      match store.markers with
      | none => .error .store
      | some _ => .ok (store.commitOf? pass.repository) := by
  unfold previousOf Store.marker? Store.commitOf?
  cases store.markers <;> rfl

/-- The plans of a pass, and when it finds which. -/
inductive Planned (pass : Pass) (store : Store) : Except Failure Plan → Prop
  | headless (failure : Failure) (failed : pass.history.head = .error failure) :
      Planned pass store (.error failure)
  | empty (none : pass.history.head = .ok none) : Planned pass store (.ok (.nothing .empty))
  | unmarked (unheld : store.markers = none) : Planned pass store (.error .store)
  | current (head : String) (found : pass.history.head = .ok (some head))
      (marked : store.commitOf? pass.repository = some head) (unforced : pass.force = false) :
      Planned pass store (.ok (.nothing ⟨some head, some head, [], false⟩))
  | baseless (failure : Failure)
      (failed : pass.baseFor (store.commitOf? pass.repository) = .error failure) :
      Planned pass store (.error failure)
  | unnamed (base : Option String) (head : String) (failure : Failure)
      (failed : pass.namedFor base head = .error failure) : Planned pass store (.error failure)
  | due (head : String) (base : Option String) (named : List String)
      (found : pass.history.head = .ok (some head))
      (due : pass.force = true ∨ store.commitOf? pass.repository ≠ some head)
      (started : pass.baseFor (store.commitOf? pass.repository) = .ok base)
      (told : pass.namedFor base head = .ok named) :
      Planned pass store (.ok (.settle head (store.commitOf? pass.repository) base
        (named.filter pass.config.tracks)))

theorem plan_planned (pass : Pass) (store : Store) : pass.Planned store (pass.plan store) := by
  unfold plan
  rw [previousOf_eq]
  cases found : pass.history.head with
  | error failure => exact .headless failure found
  | ok commit =>
      cases commit with
      | none => exact .empty found
      | some head =>
          cases held : store.markers with
          | none => exact .unmarked held
          | some markers =>
              simp only [bind, Except.bind, pure, Except.pure]
              split
              case isTrue idle =>
                rw [Bool.and_eq_true, beq_iff_eq, Bool.not_eq_true'] at idle
                rw [idle.1]
                exact .current head found idle.1 idle.2
              case isFalse active =>
                rw [Bool.and_eq_true, beq_iff_eq, Bool.not_eq_true'] at active
                have due := forced_or active
                cases started : pass.baseFor (store.commitOf? pass.repository) with
                | error failure => exact .baseless failure started
                | ok base =>
                    dsimp only
                    cases told : pass.namedFor base head with
                    | error failure => exact .unnamed base head failure told
                    | ok named => exact .due head base named found due started told

end DocDrift.Pass
