import DocDrift.Pass
import DocDrift.Proofs.Store.Writes

/-!
What evaluating a file comes to. An evaluation first looks at the file, the store and the history,
and then changes files and store; from the first change on it looks at nothing any more. So it has
a `Course`: what it asks, the changes it makes one after another, and the outcome if all of them
succeed. `run_evaluate` says that an evaluation carries out its course and does nothing else.
-/

set_option autoImplicit false

namespace DocDrift.Pass

/-! ### Running steps -/

section Steps

variable {α β : Type}

theorem run_pure (value : α) (world : World) :
    (pure value : Step α).run world = (.ok value, world) := rfl

theorem run_throw (failure : Failure) (world : World) :
    (throw failure : Step α).run world = (.error failure, world) := rfl

theorem run_get (world : World) : (get : Step World).run world = (.ok world, world) := rfl

theorem run_bind (step : Step α) (next : α → Step β) (world : World) :
    (step >>= next).run world =
      match step.run world with
      | (.ok value, after) => (next value).run after
      | (.error failure, after) => (.error failure, after) := by
  simp only [bind, ExceptT.bind, ExceptT.run, ExceptT.mk, StateT.bind]
  rcases step world with ⟨_ | _, after⟩ <;> rfl

theorem run_tryCatch (step : Step α) (handle : Failure → Step α) (world : World) :
    (tryCatch step handle).run world =
      match step.run world with
      | (.ok value, after) => (.ok value, after)
      | (.error failure, after) => (handle failure).run after := by
  simp only [tryCatch, tryCatchThe, MonadExceptOf.tryCatch, ExceptT.tryCatch, ExceptT.run,
    ExceptT.mk, bind, StateT.bind]
  rcases step world with ⟨_ | _, after⟩ <;> rfl

theorem run_ask (question : Question) (answer : Except Failure α) (world : World) :
    (ask question answer).run world =
      (answer, { world with asked := world.asked ++ [question] }) := by
  cases answer <;> rfl

theorem run_look (question : Store → Except Failure α) (world : World) :
    (look question).run world = (question world.store, world) := by
  simp only [look, run_bind, run_get]
  cases question world.store <;> rfl

theorem run_perform (pass : Pass) (effect : Effect) (world : World) :
    (pass.perform effect).run world =
      match world.follow pass.now effect with
      | .ok next => (.ok (), next)
      | .error failure => (.error failure, world) := by
  simp only [perform, run_bind, run_get]
  cases world.follow pass.now effect <;> rfl

theorem run_contents (target : String) (world : World) :
    (contents target).run world =
      ((world.files.read target).mapError (Failure.unreadable target), world) := by
  simp only [contents, run_bind, run_get]
  cases world.files.read target <;> rfl

end Steps

/-! ### Changes one after another -/

/-- Makes changes one after another up to the first that fails, and then yields a result. -/
def carry {α : Type} (now : String) (result : Except Failure α) :
    List Effect → World → Except Failure α × World
  | [], world => (result, world)
  | effect :: rest, world =>
      match world.follow now effect with
      | .ok next => carry now result rest next
      | .error failure => (.error failure, world)

/-- A change, and then a step that carries out further changes. -/
theorem run_perform_bind {α : Type} (pass : Pass) (effect : Effect) (next : Unit → Step α)
    (result : Except Failure α) (rest : List Effect)
    (continues : ∀ world, (next ()).run world = carry pass.now result rest world) (world : World) :
    (pass.perform effect >>= next).run world = carry pass.now result (effect :: rest) world := by
  rw [run_bind, run_perform, carry]
  cases world.follow pass.now effect with
  | ok after => exact continues after
  | error failure => rfl

theorem run_perform_return {α : Type} (pass : Pass) (effect : Effect) (value : α) (world : World) :
    (do
      pass.perform effect
      return value : Step α).run world =
      match world.follow pass.now effect with
      | .ok next => (.ok value, next)
      | .error failure => (.error failure, world) := by
  rw [run_bind, run_perform]
  cases world.follow pass.now effect <;> rfl

/-! ### Courses -/

/-- What an evaluation asks, what it changes, and its outcome if every change succeeds. -/
structure Course where
  asked : List Question
  effects : List Effect
  result : Except Failure Outcome

namespace Course

/-- A course with nothing to ask and nothing to change. -/
def still (result : Except Failure Outcome) : Course :=
  ⟨[], [], result⟩

def afterQuestion (question : Question) (course : Course) : Course :=
  { course with asked := question :: course.asked }

def afterEffect (effect : Effect) (course : Course) : Course :=
  { course with effects := effect :: course.effects }

/-- What carrying out a course leads to. -/
def carriedOut (course : Course) (now : String) (world : World) :
    Except Failure Outcome × World :=
  carry now course.result course.effects { world with asked := world.asked ++ course.asked }

@[simp]
theorem afterQuestion_effects (question : Question) (course : Course) :
    (course.afterQuestion question).effects = course.effects := rfl

@[simp]
theorem afterQuestion_result (question : Question) (course : Course) :
    (course.afterQuestion question).result = course.result := rfl

@[simp]
theorem afterEffect_effects (effect : Effect) (course : Course) :
    (course.afterEffect effect).effects = effect :: course.effects := rfl

@[simp]
theorem afterEffect_result (effect : Effect) (course : Course) :
    (course.afterEffect effect).result = course.result := rfl

theorem carriedOut_still (result : Except Failure Outcome) (now : String) (world : World) :
    (still result).carriedOut now world = (result, world) := by
  simp only [still, carriedOut, carry, List.append_nil]

theorem carriedOut_afterQuestion (question : Question) (course : Course) (now : String)
    (world : World) :
    (course.afterQuestion question).carriedOut now world =
      course.carriedOut now { world with asked := world.asked ++ [question] } := by
  simp only [afterQuestion, carriedOut, List.append_assoc, List.singleton_append]

theorem carriedOut_afterEffect (effect : Effect) (course : Course) (now : String) (world : World)
    (silent : course.asked = []) :
    (course.afterEffect effect).carriedOut now world =
      match world.follow now effect with
      | .ok next => course.carriedOut now next
      | .error failure => (.error failure, world) := by
  simp only [afterEffect, carriedOut, silent, List.append_nil, carry]

end Course

/-- The path of a file from where the pass stands. -/
def target (pass : Pass) (path : String) : String :=
  Path.join pass.root path

/-- The path of the document of a file from where the pass stands. -/
def documentTarget (pass : Pass) (path : String) : String :=
  Path.join pass.root (pass.config.documentPath path)

/-- The summary of the contents of a file, if they are accepted. -/
def summaryOf (bytes : ByteArray) : Option Summary :=
  (Summary.ofSource (Text.decodeLossy bytes)).toOption

def listing (target digest : String) : Option Summary → List Effect
  | some summary => [.wroteStore (.listed target summary.symbolNames digest)]
  | none => []

def spending (target : String) : Option Expense → List Effect
  | some expense =>
      [.wroteStore (.spent
        ⟨expense.model, expense.input, expense.output, expense.cost, some target⟩)]
  | none => []

theorem listed_of_mem_listing {target digest : String} {summary : Option Summary} {effect : Effect}
    (mem : effect ∈ listing target digest summary) :
    ∃ names, effect = .wroteStore (.listed target names digest) := by
  cases summary with
  | none => cases mem
  | some summary => exact ⟨_, List.mem_singleton.mp mem⟩

theorem spent_of_mem_spending {target : String} {expense : Option Expense} {effect : Effect}
    (mem : effect ∈ spending target expense) : ∃ usage, effect = .wroteStore (.spent usage) := by
  cases expense with
  | none => cases mem
  | some expense => exact ⟨_, List.mem_singleton.mp mem⟩

def documenting (pass : Pass) (path : String) (bytes : ByteArray) (generated : Document) :
    List Effect :=
  .madeParent (pass.documentTarget path) ::
  .wroteFile (pass.documentTarget path) generated.text ::
  .wroteStore (.documented (pass.target path) (Digest.ofBytes bytes)
    (some (pass.config.documentPath path))) ::
  (listing (pass.target path) (Digest.ofBytes bytes) (summaryOf bytes) ++
    spending (pass.target path) generated.expense)

def documentCourse (pass : Pass) (path : String) (bytes : ByteArray) (score : Option Nat) :
    Course :=
  match pass.generator path (Text.decodeLossy bytes) with
  | .error failure => .still (.error failure)
  | .ok generated =>
      ⟨[], pass.documenting path bytes generated,
        .ok (.processed path score (pass.config.documentPath path))⟩

def verdictCourse (pass : Pass) (path : String) (bytes : ByteArray) (verdict : Store.Verdict) :
    Course :=
  if verdict.recommendation.regenerate then
    pass.documentCourse path bytes (some verdict.score)
  else .still (.ok (.skipped path (reasonAgainst verdict)))

/-- What a change of a file is kept under. -/
def pairOf (pass : Pass) (path old : String) (bytes : ByteArray) : Store.Pair :=
  ⟨pass.target path, Digest.ofBytes old.toUTF8, Digest.ofBytes bytes⟩

/-- The structural change of a file and its private members, as far as both sides are accepted. -/
def structureOf (old : String) (bytes : ByteArray) : Delta × List String :=
  match (Summary.ofSource old).toOption, summaryOf bytes with
  | some before, some after =>
      (Delta.between before after, before.privateMembers ++ after.privateMembers)
  | _, _ => (Delta.empty, [])

/-- The verdict on a change of a file of which some symbols are documented. -/
def freshVerdict (pass : Pass) (old : String) (bytes : ByteArray)
    (documented : List String) : Store.Verdict :=
  let result := Significance.ofValid pass.config.scoring
    (TextChange.between old (Text.decodeLossy bytes)) (structureOf old bytes).1
    ⟨documented, (structureOf old bytes).2⟩
  ⟨result.score, result.classification, result.recommendation, pass.now⟩

def judgeCourse (pass : Pass) (path : String) (bytes : ByteArray) (old : String)
    (store : Store) : Course :=
  let pair := pass.pairOf path old bytes
  match store.verdict? pair, store.symbolsOf (pass.target path) with
  | .error failure, _ => .still (.error failure)
  | .ok (some verdict), _ => pass.verdictCourse path bytes verdict
  | .ok none, .error failure => .still (.error failure)
  | .ok none, .ok documented =>
      let verdict := pass.freshVerdict old bytes documented.names
      (pass.verdictCourse path bytes verdict).afterEffect (.wroteStore (.scored pair verdict))

/-- The course of an evaluation once a file was found to differ from what was documented. -/
def changedCourse (pass : Pass) (path : String) (base : Option String) (bytes : ByteArray)
    (isNew : Bool) (store : Store) : Course :=
  match base, isNew with
  | some commit, false =>
      (match pass.history.textAt path commit with
        | .error failure => Course.still (.error failure)
        | .ok none => pass.documentCourse path bytes none
        | .ok (some old) => pass.judgeCourse path bytes old store).afterQuestion
          (.textAt path commit)
  | _, _ => pass.documentCourse path bytes none

/-- The course of an evaluation once the contents of a file are known. -/
def contentCourse (pass : Pass) (path : String) (base : Option String) (bytes : ByteArray)
    (store : Store) : Course :=
  match store.check (pass.target path) bytes with
  | .error failure => .still (.error failure)
  | .ok check =>
      if !check.needsUpdate && !pass.force then .still (.ok (.skipped path "unchanged"))
      else pass.changedCourse path base bytes check.isNew store

def course (pass : Pass) (path : String) (base : Option String) (files : FileTree)
    (store : Store) : Course :=
  if files.exists? (pass.target path) then
    match files.read (pass.target path) with
    | .error fault => .still (.error (.unreadable (pass.target path) fault))
    | .ok bytes => pass.contentCourse path base bytes store
  else .still (.ok (.skipped path "deleted"))

/-! ### An evaluation carries out its course -/

theorem run_document (pass : Pass) (path : String) (bytes : ByteArray) (score : Option Nat)
    (world : World) :
    (pass.document path (pass.target path) (Text.decodeLossy bytes) (Digest.ofBytes bytes)
        (summaryOf bytes) score).run world =
      (pass.documentCourse path bytes score).carriedOut pass.now world := by
  unfold document documentCourse documenting documentTarget
  generalize Digest.ofBytes bytes = digest
  generalize summaryOf bytes = summary
  cases pass.generator path (Text.decodeLossy bytes) with
  | error failure =>
      rw [run_bind, run_throw, Course.carriedOut_still]
  | ok generated =>
      rw [run_bind, run_pure]
      dsimp only [Course.carriedOut]
      rw [List.append_nil]
      refine run_perform_bind pass _ _ _ _ (fun world => ?_) world
      refine run_perform_bind pass _ _ _ _ (fun world => ?_) world
      refine run_perform_bind pass _ _ _ _ (fun world => ?_) world
      cases summary with
      | none =>
          cases generated.expense with
          | none => rfl
          | some expense =>
              exact run_perform_bind pass _ _ _ _ (fun _ => rfl) world
      | some summary =>
          refine run_perform_bind pass _ _ _ _ (fun world => ?_) world
          cases generated.expense with
          | none => rfl
          | some expense =>
              exact run_perform_bind pass _ _ _ _ (fun _ => rfl) world

theorem documentCourse_asked (pass : Pass) (path : String) (bytes : ByteArray)
    (score : Option Nat) : (pass.documentCourse path bytes score).asked = [] := by
  unfold documentCourse
  cases pass.generator path (Text.decodeLossy bytes) <;> rfl

theorem verdictCourse_asked (pass : Pass) (path : String) (bytes : ByteArray)
    (verdict : Store.Verdict) : (pass.verdictCourse path bytes verdict).asked = [] := by
  unfold verdictCourse
  split
  · exact documentCourse_asked pass path bytes _
  · rfl

theorem run_verdict (pass : Pass) (path : String) (bytes : ByteArray) (verdict : Store.Verdict)
    (world : World) :
    (if verdict.recommendation.regenerate then
        pass.document path (pass.target path) (Text.decodeLossy bytes) (Digest.ofBytes bytes)
          (summaryOf bytes) (some verdict.score)
      else pure (.skipped path (reasonAgainst verdict)) : Step Outcome).run world =
      (pass.verdictCourse path bytes verdict).carriedOut pass.now world := by
  unfold verdictCourse
  split
  · exact run_document pass path bytes _ world
  · rw [run_pure, Course.carriedOut_still]

/-- Judging a change reads the kept verdict, or keeps a new one. -/
theorem run_judge (pass : Pass) (path old : String) (bytes : ByteArray) (world : World) :
    (pass.judge (pass.target path) old (Text.decodeLossy bytes) (Digest.ofBytes bytes)
        (summaryOf bytes)).run world =
      match world.store.verdict? (pass.pairOf path old bytes),
          world.store.symbolsOf (pass.target path) with
      | .error failure, _ => (.error failure, world)
      | .ok (some verdict), _ => (.ok verdict, world)
      | .ok none, .error failure => (.error failure, world)
      | .ok none, .ok documented =>
          let verdict := pass.freshVerdict old bytes documented.names
          match world.follow pass.now
            (.wroteStore (.scored (pass.pairOf path old bytes) verdict)) with
          | .ok next => (.ok verdict, next)
          | .error failure => (.error failure, world) := by
  unfold judge pairOf freshVerdict structureOf
  rw [run_bind, run_look]
  generalize Digest.ofBytes old.toUTF8 = oldDigest
  generalize Digest.ofBytes bytes = newDigest
  cases world.store.verdict? ⟨pass.target path, oldDigest, newDigest⟩ with
  | error failure => rfl
  | ok kept =>
      cases kept with
      | some verdict => rfl
      | none =>
          cases (Summary.ofSource old).toOption <;> cases summaryOf bytes
          all_goals
            dsimp only
            rw [run_bind, run_look]
            cases world.store.symbolsOf (pass.target path) with
            | error failure => rfl
            | ok documented => exact run_perform_return pass _ _ world

theorem run_judged (pass : Pass) (path old : String) (bytes : ByteArray) (world : World) :
    (do
      let verdict ← pass.judge (pass.target path) old (Text.decodeLossy bytes)
        (Digest.ofBytes bytes) (summaryOf bytes)
      if verdict.recommendation.regenerate then
        pass.document path (pass.target path) (Text.decodeLossy bytes) (Digest.ofBytes bytes)
          (summaryOf bytes) (some verdict.score)
      else return .skipped path (reasonAgainst verdict) : Step Outcome).run world =
      (pass.judgeCourse path bytes old world.store).carriedOut pass.now world := by
  rw [run_bind, run_judge, judgeCourse]
  dsimp only
  cases world.store.verdict? (pass.pairOf path old bytes) with
  | error failure => rw [Course.carriedOut_still]
  | ok kept =>
      cases kept with
      | some verdict => exact run_verdict pass path bytes verdict world
      | none =>
          cases world.store.symbolsOf (pass.target path) with
          | error failure => rw [Course.carriedOut_still]
          | ok documented =>
              dsimp only
              rw [Course.carriedOut_afterEffect _ _ _ _ (verdictCourse_asked pass path bytes _)]
              cases world.follow pass.now (.wroteStore (.scored (pass.pairOf path old bytes)
                (pass.freshVerdict old bytes documented.names))) with
              | error failure => rfl
              | ok next => exact run_verdict pass path bytes _ next

theorem run_changed (pass : Pass) (path : String) (base : Option String) (bytes : ByteArray)
    (isNew : Bool) (world : World) :
    (do
      let old ←
        match base with
        | some commit =>
            if isNew then pure none
            else ask (.textAt path commit) (pass.history.textAt path commit)
        | none => pure none
      match old with
      | none =>
          pass.document path (pass.target path) (Text.decodeLossy bytes) (Digest.ofBytes bytes)
            (summaryOf bytes) none
      | some old =>
          let verdict ← pass.judge (pass.target path) old (Text.decodeLossy bytes)
            (Digest.ofBytes bytes) (summaryOf bytes)
          if verdict.recommendation.regenerate then
            pass.document path (pass.target path) (Text.decodeLossy bytes) (Digest.ofBytes bytes)
              (summaryOf bytes) (some verdict.score)
          else return .skipped path (reasonAgainst verdict) : Step Outcome).run world =
      (pass.changedCourse path base bytes isNew world.store).carriedOut pass.now world := by
  unfold changedCourse
  cases base with
  | none => exact run_document pass path bytes none world
  | some commit =>
      cases isNew with
      | true => exact run_document pass path bytes none world
      | false =>
          dsimp only
          rw [if_neg Bool.false_ne_true, run_bind, run_ask, Course.carriedOut_afterQuestion]
          cases pass.history.textAt path commit with
          | error failure => rw [Course.carriedOut_still]
          | ok old =>
              cases old with
              | none => exact run_document pass path bytes none _
              | some old => exact run_judged pass path old bytes _

theorem run_evaluate (pass : Pass) (path : String) (base : Option String) (world : World) :
    (pass.evaluate path base).run world =
      (pass.course path base world.files world.store).carriedOut pass.now world := by
  have place : Path.join pass.root path = pass.target path := rfl
  unfold evaluate course
  rw [run_bind, place]
  change (if (!world.files.exists? (pass.target path)) = true then
      (pure (.skipped path "deleted") : Step Outcome) else _ : Step Outcome).run world = _
  cases world.files.exists? (pass.target path) with
  | false =>
      rw [if_pos Bool.not_false, if_neg Bool.false_ne_true, run_pure, Course.carriedOut_still]
  | true =>
      rw [if_neg (by decide), if_pos rfl, run_bind, run_contents]
      cases world.files.read (pass.target path) with
      | error fault =>
          dsimp only [Except.mapError]
          rw [Course.carriedOut_still]
      | ok bytes =>
          dsimp only [Except.mapError, contentCourse]
          rw [run_bind, run_look]
          cases world.store.check (pass.target path) bytes with
          | error failure => dsimp only; rw [Course.carriedOut_still]
          | ok check =>
              dsimp only
              split
              · rw [run_pure, Course.carriedOut_still]
              · exact run_changed pass path base bytes check.isNew world

/-! ### The courses there are -/

section Courses

variable (pass : Pass) (path : String) (base : Option String) (files : FileTree) (store : Store)

/-- The courses of an evaluation, and when it takes which. -/
inductive Evaluation : Course → Prop
  | deleted (gone : files.exists? (pass.target path) = false) :
      Evaluation (.still (.ok (.skipped path "deleted")))
  | unreadable (fault : FileFault) (present : files.exists? (pass.target path) = true)
      (unread : files.read (pass.target path) = .error fault) :
      Evaluation (.still (.error (.unreadable (pass.target path) fault)))
  | unlisted (unheld : store.ledger = none) : Evaluation (.still (.error .store))
  | unchanged (bytes : ByteArray) (read : files.read (pass.target path) = .ok bytes)
      (unforced : pass.force = false)
      (same : store.digestOf? (pass.target path) = some (Digest.ofBytes bytes)) :
      Evaluation (.still (.ok (.skipped path "unchanged")))
  | baseless (bytes : ByteArray) (read : files.read (pass.target path) = .ok bytes)
      (due : pass.force = true ∨ store.digestOf? (pass.target path) ≠ some (Digest.ofBytes bytes))
      (baseless : base = none ∨ store.digestOf? (pass.target path) = none) :
      Evaluation (pass.documentCourse path bytes none)
  | untold (commit : String) (failure : Failure)
      (known : store.digestOf? (pass.target path) ≠ none) (told : base = some commit)
      (failed : pass.history.textAt path commit = .error failure) :
      Evaluation ((Course.still (.error failure)).afterQuestion (.textAt path commit))
  | added (bytes : ByteArray) (commit : String)
      (read : files.read (pass.target path) = .ok bytes)
      (due : pass.force = true ∨ store.digestOf? (pass.target path) ≠ some (Digest.ofBytes bytes))
      (known : store.digestOf? (pass.target path) ≠ none)
      (told : base = some commit) (absent : pass.history.textAt path commit = .ok none) :
      Evaluation ((pass.documentCourse path bytes none).afterQuestion (.textAt path commit))
  | changed (bytes : ByteArray) (commit old : String)
      (read : files.read (pass.target path) = .ok bytes)
      (due : pass.force = true ∨ store.digestOf? (pass.target path) ≠ some (Digest.ofBytes bytes))
      (known : store.digestOf? (pass.target path) ≠ none)
      (told : base = some commit) (present : pass.history.textAt path commit = .ok (some old)) :
      Evaluation ((pass.judgeCourse path bytes old store).afterQuestion (.textAt path commit))

end Courses

theorem forced_or {idle : Prop} {forced : Bool} (active : ¬(idle ∧ forced = false)) :
    forced = true ∨ ¬idle := by
  cases forced with
  | true => exact .inl rfl
  | false => exact .inr (fun held => active ⟨held, rfl⟩)

theorem course_evaluation (pass : Pass) (path : String) (base : Option String) (files : FileTree)
    (store : Store) :
    pass.Evaluation path base files store (pass.course path base files store) := by
  unfold course
  split
  case isFalse gone => exact .deleted (by simpa only [Bool.not_eq_true] using gone)
  case isTrue present =>
    cases read : files.read (pass.target path) with
    | error fault => exact .unreadable fault present read
    | ok bytes =>
        dsimp only
        unfold contentCourse
        rw [Store.check_eq]
        cases held : store.ledger with
        | none => exact .unlisted held
        | some ledger =>
            dsimp only
            split
            case isTrue idle =>
              rw [Bool.and_eq_true, Bool.not_eq_true', Bool.not_eq_true', bne_eq_false_iff_eq]
                at idle
              exact .unchanged bytes read idle.2 idle.1
            case isFalse active =>
              rw [Bool.and_eq_true, Bool.not_eq_true', Bool.not_eq_true', bne_eq_false_iff_eq]
                at active
              have due := forced_or active
              cases base with
              | none => exact .baseless bytes read due (.inl rfl)
              | some commit =>
                  cases known : store.digestOf? (pass.target path) with
                  | none => exact .baseless bytes read due (.inr known)
                  | some digest =>
                      have listed : store.digestOf? (pass.target path) ≠ none := by
                        rw [known]
                        exact Option.some_ne_none digest
                      dsimp only [changedCourse, Option.isNone]
                      cases told : pass.history.textAt path commit with
                      | error failure => exact .untold commit failure listed rfl told
                      | ok text =>
                          cases text with
                          | none => exact .added bytes commit read due listed rfl told
                          | some old => exact .changed bytes commit old read due listed rfl told

/-- The courses of judging a change, and when it takes which. -/
inductive Judgement (pass : Pass) (path : String) (bytes : ByteArray) (old : String)
    (store : Store) : Course → Prop
  | undecided (failure : Failure)
      (failed : store.verdict? (pass.pairOf path old bytes) = .error failure ∨
        store.symbolsOf (pass.target path) = .error failure) :
      Judgement pass path bytes old store (.still (.error failure))
  | kept (verdict : Store.Verdict)
      (known : store.verdict? (pass.pairOf path old bytes) = .ok (some verdict)) :
      Judgement pass path bytes old store (pass.verdictCourse path bytes verdict)
  | fresh (documented : NameMap Store.SymbolRow)
      (unknown : store.verdict? (pass.pairOf path old bytes) = .ok none)
      (listed : store.symbolsOf (pass.target path) = .ok documented) :
      Judgement pass path bytes old store
        ((pass.verdictCourse path bytes (pass.freshVerdict old bytes documented.names)).afterEffect
          (.wroteStore (.scored (pass.pairOf path old bytes)
            (pass.freshVerdict old bytes documented.names))))

theorem judgeCourse_judgement (pass : Pass) (path : String) (bytes : ByteArray) (old : String)
    (store : Store) :
    pass.Judgement path bytes old store (pass.judgeCourse path bytes old store) := by
  unfold judgeCourse
  dsimp only
  split
  · rename_i failure failed
    exact .undecided failure (.inl failed)
  · rename_i verdict known
    exact .kept verdict known
  · rename_i failure unknown failed
    exact .undecided failure (.inr failed)
  · rename_i documented unknown listed
    exact .fresh documented unknown listed

end DocDrift.Pass
