import DocDrift.Proofs.Pass.Effects
import DocDrift.Proofs.Store.Records
import Mathlib.Data.List.Forall2

/-!
Worlds that differ in times only. Settling the same files in both leaves them alike, if the store
fails in neither: the courses are the same but for the time in the verdicts that they keep.
-/

set_option autoImplicit false

namespace DocDrift.Pass

/-- The same pass at another time. -/
def again (pass : Pass) (now : String) : Pass :=
  { pass with now }

/-- Two worlds with the same files and the same records, but maybe for the symbols of one file. -/
structure Alike (torn : Option String) (left right : World) : Prop where
  files : left.files = right.files
  entries : ∀ path, left.store.entryOf? path = right.store.entryOf? path
  advice : ∀ pair, left.store.adviceOf? pair = right.store.adviceOf? pair
  symbols : ∀ path, torn ≠ some path → left.store.symbolsAt path = right.store.symbolsAt path

theorem Alike.of_ground {torn : Option String} {left right : World}
    (files : left.files = right.files) (store : left.store = right.store) :
    Alike torn left right := by
  refine ⟨files, ?_, ?_, ?_⟩
  all_goals
    intros
    rw [store]

/-! ### Changes in both -/

/-- The same change, but maybe for the time of a verdict. -/
inductive Similar : Effect → Effect → Prop
  | same (effect : Effect) : Similar effect effect
  | scored (pair : Store.Pair) (left right : Store.Verdict)
      (advice : left.toRow.advice? = right.toRow.advice?) :
      Similar (.wroteStore (.scored pair left)) (.wroteStore (.scored pair right))

theorem Similar.symm {effect effect' : Effect} (similar : Similar effect effect') :
    Similar effect' effect := by
  cases similar with
  | same effect => exact .same effect
  | scored pair left right advice => exact .scored pair right left advice.symm

theorem similar_refl (effects : List Effect) : List.Forall₂ Similar effects effects := by
  induction effects with
  | nil => exact .nil
  | cons effect rest ih => exact .cons (.same effect) ih

section Follow

variable {torn : Option String} {left right left' right' : World} {now later : String}

theorem write_alike {write write' : Store.Write} (alike : Alike torn left right)
    (entries : ∀ path before, write.entryAfter path before = write'.entryAfter path before)
    (advice : ∀ pair before, write.adviceAfter pair before = write'.adviceAfter pair before)
    (symbols : ∀ path before, write.symbolsAfter path before = write'.symbolsAfter path before)
    (followed : left.follow now (.wroteStore write) = .ok left')
    (followed' : right.follow later (.wroteStore write') = .ok right') :
    Alike torn left' right' := by
  obtain ⟨store, wrote, rfl⟩ := follow_wroteStore.mp followed
  obtain ⟨store', wrote', rfl⟩ := follow_wroteStore.mp followed'
  refine ⟨alike.files, ?_, ?_, ?_⟩
  · intro path
    change store.entryOf? path = store'.entryOf? path
    rw [Store.entryOf?_write wrote, Store.entryOf?_write wrote', alike.entries, entries]
  · intro pair
    change store.adviceOf? pair = store'.adviceOf? pair
    rw [Store.adviceOf?_write wrote, Store.adviceOf?_write wrote', alike.advice, advice]
  · intro path whole
    change store.symbolsAt path = store'.symbolsAt path
    rw [Store.symbolsAt_write wrote, Store.symbolsAt_write wrote', alike.symbols path whole,
      symbols]

theorem follow_alike {effect effect' : Effect} (alike : Alike torn left right)
    (similar : Similar effect effect') (followed : left.follow now effect = .ok left')
    (followed' : right.follow later effect' = .ok right') : Alike torn left' right' := by
  cases similar with
  | same effect =>
      cases effect with
      | madeParent path =>
          obtain ⟨files, made, rfl⟩ := follow_madeParent.mp followed
          obtain ⟨files', made', rfl⟩ := follow_madeParent.mp followed'
          rw [alike.files, made'] at made
          cases made
          exact ⟨rfl, alike.entries, alike.advice, alike.symbols⟩
      | wroteFile path text =>
          obtain ⟨files, wrote, rfl⟩ := follow_wroteFile.mp followed
          obtain ⟨files', wrote', rfl⟩ := follow_wroteFile.mp followed'
          rw [alike.files, wrote'] at wrote
          cases wrote
          exact ⟨rfl, alike.entries, alike.advice, alike.symbols⟩
      | wroteStore write =>
          exact write_alike alike (fun _ _ => rfl) (fun _ _ => rfl) (fun _ _ => rfl) followed
            followed'
  | scored pair verdict verdict' advice =>
      have advised : ∀ other before,
          (Store.Write.scored pair verdict).adviceAfter other before =
            (Store.Write.scored pair verdict').adviceAfter other before := by
        intro other before
        rw [Store.Write.adviceAfter, Store.Write.adviceAfter, advice]
      refine write_alike alike ?_ advised ?_ followed followed'
      · intro path before
        rfl
      · intro path before
        rfl

/-- A change of files fails in both of two worlds or in none. -/
theorem follow_fails {effect effect' : Effect} {fault : FileFault}
    (files : left.files = right.files) (similar : Similar effect effect')
    (failed : left.follow now effect = .error (.file fault)) :
    right.follow later effect' = .error (.file fault) := by
  cases similar with
  | same effect =>
      cases effect with
      | madeParent path =>
          rw [World.follow] at failed ⊢
          rw [← files]
          cases made : left.files.makeParent path with
          | ok files =>
              rw [made] at failed
              cases failed
          | error other =>
              rw [made] at failed
              exact failed
      | wroteFile path text =>
          rw [World.follow] at failed ⊢
          rw [← files]
          cases wrote : left.files.write path text.toUTF8 with
          | ok files =>
              rw [wrote] at failed
              cases failed
          | error other =>
              rw [wrote] at failed
              exact failed
      | wroteStore write => cases follow_wroteStore_error failed
  | scored pair verdict verdict' advice => cases follow_wroteStore_error failed

/-- Similar changes keep worlds alike, if the store fails in neither. -/
theorem carry_alike {α : Type} {effects effects' : List Effect}
    {result result' ended ended' : Except Failure α} {last last' : World}
    (alike : Alike torn left right) (similar : List.Forall₂ Similar effects effects')
    (carried : carry now result effects left = (ended, last))
    (carried' : carry later result' effects' right = (ended', last'))
    (sound : ended ≠ .error .store) (sound' : ended' ≠ .error .store) :
    Alike torn last last' := by
  induction similar generalizing left right with
  | nil =>
      cases carried
      cases carried'
      exact alike
  | @cons effect effect' rest rest' first others ih =>
      rw [carry] at carried carried'
      cases followed : left.follow now effect with
      | ok next =>
          cases followed' : right.follow later effect' with
          | ok next' =>
              rw [followed] at carried
              rw [followed'] at carried'
              exact ih (follow_alike alike first followed followed') carried carried'
          | error failure =>
              rw [followed'] at carried'
              cases carried'
              rcases follow_error followed' with rfl | ⟨fault, rfl⟩
              · exact absurd rfl sound'
              · have failed : left.follow now effect = .error (.file fault) :=
                  follow_fails alike.files.symm first.symm followed'
                rw [followed] at failed
                cases failed
      | error failure =>
          rw [followed] at carried
          cases carried
          rcases follow_error followed with rfl | ⟨fault, rfl⟩
          · exact absurd rfl sound
          · rw [follow_fails alike.files first followed] at carried'
            cases carried'
            exact alike

end Follow

/-! ### Courses in both -/

/-- A course that does not end with a failure of the store before it changes anything. -/
def Course.Calm (course : Course) : Prop :=
  ¬(course.effects = [] ∧ course.result = .error .store)

section Courses

variable {pass : Pass} {path : String} {base : Option String}

theorem settled_calm {world after : World} {outcome : Outcome}
    (settled : pass.settled path base world = (.ok outcome, after)) :
    (pass.course path base world.files world.store).Calm := by
  rintro ⟨none, failed⟩
  unfold Pass.settled Course.carriedOut at settled
  rw [none, failed, carry] at settled
  cases settled

/-- What settling a file comes to: its course is carried out as far as that goes, and if it fails
then not by the store. -/
theorem settled_carriage {world after : World} {outcome : Outcome}
    (settled : pass.settled path base world = (.ok outcome, after)) :
    ∃ (begun : World) (ended : Except Failure Outcome),
      begun.files = world.files ∧ begun.store = world.store ∧ begun.effects = world.effects ∧
      carry pass.now (pass.course path base world.files world.store).result
        (pass.course path base world.files world.store).effects begun = (ended, after) ∧
      ended ≠ .error .store := by
  obtain ⟨ended, carried, reported⟩ := settled_ended settled
  refine ⟨{ world with asked := world.asked ++
    (pass.course path base world.files world.store).asked }, ended, rfl, rfl, rfl, carried,
    reported.sound⟩

theorem documentCourse_score (bytes : ByteArray) (score score' : Option Nat) :
    (pass.documentCourse path bytes score').effects =
      (pass.documentCourse path bytes score).effects := by
  rw [documentCourse, documentCourse]
  cases pass.generator path (Text.decodeLossy bytes) <;> rfl

theorem documentCourse_again (later : String) (bytes : ByteArray) (score score' : Option Nat) :
    ((pass.again later).documentCourse path bytes score').effects =
      (pass.documentCourse path bytes score).effects :=
  documentCourse_score bytes score score'

theorem documentCourse_similar (later : String) (bytes : ByteArray) :
    List.Forall₂ Similar (pass.documentCourse path bytes none).effects
      ((pass.again later).documentCourse path bytes none).effects := by
  rw [documentCourse_again later bytes none none]
  exact similar_refl _

theorem verdictCourse_again (later : String) (bytes : ByteArray) {verdict verdict' : Store.Verdict}
    (advice : verdict'.recommendation.regenerate = verdict.recommendation.regenerate) :
    ((pass.again later).verdictCourse path bytes verdict').effects =
      (pass.verdictCourse path bytes verdict).effects := by
  rw [verdictCourse, verdictCourse, advice]
  split
  · exact documentCourse_again later bytes _ _
  · rfl

theorem undecided_not_calm {store : Store} {pair : Store.Pair} {file : String} {failure : Failure}
    (failed : store.verdict? pair = .error failure ∨ store.symbolsOf file = .error failure) :
    ¬(Course.still (.error failure)).Calm := by
  intro calm
  apply calm
  rcases failed with failed | failed
  · rw [Store.verdict?_error failed]
    exact ⟨rfl, rfl⟩
  · rw [Store.symbolsOf_error failed]
    exact ⟨rfl, rfl⟩

theorem pairOf_again (later old : String) (bytes : ByteArray) :
    (pass.again later).pairOf path old bytes = pass.pairOf path old bytes := rfl

theorem freshVerdict_again (later old : String) (bytes : ByteArray) (names : List String) :
    (pass.again later).freshVerdict old bytes names =
      { pass.freshVerdict old bytes names with time := later } := by
  dsimp only [freshVerdict, again]

/-- A change is judged alike in stores that advise alike and register the same names. -/
theorem judgeCourse_similar (later : String) {bytes : ByteArray} {old : String}
    {left right : Store}
    (advice : left.adviceOf? (pass.pairOf path old bytes) =
      right.adviceOf? (pass.pairOf path old bytes))
    (symbols : left.symbolsAt (pass.target path) = right.symbolsAt (pass.target path))
    (calm : (pass.judgeCourse path bytes old left).Calm)
    (calm' : ((pass.again later).judgeCourse path bytes old right).Calm) :
    List.Forall₂ Similar (pass.judgeCourse path bytes old left).effects
      ((pass.again later).judgeCourse path bytes old right).effects := by
  have judged := judgeCourse_judgement pass path bytes old left
  have judged' := judgeCourse_judgement (pass.again later) path bytes old right
  generalize pass.judgeCourse path bytes old left = course at judged calm ⊢
  generalize (pass.again later).judgeCourse path bytes old right = course' at judged' calm' ⊢
  cases judged with
  | undecided failure failed => exact absurd calm (undecided_not_calm failed)
  | kept verdict known =>
      have advised := Store.adviceOf?_some known
      cases judged' with
      | undecided failure failed => exact absurd calm' (undecided_not_calm failed)
      | kept verdict' known' =>
          have advised' := Store.adviceOf?_some known'
          have same : some (some verdict.recommendation.regenerate) =
              some (some verdict'.recommendation.regenerate) :=
            advised.symm.trans (advice.trans advised')
          simp only [Option.some.injEq] at same
          rw [verdictCourse_again later bytes same.symm]
          exact similar_refl _
      | fresh documented unknown listed =>
          have none := Store.adviceOf?_none unknown
          cases advised.symm.trans (advice.trans none)
  | fresh documented unknown listed =>
      have none := Store.adviceOf?_none unknown
      cases judged' with
      | undecided failure failed => exact absurd calm' (undecided_not_calm failed)
      | kept verdict' known' =>
          have advised' := Store.adviceOf?_some known'
          cases none.symm.trans (advice.trans advised')
      | fresh documented' unknown' listed' =>
          have place : (pass.again later).target path = pass.target path := rfl
          have names : documented'.names = documented.names := by
            rw [Store.symbolsOf_names listed, symbols, Store.symbolsOf_names listed', place]
          rw [Course.afterEffect_effects, Course.afterEffect_effects, names, freshVerdict_again,
            pairOf_again]
          generalize pass.freshVerdict old bytes documented.names = verdict
          have advised : verdict.toRow.advice? = { verdict with time := later }.toRow.advice? :=
            (Store.advice?_time verdict later).symm
          refine .cons (.scored _ _ _ advised) ?_
          rw [verdictCourse_again later bytes rfl]
          exact similar_refl _

/-- Contents that differ from what was documented are evaluated alike. -/
theorem changedCourse_similar (later : String) {bytes : ByteArray} {left right : Store}
    (isNew : Bool) (advice : ∀ pair, left.adviceOf? pair = right.adviceOf? pair)
    (symbols : left.symbolsAt (pass.target path) = right.symbolsAt (pass.target path))
    (calm : (pass.changedCourse path base bytes isNew left).Calm)
    (calm' : ((pass.again later).changedCourse path base bytes isNew right).Calm) :
    List.Forall₂ Similar (pass.changedCourse path base bytes isNew left).effects
      ((pass.again later).changedCourse path base bytes isNew right).effects := by
  unfold changedCourse at calm calm' ⊢
  have history : (pass.again later).history = pass.history := rfl
  rw [history] at calm' ⊢
  cases base with
  | none => exact documentCourse_similar later bytes
  | some commit =>
      cases isNew with
      | true => exact documentCourse_similar later bytes
      | false =>
          dsimp only at calm calm' ⊢
          rw [Course.afterQuestion_effects, Course.afterQuestion_effects]
          -- Both passes ask the same history, so both take the same branch.
          cases told : pass.history.textAt path commit with
          | error failure => exact similar_refl _
          | ok text =>
              rw [told] at calm calm'
              cases text with
              | none => exact documentCourse_similar later bytes
              | some old => exact judgeCourse_similar later (advice _) symbols calm calm'

theorem contentCourse_similar (later : String) {bytes : ByteArray} {left right : Store}
    (digest : left.digestOf? (pass.target path) = right.digestOf? (pass.target path))
    (advice : ∀ pair, left.adviceOf? pair = right.adviceOf? pair)
    (symbols : left.symbolsAt (pass.target path) = right.symbolsAt (pass.target path))
    (calm : (pass.contentCourse path base bytes left).Calm)
    (calm' : ((pass.again later).contentCourse path base bytes right).Calm) :
    List.Forall₂ Similar (pass.contentCourse path base bytes left).effects
      ((pass.again later).contentCourse path base bytes right).effects := by
  unfold contentCourse at calm calm' ⊢
  have place : (pass.again later).target path = pass.target path := rfl
  have force : (pass.again later).force = pass.force := rfl
  rw [place] at calm' ⊢
  rw [Store.check_eq] at calm calm' ⊢
  rw [Store.check_eq]
  cases held : left.ledger with
  | none =>
      rw [held] at calm
      exact absurd ⟨rfl, rfl⟩ calm
  | some ledger =>
      cases held' : right.ledger with
      | none =>
          rw [held'] at calm'
          exact absurd ⟨rfl, rfl⟩ calm'
      | some ledger' =>
          rw [held] at calm
          rw [held'] at calm'
          dsimp only at calm calm' ⊢
          rw [digest] at calm ⊢
          rw [force] at calm' ⊢
          split
          case isTrue => exact similar_refl _
          case isFalse active =>
            rw [if_neg active] at calm calm'
            exact changedCourse_similar later _ advice symbols calm calm'

theorem course_similar (later : String) {torn : Option String} {left right : World}
    (alike : Alike torn left right) (whole : torn ≠ some (pass.target path))
    (calm : (pass.course path base left.files left.store).Calm)
    (calm' : ((pass.again later).course path base right.files right.store).Calm) :
    List.Forall₂ Similar (pass.course path base left.files left.store).effects
      ((pass.again later).course path base right.files right.store).effects := by
  unfold course at calm calm' ⊢
  have place : (pass.again later).target path = pass.target path := rfl
  rw [place, ← alike.files] at calm' ⊢
  split
  case isFalse gone => exact similar_refl _
  case isTrue present =>
    rw [if_pos present] at calm calm'
    cases read : left.files.read (pass.target path) with
    | error fault => exact similar_refl _
    | ok bytes =>
        rw [read] at calm calm'
        refine contentCourse_similar later ?_ alike.advice (alike.symbols _ whole) calm calm'
        rw [Store.digestOf?_eq, Store.digestOf?_eq, alike.entries]

theorem settled_alike (later : String) {torn : Option String} {left right last last' : World}
    {outcome outcome' : Outcome} (alike : Alike torn left right)
    (whole : torn ≠ some (pass.target path))
    (settled : pass.settled path base left = (.ok outcome, last))
    (settled' : (pass.again later).settled path base right = (.ok outcome', last')) :
    Alike torn last last' := by
  have similar := course_similar later alike whole (settled_calm settled) (settled_calm settled')
  obtain ⟨begun, ended, files, store, _listed, carried, sound⟩ := settled_carriage settled
  obtain ⟨begun', ended', files', store', _listed', carried', sound'⟩ := settled_carriage settled'
  refine carry_alike ?_ similar carried carried' sound sound'
  refine ⟨?_, ?_, ?_, ?_⟩
  · rw [files, files', alike.files]
  · rw [store, store']
    exact alike.entries
  · rw [store, store']
    exact alike.advice
  · rw [store, store']
    exact alike.symbols

end Courses

end DocDrift.Pass
