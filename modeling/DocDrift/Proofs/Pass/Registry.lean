import DocDrift.Proofs.Pass.Cut
import DocDrift.Proofs.Pass.Outcomes
import DocDrift.Proofs.Pass.Runs
import DocDrift.Proofs.Store.Registry

/-!
The register of symbols over any run of passes and clean-ups, of any histories, files and generators.
If a file has symbols in the register, then it has a row in the ledger, and its symbols are those of
the contents that were documented last among those whose text was accepted, all with the digest of
these contents. Contents with the same digest are taken to be the same.
-/

set_option autoImplicit false

namespace DocDrift.Pass

/-! ### What settling a file depends on -/

namespace Matches

variable {left right : World}

/-- A change succeeds in both of two worlds with the same files and store, or fails in the same
way. -/
theorem follow_same (same : Matches left right) (now : String) (effect : Effect) :
    (∃ next next', left.follow now effect = .ok next ∧ right.follow now effect = .ok next' ∧
        Matches next next') ∨
      ∃ failure, left.follow now effect = .error failure ∧
        right.follow now effect = .error failure := by
  obtain ⟨files, store, effects, asked⟩ := left
  obtain ⟨files', store', effects', asked'⟩ := right
  obtain ⟨sameFiles, sameStore⟩ := same
  dsimp only at sameFiles sameStore
  subst sameFiles sameStore
  cases effect with
  | madeParent path =>
      cases made : files.makeParent path with
      | ok next =>
          exact .inl ⟨_, _, follow_madeParent.mpr ⟨next, made, rfl⟩,
            follow_madeParent.mpr ⟨next, made, rfl⟩, rfl, rfl⟩
      | error fault =>
          refine .inr ⟨.file fault, ?_, ?_⟩ <;> rw [World.follow, made]
  | wroteFile path text =>
      cases wrote : files.write path text.toUTF8 with
      | ok next =>
          exact .inl ⟨_, _, follow_wroteFile.mpr ⟨next, wrote, rfl⟩,
            follow_wroteFile.mpr ⟨next, wrote, rfl⟩, rfl, rfl⟩
      | error fault =>
          refine .inr ⟨.file fault, ?_, ?_⟩ <;> rw [World.follow, wrote]
  | wroteStore write =>
      cases wrote : store.write now write with
      | ok next =>
          exact .inl ⟨_, _, follow_wroteStore.mpr ⟨next, wrote, rfl⟩,
            follow_wroteStore.mpr ⟨next, wrote, rfl⟩, rfl, rfl⟩
      | error failure =>
          refine .inr ⟨failure, ?_, ?_⟩ <;> rw [World.follow, wrote] <;> rfl

theorem carried {α : Type} (same : Matches left right) (now : String) (result : Except Failure α)
    (effects : List Effect) :
    (Pass.carry now result effects left).1 = (Pass.carry now result effects right).1 ∧
      Matches (Pass.carry now result effects left).2 (Pass.carry now result effects right).2 := by
  induction effects generalizing left right with
  | nil => exact ⟨rfl, same⟩
  | cons effect rest ih =>
      rw [Pass.carry, Pass.carry]
      rcases same.follow_same now effect with
        ⟨next, next', followed, followed', sameNext⟩ | ⟨failure, failed, failed'⟩
      · rw [followed, followed']
        exact ih sameNext
      · rw [failed, failed']
        exact ⟨rfl, same⟩

theorem carriedOut (same : Matches left right) (course : Course) (now : String) :
    (course.carriedOut now left).1 = (course.carriedOut now right).1 ∧
      Matches (course.carriedOut now left).2 (course.carriedOut now right).2 := by
  have begun : Matches { left with asked := left.asked ++ course.asked }
      { right with asked := right.asked ++ course.asked } := ⟨same.files, same.store⟩
  exact begun.carried now course.result course.effects

/-- Settling a file depends on files and store only. -/
theorem settled (same : Matches left right) (pass : Pass) (path : String) (base : Option String) :
    (pass.settled path base left).1 = (pass.settled path base right).1 ∧
      Matches (pass.settled path base left).2 (pass.settled path base right).2 := by
  have alike : pass.course path base left.files left.store =
      pass.course path base right.files right.store := by rw [same.files, same.store]
  unfold Pass.settled
  rw [alike]
  generalize pass.course path base right.files right.store = course
  have carried := same.carriedOut course pass.now
  revert carried
  rcases course.carriedOut pass.now left with ⟨ended, reached⟩
  rcases course.carriedOut pass.now right with ⟨ended', reached'⟩
  rintro ⟨rfl, sameReached⟩
  cases ended with
  | ok outcome => exact ⟨rfl, sameReached⟩
  | error failure =>
      dsimp only
      split <;> exact ⟨rfl, sameReached⟩

end Matches

/-! ### What was documented -/

/-- Contents that a document was made of, and the file that they were read from, as the store names
it. -/
structure Reading where
  path : String
  bytes : ByteArray

/-- Contents that count as documented: those whose text is accepted. -/
def accepted (path : String) (bytes : ByteArray) : List Reading :=
  (summaryOf bytes).elim [] (fun _ => [⟨path, bytes⟩])

/-- The contents that a file was documented with, if it was and their text was accepted. -/
def readingOf (pass : Pass) (path : String) (files : FileTree) :
    Except Failure Outcome → List Reading
  | .ok (.processed _ _ _) =>
      (files.read (pass.target path)).toOption.elim [] (accepted (pass.target path))
  | _ => []

/-- The contents that files are documented with when they are settled one after another. -/
def readings (pass : Pass) (base : Option String) :
    List String → FileTree → Store → List Reading
  | [], _, _ => []
  | path :: rest, files, store =>
      match pass.settled path base (World.start files store) with
      | (.error failure, _) => pass.readingOf path files (.error failure)
      | (.ok outcome, after) =>
          pass.readingOf path files (.ok outcome) ++
            readings pass base rest after.files after.store

/-- The contents that a pass documents. -/
def recorded (pass : Pass) (files : FileTree) (store : Store) : List Reading :=
  match pass.plan store with
  | .ok (.settle _ _ base paths) => pass.readings base paths files store
  | _ => []

/-- The contents that were documented last of a file. -/
def latest (log : List Reading) (path : String) : Option ByteArray :=
  ((log.filter (fun reading => reading.path == path)).getLast?).map Reading.bytes

/-- Contents with the same digest are the same. -/
def Distinct (log : List Reading) : Prop :=
  ∀ reading ∈ log, ∀ other ∈ log,
    Digest.ofBytes reading.bytes = Digest.ofBytes other.bytes → reading.bytes = other.bytes

/-- The symbols of a file in the register: if there are any, the file has a row in the ledger, and
the symbols are those of the contents that were documented last, with the digest of these. -/
def Registered (store : Store) (log : List Reading) (path : String) : Prop :=
  ∃ rows, store.symbolsOf path = .ok rows ∧ (rows ≠ [] →
    (∃ row, store.row? path = .ok (some row)) ∧
    ∃ bytes summary, latest log path = some bytes ∧
      Summary.ofSource (Text.decodeLossy bytes) = .ok summary ∧
      (∀ entry ∈ rows, entry.2.digest = Digest.ofBytes bytes) ∧
      ∀ name, name ∈ rows.names ↔ name ∈ summary.symbolNames)

section Logs

variable {log more : List Reading} {path : String} {bytes : ByteArray}

theorem latest_concat_self : latest (log ++ [⟨path, bytes⟩]) path = some bytes := by
  simp [latest]

theorem latest_concat_of_ne {other : String} (different : other ≠ path) :
    latest (log ++ [⟨path, bytes⟩]) other = latest log other := by
  simp [latest, different.symm]

theorem mem_of_latest (found : latest log path = some bytes) :
    ∃ reading ∈ log, reading.bytes = bytes := by
  obtain ⟨reading, last, same⟩ := Option.map_eq_some_iff.mp found
  exact ⟨reading, (List.mem_filter.mp (List.mem_of_getLast? last)).1, same⟩

theorem Distinct.earlier (distinct : Distinct (log ++ more)) : Distinct log := by
  intro reading mem other mem'
  exact distinct reading (List.mem_append_left _ mem) other (List.mem_append_left _ mem')

theorem Registered.congr {store next : Store}
    (symbols : next.symbolsOf path = store.symbolsOf path)
    (row : next.row? path = store.row? path) (registered : Registered store log path) :
    Registered next log path := by
  unfold Registered
  rw [symbols, row]
  exact registered

end Logs

/-! ### Settling files -/

section Settling

variable {pass : Pass} {path : String} {base : Option String} {log : List Reading}
  {world after : World} {bytes : ByteArray}

theorem registered_of_accepted {summary : Summary} {document : String}
    (registered : Registered world.store log (pass.target path))
    (distinct : Distinct (log ++ [⟨pass.target path, bytes⟩]))
    (parsed : Summary.ofSource (Text.decodeLossy bytes) = .ok summary)
    (notes : pass.Notes path bytes document (world.store.holdingOf (pass.target path))
      (after.store.holdingOf (pass.target path))) :
    Registered after.store (log ++ [⟨pass.target path, bytes⟩]) (pass.target path) := by
  obtain ⟨before, heldBefore, earlier⟩ := registered
  obtain ⟨rows, held, listed⟩ := notes.listed summary parsed
  have same : before = rows := Except.ok.inj (heldBefore.symm.trans held)
  subst same
  refine ⟨_, listed, fun _some => ⟨⟨_, notes.row⟩, bytes, summary, latest_concat_self, parsed,
    fun entry mem => Store.listSymbols_digest mem, fun name => ?_⟩⟩
  apply Store.mem_names_listSymbols
  -- symbols that have the digest already come from the same contents
  intro entry mem digest
  obtain ⟨_row, earlierBytes, earlierSummary, found, parsedEarlier, digests, names⟩ :=
    earlier (List.ne_nil_of_mem mem)
  obtain ⟨reading, memLog, read⟩ := mem_of_latest found
  have sameBytes : reading.bytes = bytes := by
    apply distinct reading (List.mem_append_left _ memLog) ⟨pass.target path, bytes⟩
      (List.mem_append_right _ (List.mem_singleton_self _))
    rw [read, ← digests entry mem, digest]
  rw [← read, sameBytes, parsed] at parsedEarlier
  cases parsedEarlier
  exact (names entry.1).mp (List.mem_map_of_mem mem)

theorem readingOf_processed {name document : String} {score : Option Nat} {files : FileTree}
    (read : files.read (pass.target path) = .ok bytes) :
    pass.readingOf path files (.ok (.processed name score document)) =
      accepted (pass.target path) bytes := by
  rw [readingOf, read]
  rfl

theorem accepted_ok {summary : Summary}
    (parsed : Summary.ofSource (Text.decodeLossy bytes) = .ok summary) :
    accepted path bytes = [⟨path, bytes⟩] := by
  rw [accepted, summaryOf, parsed]
  rfl

theorem accepted_error {fault : Source.SyntaxError}
    (refused : Summary.ofSource (Text.decodeLossy bytes) = .error fault) :
    accepted path bytes = [] := by
  rw [accepted, summaryOf, refused]
  rfl

theorem settled_registers {outcome : Outcome} (registered : ∀ file, Registered world.store log file)
    (settled : pass.settled path base world = (.ok outcome, after))
    (distinct : Distinct (log ++ pass.readingOf path world.files (.ok outcome))) (file : String) :
    Registered after.store (log ++ pass.readingOf path world.files (.ok outcome)) file := by
  have settles := settled_settles settled
  have untouched : file ∉ pass.documented [outcome] → Registered after.store log file := by
    intro absent
    have held := settles.accounts.held file absent
    exact (registered file).congr (congrArg Store.Holding.symbols held)
      (congrArg Store.Holding.row held)
  cases outcome with
  | skipped name reason =>
      have none : pass.readingOf path world.files (.ok (.skipped name reason)) = [] := rfl
      rw [none, List.append_nil]
      exact untouched List.not_mem_nil
  | failed name message =>
      have none : pass.readingOf path world.files (.ok (.failed name message)) = [] := rfl
      rw [none, List.append_nil]
      exact untouched List.not_mem_nil
  | processed name score document =>
      obtain ⟨bytes, read, notes⟩ := settles.noted name score document rfl
      have sameName : name = path := settled_path settled
      rw [readingOf_processed read] at distinct ⊢
      by_cases same : file = pass.target path
      · subst same
        cases parsed : Summary.ofSource (Text.decodeLossy bytes) with
        | ok summary =>
            rw [accepted_ok parsed] at distinct ⊢
            exact registered_of_accepted (registered _) distinct parsed notes
        | error fault =>
            rw [accepted_error parsed, List.append_nil]
            obtain ⟨rows, held, earlier⟩ := registered (pass.target path)
            refine ⟨rows, (notes.unlisted fault parsed).trans held, fun some => ?_⟩
            exact ⟨⟨_, notes.row⟩, (earlier some).2⟩
      · have absent : file ∉ pass.documented [.processed name score document] := by
          intro mem
          exact same ((List.mem_singleton.mp mem).trans (congrArg pass.target sameName))
        cases parsed : Summary.ofSource (Text.decodeLossy bytes) with
        | ok summary =>
            rw [accepted_ok parsed]
            obtain ⟨rows, held, some⟩ := untouched absent
            refine ⟨rows, held, fun there => ?_⟩
            rw [latest_concat_of_ne same]
            exact some there
        | error fault =>
            rw [accepted_error parsed, List.append_nil]
            exact untouched absent

theorem readings_cons {rest : List String} {outcome : Outcome}
    (settled : pass.settled path base world = (.ok outcome, after)) :
    pass.readings base (path :: rest) world.files world.store =
      pass.readingOf path world.files (.ok outcome) ++
        pass.readings base rest after.files after.store := by
  have same : Matches (World.start world.files world.store) world := ⟨rfl, rfl⟩
  obtain ⟨result, reached⟩ := same.settled pass path base
  rw [settled] at result reached
  rw [readings]
  revert result reached
  rcases pass.settled path base (World.start world.files world.store) with ⟨ended, begun⟩
  rintro rfl ⟨files, store⟩
  dsimp only at files store ⊢
  rw [files, store]

theorem settledAll_registers {paths : List String} {outcomes : List Outcome} {last : World}
    (registered : ∀ file, Registered world.store log file)
    (settled : pass.settledAll base paths world = (.ok outcomes, last))
    (distinct : Distinct (log ++ pass.readings base paths world.files world.store)) (file : String) :
    Registered last.store (log ++ pass.readings base paths world.files world.store) file := by
  induction paths generalizing world outcomes log with
  | nil =>
      obtain ⟨_none, rfl⟩ := settledAll_nil settled
      rw [readings, List.append_nil]
      exact registered file
  | cons path rest ih =>
      obtain ⟨outcome, others, middle, first, rested, _both⟩ := settledAll_cons settled
      rw [readings_cons first, ← List.append_assoc] at distinct ⊢
      have registeredFirst := fun file => settled_registers registered first distinct.earlier file
      exact ih registeredFirst rested distinct

end Settling

/-! ### Runs -/

/-- The stores that passes and clean-ups lead to from an empty one, with the contents that were
documented on the way. Files, histories and generators are others each time; a pass may end early,
but not because the store fails. -/
inductive Leads : Store → List Reading → Prop
  | empty : Leads .empty []
  | passed (pass : Pass) (files : FileTree) (store : Store) (log : List Reading)
      (before : Leads store log) (survived : (pass.run files store).1 ≠ .error .store) :
      Leads (pass.run files store).2.store (log ++ pass.recorded files store)
  | cleaned (isGone : String → Bool) (store next : Store) (log : List Reading) (count : Nat)
      (before : Leads store log) (cleaned : store.cleanup isGone = .ok (next, count)) :
      Leads next log

theorem completed_registers {pass : Pass} {head : String} {previous base : Option String}
    {paths : List String} {world after : World} {result : Except Failure Report}
    {log : List Reading} (registered : ∀ file, Registered world.store log file)
    (ended : pass.completed head previous base paths world = (result, after))
    (survived : result ≠ .error .store)
    (distinct : Distinct (log ++ pass.readings base paths world.files world.store)) (file : String) :
    Registered after.store (log ++ pass.readings base paths world.files world.store) file := by
  unfold completed at ended
  rcases settled : pass.settledAll base paths world with ⟨failure | outcomes, middle⟩
  · rw [settled] at ended
    cases ended
    rw [settledAll_error settled] at survived
    exact absurd rfl survived
  · rw [settled] at ended
    dsimp only at ended
    cases followed : middle.follow pass.now (.wroteStore (.processed pass.repository head)) with
    | error failure =>
        rw [followed] at ended
        cases ended
        rw [follow_wroteStore_error followed] at survived
        exact absurd rfl survived
    | ok last =>
        rw [followed] at ended
        cases ended
        obtain ⟨next, wrote, rfl⟩ := follow_wroteStore.mp followed
        have held : next.holdingOf file = middle.store.holdingOf file := by
          apply Store.holdingOf_write wrote
          intro about
          cases about
        have reached := settledAll_registers registered settled distinct file
        exact reached.congr (congrArg Store.Holding.symbols held)
          (congrArg Store.Holding.row held)

theorem run_registers {pass : Pass} {files : FileTree} {store : Store} {log : List Reading}
    (registered : ∀ file, Registered store log file)
    (survived : (pass.run files store).1 ≠ .error .store)
    (distinct : Distinct (log ++ pass.recorded files store)) (file : String) :
    Registered (pass.run files store).2.store (log ++ pass.recorded files store) file := by
  obtain ⟨asked, carried⟩ := run_eq pass files store
  rw [carried] at survived ⊢
  unfold recorded at distinct ⊢
  generalize pass.plan store = plan at survived distinct ⊢
  cases plan with
  | error failure =>
      dsimp only
      rw [List.append_nil]
      exact registered file
  | ok plan =>
      cases plan with
      | nothing report =>
          dsimp only
          rw [List.append_nil]
          exact registered file
      | settle head previous base paths =>
          exact completed_registers registered rfl survived distinct file

/-- The register is right in every state of a run. -/
theorem registered_of_leads {store : Store} {log : List Reading} (leads : Leads store log)
    (distinct : Distinct log) (path : String) : Registered store log path := by
  induction leads generalizing path with
  | empty => exact ⟨[], rfl, fun some => absurd rfl some⟩
  | passed pass files store log before survived ih =>
      exact run_registers (fun file => ih distinct.earlier file) survived distinct path
  | cleaned isGone store next log count before cleaned ih =>
      rcases Store.cleanup_holds cleaned path with none | ⟨symbols, row⟩
      · exact ⟨[], none, fun some => absurd rfl some⟩
      · exact (ih distinct path).congr symbols row

/-! ### A function that is renamed -/

/-- A forced pass over a repository in which the one function has another name by now. -/
def renamingPass : Pass :=
  { layoutPass "first" with force := true }

def renamedFiles : FileTree :=
  layoutFiles "<?php\nfunction g() {}\n"

def renamedStore : Store :=
  (renamingPass.run renamedFiles layoutStore).2.store

def renamedLog : List Reading :=
  [] ++ (layoutPass "first").recorded (layoutFiles "<?php\nfunction f() {}\n") .empty ++
    renamingPass.recorded renamedFiles layoutStore

theorem Distinct.of_nodup {log : List Reading}
    (nodup : (log.map (fun reading => Digest.ofBytes reading.bytes)).Nodup) : Distinct log := by
  intro reading mem other mem' same
  rw [List.inj_on_of_nodup_map nodup mem mem' same]

/-- The forced pass comes to its end, the two contents have different digests, and only the new name
is left. -/
theorem renamed_facts :
    (renamingPass.run renamedFiles layoutStore).1.toOption.isSome = true ∧
      (renamedLog.map (fun reading => Digest.ofBytes reading.bytes)).Nodup ∧
      (renamedStore.symbolsOf "/site/a.php").toOption.map NameMap.names = some ["g"] := by
  decide +kernel

theorem renamedStore_leads : Leads renamedStore renamedLog := by
  refine .passed renamingPass renamedFiles layoutStore _ ?_ ?_
  · refine .passed (layoutPass "first") _ .empty [] .empty ?_
    intro failed
    cases layoutPass_first.symm.trans failed
  · intro failed
    cases renamed_facts.1.symm.trans (congrArg (fun result => result.toOption.isSome) failed)

/-- Only the new name is left in the register, with the digest of the new contents. -/
theorem registered_of_renamed :
    (renamedStore.symbolsOf "/site/a.php").toOption.map NameMap.names = some ["g"] ∧
      Registered renamedStore renamedLog "/site/a.php" :=
  ⟨renamed_facts.2.2, registered_of_leads renamedStore_leads (.of_nodup renamed_facts.2.1) _⟩

end DocDrift.Pass
