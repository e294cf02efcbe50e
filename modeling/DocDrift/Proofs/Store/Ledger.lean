import DocDrift.Proofs.Names
import DocDrift.Proofs.Pass.Course
import DocDrift.Proofs.Store.Operations
import DocDrift.Proofs.Store.Registry

/-!
The ledger over a history. Of each file it keeps the last note that the file was documented, until a
clean-up does not find the file; the other operations leave it alone. What is counted of the ledger,
and how a file compares with it, follows from these notes.
-/

set_option autoImplicit false

namespace DocDrift

namespace NameMap

variable {α : Type} {map : NameMap α}

theorem Ascending.find?_eq_some (ascending : map.Ascending) (name : String) (value : α) :
    map.find? name = some value ↔ (name, value) ∈ map := by
  induction map with
  | nil => simp [find?]
  | cons entry rest ih =>
      obtain ⟨later, rising⟩ := List.pairwise_cons.mp ascending
      rw [find?_cons, List.mem_cons]
      by_cases same : entry.1 = name
      · have absent : (name, value) ∉ rest := by
          intro mem
          have less := later (name, value) mem
          rw [same] at less
          exact String.lt_irrefl name less
        rw [if_pos same, or_iff_left absent, Option.some.injEq]
        constructor
        · intro equal
          rw [← same, ← equal]
        · intro equal
          rw [← equal]
      · have other : (name, value) ≠ entry := by
          intro equal
          exact same (by rw [← equal])
        rw [if_neg same, ih rising, or_iff_right other]

end NameMap

namespace Store

/-! ### Notes -/

namespace Operation

/-- The operation notes this row for a file. -/
def Notes (path : String) (row : LedgerRow) : Operation → Prop
  | .wrote now (.documented other digest document) => other = path ∧ row = ⟨digest, document, now⟩
  | _ => False

/-- Nothing that was noted of a file before the operation counts after it. -/
def Settles (path : String) : Operation → Prop
  | .wrote _ (.documented other _ _) => other = path
  | .cleaned files => files.exists? path = false
  | _ => False

end Operation

/-- The row is the last that was noted for a file, and no clean-up has missed the file since. -/
def Stands (operations : List Operation) (path : String) (row : LedgerRow) : Prop :=
  ∃ earlier operation later, operations = earlier ++ operation :: later ∧
    operation.Notes path row ∧ ∀ other ∈ later, ¬other.Settles path

theorem stands_iff_lasts (operations : List Operation) (path : String) (row : LedgerRow) :
    Stands operations path row ↔
      Lasts (fun _ operation => operation.Notes path row) (fun _ operation => operation.Settles path)
        operations := by
  refine exists_congr fun earlier => exists_congr fun operation => exists_congr fun later => ?_
  refine and_congr_right' (and_congr_right' ?_)
  constructor
  · rintro last before other after rfl
    exact last other (by simp)
  · intro last other mem
    obtain ⟨before, after, split⟩ := List.mem_iff_append.mp mem
    exact last before other after split

theorem not_stands_nil (path : String) (row : LedgerRow) : ¬Stands [] path row :=
  (stands_iff_lasts [] path row).not.mpr not_lasts_nil

theorem stands_concat (operations : List Operation) (operation : Operation) (path : String)
    (row : LedgerRow) :
    Stands (operations ++ [operation]) path row ↔
      operation.Notes path row ∨ (Stands operations path row ∧ ¬operation.Settles path) := by
  rw [stands_iff_lasts, stands_iff_lasts]
  exact lasts_concat operations operation

/-! ### The ledger -/

section Ledger

variable {ledger : NameMap LedgerRow} {operations : List Operation}

theorem ascending_onLedger (ascending : ledger.Ascending) (operation : Operation) :
    NameMap.Ascending (operation.onLedger ledger) := by
  cases operation with
  | wrote now write =>
      cases write with
      | documented path digest document => exact ascending.insert path ⟨digest, document, now⟩
      | _ => exact ascending
  | cleaned files => exact List.Pairwise.filter _ ascending
  | reopened => exact ascending

theorem mem_onLedger (ascending : ledger.Ascending) (operation : Operation) (path : String)
    (row : LedgerRow) :
    (path, row) ∈ operation.onLedger ledger ↔
      operation.Notes path row ∨ ((path, row) ∈ ledger ∧ ¬operation.Settles path) := by
  cases operation with
  | wrote now write =>
      cases write with
      | documented other digest document =>
          rw [Operation.onLedger, Write.onLedger, NameMap.mem_insert ascending, Prod.mk.injEq,
            Operation.Notes, Operation.Settles, eq_comm (a := path), ne_comm]
      | _ => simp [Operation.onLedger, Write.onLedger, Operation.Notes, Operation.Settles]
  | cleaned files => simp [Operation.onLedger, Operation.Notes, Operation.Settles]
  | reopened => simp [Operation.onLedger, Operation.Notes, Operation.Settles]

/-- The invariant of a history: every table is there, and the ledger holds what stands. -/
theorem ledger_after (operations : List Operation) :
    (after operations).Whole ∧ ∃ ledger, (after operations).ledger = some ledger ∧
      ledger.Ascending ∧ ∀ path row, (path, row) ∈ ledger ↔ Stands operations path row := by
  induction operations using List.reverseRecOn with
  | nil =>
      refine ⟨whole_empty, [], rfl, .nil, ?_⟩
      intro path row
      exact iff_of_false List.not_mem_nil (not_stands_nil path row)
  | append_singleton operations operation ih =>
      obtain ⟨whole, ledger, held, ascending, holds⟩ := ih
      obtain ⟨next, changed⟩ := on_whole whole operation
      rw [after_concat]
      refine ⟨next, operation.onLedger ledger, ?_, ascending_onLedger ascending operation, ?_⟩
      · rw [changed, held, Option.map_some]
      · intro path row
        rw [mem_onLedger ascending, stands_concat, holds]

end Ledger

/-! ### The last time -/

theorem latest_eq_none (times : List String) : latest times = none ↔ times = [] := by
  cases times with
  | nil => simp [latest]
  | cons time rest =>
      rw [latest]
      split <;> simp

theorem latest_spec {times : List String} {time : String} (last : latest times = some time) :
    time ∈ times ∧ ∀ other ∈ times, other ≤ time := by
  induction times generalizing time with
  | nil => cases last
  | cons first rest ih =>
      rw [latest] at last
      split at last
      case h_1 other found =>
        obtain ⟨among, most⟩ := ih found
        split at last
        case isTrue less =>
          cases last
          refine ⟨List.mem_cons_of_mem _ among, List.forall_mem_cons.mpr ⟨?_, most⟩⟩
          exact String.not_lt.mp (String.lt_asymm less)
        case isFalse more =>
          cases last
          refine ⟨List.mem_cons_self, List.forall_mem_cons.mpr ⟨String.le_refl _, ?_⟩⟩
          intro later mem
          exact String.le_trans (most later mem) (String.not_lt.mp more)
      case h_2 none =>
        cases last
        rw [(latest_eq_none rest).mp none]
        simp

theorem latest_eq_some (times : List String) (time : String) :
    latest times = some time ↔ time ∈ times ∧ ∀ other ∈ times, other ≤ time := by
  constructor
  · exact latest_spec
  · rintro ⟨among, most⟩
    cases found : latest times with
    | none =>
        rw [(latest_eq_none times).mp found] at among
        cases among
    | some other =>
        obtain ⟨otherAmong, otherMost⟩ := latest_spec found
        rw [String.le_antisymm (most other otherAmong) (otherMost time among)]

/-! ### Answers -/

/-- What a store answers about the ledger after a history. -/
structure Answers (operations : List Operation) (store : Store) : Prop where
  row : ∀ path, ∃ found, store.row? path = .ok found ∧
    ∀ row, found = some row ↔ Stands operations path row
  /-- Each file has one row, in the order of the paths; they are counted, and the last is dated. -/
  entries : ∃ rows statistics, store.entries = .ok rows ∧ store.statistics = .ok statistics ∧
    rows.Ascending ∧ rows.names.Nodup ∧
    (∀ path row, (path, row) ∈ rows ↔ Stands operations path row) ∧
    statistics.files = rows.length ∧
    ∀ time, statistics.lastUpdated = some time ↔
      (∃ path row, Stands operations path row ∧ row.updatedAt = time) ∧
        ∀ path row, Stands operations path row → row.updatedAt ≤ time
  check : ∀ path contents, ∃ check, store.check path contents = .ok check ∧
    (check.isNew = true ↔ ¬∃ row, Stands operations path row) ∧
    (check.needsUpdate = false ↔
      ∃ row, Stands operations path row ∧ row.digest = Digest.ofBytes contents) ∧
    check.current = some (Digest.ofBytes contents) ∧ check.fault = none
  checkRead : ∀ (files : FileTree) (path : String),
    match files.read path with
    | .ok contents => store.checkRead path (files.read path) = store.check path contents
    | .error fault => ∃ check, store.checkRead path (files.read path) = .ok check ∧
        (check.isNew = true ↔ ¬∃ row, Stands operations path row) ∧
        check.needsUpdate = false ∧ check.current = none ∧ check.fault = some fault

section Answers

variable {store : Store} {ledger : NameMap LedgerRow} {operations : List Operation}

/-- The digest that was last noted for a file, if a note stands. -/
theorem digestOf?_stands (held : store.ledger = some ledger)
    (found : ∀ path row, ledger.find? path = some row ↔ Stands operations path row)
    (path : String) :
    (store.digestOf? path = none ↔ ¬∃ row, Stands operations path row) ∧
      ∀ digest, store.digestOf? path = some digest ↔
        ∃ row, Stands operations path row ∧ row.digest = digest := by
  rw [digestOf?, held, Option.bind_some]
  constructor
  · rw [Option.map_eq_none_iff, Option.eq_none_iff_forall_ne_some, not_exists]
    exact forall_congr' fun row => not_congr (found path row)
  · intro digest
    rw [Option.map_eq_some_iff]
    exact exists_congr fun row => and_congr_left' (found path row)

theorem checkRead_unreadable (held : store.ledger = some ledger) (path : String)
    (fault : FileFault) :
    store.checkRead path (.error fault) = .ok {
      needsUpdate := false
      isNew := (store.digestOf? path).isNone
      current := none
      last := store.digestOf? path
      fault := some fault } := by
  unfold checkRead row? digestOf?
  rw [held]
  rfl

theorem statistics_whole (whole : store.Whole) (held : store.ledger = some ledger) :
    ∃ statistics, store.statistics = .ok statistics ∧ statistics.files = ledger.length ∧
      statistics.lastUpdated = latest (ledger.values.map (·.updatedAt)) := by
  obtain ⟨symbols, listed⟩ := Option.isSome_iff_exists.mp whole.symbols
  obtain ⟨usage, spent⟩ := Option.isSome_iff_exists.mp whole.usage
  obtain ⟨analyses, scored⟩ := Option.isSome_iff_exists.mp whole.analyses
  rw [statistics, held, listed, spent, scored]
  exact ⟨_, rfl, rfl, rfl⟩

theorem latest_values (holds : ∀ path row, (path, row) ∈ ledger ↔ Stands operations path row)
    (time : String) :
    latest (ledger.values.map (·.updatedAt)) = some time ↔
      (∃ path row, Stands operations path row ∧ row.updatedAt = time) ∧
        ∀ path row, Stands operations path row → row.updatedAt ≤ time := by
  have among : ∀ other, other ∈ ledger.values.map (·.updatedAt) ↔
      ∃ path row, Stands operations path row ∧ row.updatedAt = other := by
    intro other
    simp [NameMap.values, holds]
  rw [latest_eq_some, among]
  apply and_congr_right
  intro _reached
  constructor
  · intro most path row stands
    exact most row.updatedAt ((among _).mpr ⟨path, row, stands, rfl⟩)
  · intro most other mem
    obtain ⟨path, row, stands, rfl⟩ := (among other).mp mem
    exact most path row stands

theorem answers_of_ledger (whole : store.Whole) (held : store.ledger = some ledger)
    (ascending : ledger.Ascending)
    (holds : ∀ path row, (path, row) ∈ ledger ↔ Stands operations path row) :
    Answers operations store := by
  have found : ∀ path row, ledger.find? path = some row ↔ Stands operations path row := by
    intro path row
    rw [ascending.find?_eq_some, holds]
  constructor
  case row =>
    intro path
    exact ⟨ledger.find? path, row?_held held path, found path⟩
  case entries =>
    obtain ⟨statistics, answered, files, last⟩ := statistics_whole whole held
    refine ⟨ledger, statistics, ?_, answered, ascending, ascending.nodup, holds, files, ?_⟩
    · rw [entries, held]
      rfl
    · intro time
      rw [last, latest_values holds]
  case check =>
    intro path contents
    obtain ⟨missing, digest⟩ := digestOf?_stands held found path
    rw [check_eq, held]
    refine ⟨_, rfl, ?_, ?_, rfl, rfl⟩
    · rw [Option.isNone_iff_eq_none, missing]
    · rw [bne_eq_false_iff_eq, digest]
  case checkRead =>
    intro files path
    obtain ⟨missing, _digest⟩ := digestOf?_stands held found path
    split
    case h_1 contents readable =>
      rw [readable]
      rfl
    case h_2 fault unreadable =>
      rw [unreadable, checkRead_unreadable held]
      refine ⟨_, rfl, ?_, rfl, rfl, rfl⟩
      rw [Option.isNone_iff_eq_none, missing]

end Answers

/-- After every history the ledger is that of the last writer, and asking it changes nothing. -/
theorem answers_after (operations : List Operation) :
    Answers operations (after operations) ∧
      ∀ (world : Pass.World) (path : String) (contents : ByteArray)
        (read : Except FileFault ByteArray),
        ((Pass.look (·.check path contents)).run world).2 = world ∧
          ((Pass.look (·.checkRead path read)).run world).2 = world := by
  obtain ⟨whole, ledger, held, ascending, holds⟩ := ledger_after operations
  refine ⟨answers_of_ledger whole held ascending holds, ?_⟩
  intro world path contents read
  rw [Pass.run_look, Pass.run_look]
  exact ⟨rfl, rfl⟩

example :
    (after [.wrote "monday" (.documented "a.php" "one" none), .reopened,
      .wrote "tuesday" (.documented "a.php" "two" none)]).row? "a.php" =
      .ok (some ⟨"two", none, "tuesday"⟩) :=
  rfl

end Store

end DocDrift
