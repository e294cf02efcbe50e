import DocDrift.FileTree
import DocDrift.Proofs.Store.Holdings
import Mathlib.Data.List.Induction

/-!
A history of a store: writes, clean-ups and reopenings in any order, with any times and any files.
An operation that fails leaves the store as it was. None of them loses a table, and what becomes of
the ledger depends on the ledger alone.
-/

set_option autoImplicit false

namespace DocDrift.Store

/-- What a store goes through. A clean-up goes by the files of its time. -/
inductive Operation
  | wrote (now : String) (write : Write)
  | cleaned (files : FileTree)
  | reopened

namespace Operation

def on (store : Store) : Operation → Store
  | .wrote now write => (store.write now write).toOption.getD store
  | .cleaned files =>
      ((store.cleanup fun path => !files.exists? path).toOption.map Prod.fst).getD store
  | .reopened => store.prepared

def onLedger (ledger : NameMap LedgerRow) : Operation → NameMap LedgerRow
  | .wrote now write => write.onLedger now ledger
  | .cleaned files => ledger.filter (fun row => files.exists? row.1)
  | .reopened => ledger

end Operation

/-- The store to which operations lead from an empty one. -/
def after (operations : List Operation) : Store :=
  operations.foldl (fun store operation => operation.on store) .empty

theorem after_concat (operations : List Operation) (operation : Operation) :
    after (operations ++ [operation]) = operation.on (after operations) := by
  simp [after]

/-! ### Tables -/

/-- No table is missing. -/
structure Whole (store : Store) : Prop where
  ledger : store.ledger.isSome
  markers : store.markers.isSome
  symbols : store.symbols.isSome
  usage : store.usage.isSome
  analyses : store.analyses.isSome

section Tables

variable {now : String} {store next : Store} {write : Write}

theorem whole_empty : Whole .empty :=
  ⟨rfl, rfl, rfl, rfl, rfl⟩

theorem whole_prepared (store : Store) : store.prepared.Whole :=
  ⟨rfl, rfl, rfl, rfl, rfl⟩

theorem whole_write (whole : store.Whole) (done : store.write now write = .ok next) :
    next.Whole := by
  obtain ⟨ledger, markers, symbols, analyses⟩ := write_tables done
  obtain ⟨spent, usage, _own⟩ := usage_write done
  constructor
  · simpa [ledger] using whole.ledger
  · simpa [markers] using whole.markers
  · simpa [symbols] using whole.symbols
  · simpa [usage] using whole.usage
  · simpa [analyses] using whole.analyses

theorem onLedger_of_error {failure : Failure} (whole : store.Whole)
    (failed : store.write now write = .error failure) (ledger : NameMap LedgerRow) :
    write.onLedger now ledger = ledger := by
  cases write with
  | documented path digest document =>
      obtain ⟨rows, held⟩ := Option.isSome_iff_exists.mp whole.ledger
      obtain ⟨next, done⟩ : ∃ next, store.write now (.documented path digest document) = .ok next :=
        ⟨_, write_documented.mpr ⟨rows, held, rfl⟩⟩
      rw [done] at failed
      contradiction
  | _ => rfl

theorem cleanup_whole (whole : store.Whole) (isGone : String → Bool) :
    ∃ next count, store.cleanup isGone = .ok (next, count) ∧ next.Whole ∧
      next.ledger = store.ledger.map (·.filter (fun row => !isGone row.1)) := by
  obtain ⟨ledger, held⟩ := Option.isSome_iff_exists.mp whole.ledger
  obtain ⟨symbols, listed⟩ := Option.isSome_iff_exists.mp whole.symbols
  unfold cleanup
  rw [held, listed]
  simp only [found, bind, Except.bind, pure, Except.pure]
  split
  case isTrue none =>
    refine ⟨store, 0, rfl, whole, ?_⟩
    have stays : ∀ row ∈ ledger, (!isGone row.1) = true := by
      simpa [NameMap.names] using none
    rw [held, Option.map_some, List.filter_eq_self.mpr stays]
  case isFalse some =>
    exact ⟨_, _, rfl, ⟨rfl, whole.markers, rfl, whole.usage, whole.analyses⟩, rfl⟩

theorem on_wrote (done : store.write now write = .ok next) :
    Operation.on store (.wrote now write) = next := by
  simp [Operation.on, done, Except.toOption]

theorem on_wrote_of_error {failure : Failure} (failed : store.write now write = .error failure) :
    Operation.on store (.wrote now write) = store := by
  simp [Operation.on, failed, Except.toOption]

theorem on_cleaned {files : FileTree} {count : Nat}
    (cleaned : store.cleanup (fun path => !files.exists? path) = .ok (next, count)) :
    Operation.on store (.cleaned files) = next := by
  simp [Operation.on, cleaned, Except.toOption]

theorem on_whole (whole : store.Whole) (operation : Operation) :
    (operation.on store).Whole ∧
      (operation.on store).ledger = store.ledger.map operation.onLedger := by
  cases operation with
  | wrote now write =>
      rcases done : store.write now write with failure | next
      · have idle : (Operation.wrote now write).onLedger = id :=
          funext (onLedger_of_error whole done)
        rw [on_wrote_of_error done, idle, Option.map_id]
        exact ⟨whole, rfl⟩
      · rw [on_wrote done]
        exact ⟨whole_write whole done, (write_tables done).1⟩
  | cleaned files =>
      obtain ⟨next, count, cleaned, reached, ledger⟩ :=
        cleanup_whole whole (fun path => !files.exists? path)
      rw [on_cleaned cleaned, ledger]
      simp only [Bool.not_not]
      exact ⟨reached, rfl⟩
  | reopened =>
      obtain ⟨ledger, held⟩ := Option.isSome_iff_exists.mp whole.ledger
      refine ⟨whole_prepared store, ?_⟩
      simp [Operation.on, prepared, held, Operation.onLedger]

end Tables

/-! ### What lasts -/

/-- Something began with an operation of a history, and no later one has ended it. Whether an
operation begins or ends it may depend on those before. -/
def Lasts (begins ends : List Operation → Operation → Prop) (operations : List Operation) : Prop :=
  ∃ earlier operation later, operations = earlier ++ operation :: later ∧
    begins earlier operation ∧
    ∀ before other after, later = before ++ other :: after →
      ¬ends (earlier ++ operation :: before) other

section Lasting

variable {begins ends : List Operation → Operation → Prop}

theorem not_lasts_nil : ¬Lasts begins ends [] := by
  rintro ⟨earlier, operation, later, split, _begins, _lasts⟩
  simp at split

theorem lasts_concat (operations : List Operation) (operation : Operation) :
    Lasts begins ends (operations ++ [operation]) ↔
      begins operations operation ∨ (Lasts begins ends operations ∧ ¬ends operations operation) := by
  constructor
  · rintro ⟨earlier, first, later, split, begun, lasts⟩
    rcases List.eq_nil_or_concat later with rfl | ⟨between, last, rfl⟩
    · obtain ⟨rfl, equal⟩ := List.append_inj' split rfl
      cases equal
      exact .inl begun
    · rw [List.concat_eq_append, ← List.cons_append, ← List.append_assoc] at split
      obtain ⟨rfl, equal⟩ := List.append_inj' split rfl
      cases equal
      refine .inr ⟨⟨earlier, first, between, rfl, begun, ?_⟩, lasts between operation [] ?_⟩
      · rintro before other after rfl
        exact lasts before other (after ++ [operation]) (by simp)
      · rw [List.concat_eq_append]
  · rintro (begun | ⟨⟨earlier, first, later, rfl, begun, lasts⟩, stays⟩)
    · refine ⟨operations, operation, [], rfl, begun, ?_⟩
      intro before other after split
      simp at split
    · refine ⟨earlier, first, later ++ [operation], by simp, begun, ?_⟩
      intro before other after split
      rcases List.eq_nil_or_concat after with rfl | ⟨between, last, rfl⟩
      · obtain ⟨rfl, equal⟩ := List.append_inj' split rfl
        cases equal
        exact stays
      · rw [List.concat_eq_append, ← List.cons_append, ← List.append_assoc] at split
        obtain ⟨same, _last⟩ := List.append_inj' split rfl
        exact lasts before other between same

end Lasting

end DocDrift.Store
