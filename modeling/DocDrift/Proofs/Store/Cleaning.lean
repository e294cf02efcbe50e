import DocDrift.Proofs.Store.Writes

/-!
What a clean-up takes. It takes the rows of the ledger whose file is gone, and the symbols of those
files; a file that is gone keeps its symbols if the ledger has no row of it, and a file that is
there keeps all it has. A second clean-up among the same files finds nothing.
-/

set_option autoImplicit false

namespace DocDrift.Store

/-- The rows of the registry: each symbol with the file that lists it. -/
def registryRows (symbols : NameMap (NameMap SymbolRow)) : List (String × String × SymbolRow) :=
  symbols.flatMap fun entry => entry.2.map fun row => (entry.1, row)

/-- A clean-up takes what is kept of a file: it is gone, and the ledger has a row of it. -/
def Takes (isGone : String → Bool) (ledger : NameMap LedgerRow) (path : String) : Prop :=
  isGone path = true ∧ path ∈ ledger.names

instance (isGone : String → Bool) (ledger : NameMap LedgerRow) (path : String) :
    Decidable (Takes isGone ledger path) :=
  inferInstanceAs (Decidable (_ ∧ _))

/-- What a clean-up leaves of a store whose ledger has these rows. -/
def remains (store : Store) (isGone : String → Bool) (rows : NameMap LedgerRow) : Store :=
  { store with
    ledger := some (rows.filter fun row => !isGone row.1)
    symbols := store.symbols.map fun symbols =>
      symbols.filter fun entry => ¬Takes isGone rows entry.1 }

/-- What a clean-up makes of a store, and how many rows it reports. -/
structure Cleaned (isGone : String → Bool) (store next : Store) (count : Nat) : Prop where
  /-- The ledger loses the rows of the files that are gone, which are counted; the others stay as
  they are, in their order. -/
  ledger : ∃ rows kept, store.ledger = some rows ∧ next.ledger = some kept ∧
    count = rows.countP (fun row => isGone row.1) ∧ kept.length + count = rows.length ∧
    kept.Sublist rows ∧ ∀ path row, (path, row) ∈ kept ↔ (path, row) ∈ rows ∧ isGone path = false
  /-- The registry loses the rows of just the files that the ledger has lost. -/
  symbols : ∀ rows, store.ledger = some rows →
    next.symbols.map registryRows =
      store.symbols.map fun symbols =>
        (registryRows symbols).filter fun row => ¬Takes isGone rows row.1
  markers : next.markers = store.markers
  usage : next.usage = store.usage
  analyses : next.analyses = store.analyses

/-- The results of a clean-up, and when it has which. -/
inductive Cleanup (store : Store) (isGone : String → Bool) : Except Failure (Store × Nat) → Prop
  | done (rows : NameMap LedgerRow) (held : store.ledger = some rows)
      (listed : store.symbols.isSome = true ∨ ∀ row ∈ rows, isGone row.1 = false) :
      Cleanup store isGone
        (.ok (store.remains isGone rows, rows.countP fun row => isGone row.1))
  | unheld (missing : store.ledger = none) : Cleanup store isGone (.error .store)
  | unlisted (rows : NameMap LedgerRow) (held : store.ledger = some rows)
      (missing : store.symbols = none) (gone : ∃ row ∈ rows, isGone row.1 = true) :
      Cleanup store isGone (.error .store)

section Cleaning

variable {store : Store} {isGone : String → Bool} {rows : NameMap LedgerRow}

theorem names_filter_eq_nil :
    rows.names.filter isGone = [] ↔ ∀ row ∈ rows, isGone row.1 = false := by
  simp [NameMap.names]

theorem length_names_filter (rows : NameMap LedgerRow) (isGone : String → Bool) :
    (rows.names.filter isGone).length = rows.countP fun row => isGone row.1 := by
  rw [← List.countP_eq_length_filter, NameMap.names, List.countP_map]
  rfl

theorem takes_iff (path : String) :
    Takes isGone rows path ↔ path ∈ rows.names.filter isGone := by
  rw [List.mem_filter, and_comm]
  rfl

/-- Nothing is lost where no file is gone. -/
theorem remains_of_there (held : store.ledger = some rows)
    (there : ∀ row ∈ rows, isGone row.1 = false) : store.remains isGone rows = store := by
  have kept : rows.filter (fun row => !isGone row.1) = rows :=
    List.filter_eq_self.mpr fun row mem => by rw [there row mem, Bool.not_false]
  have spared : ∀ symbols : NameMap (NameMap SymbolRow),
      (symbols.filter fun entry => ¬Takes isGone rows entry.1) = symbols := by
    intro symbols
    refine List.filter_eq_self.mpr fun entry _mem => decide_eq_true ?_
    rw [takes_iff, names_filter_eq_nil.mpr there]
    exact List.not_mem_nil
  cases store
  cases held
  simp only [remains, kept, spared, Option.map_id']

theorem cleanup_of_there (held : store.ledger = some rows)
    (there : ∀ row ∈ rows, isGone row.1 = false) : store.cleanup isGone = .ok (store, 0) := by
  rw [cleanup, held]
  exact if_pos (List.isEmpty_iff.mpr (names_filter_eq_nil.mpr there))

theorem cleanup_cleanup (store : Store) (isGone : String → Bool) :
    store.Cleanup isGone (store.cleanup isGone) := by
  cases held : store.ledger with
  | none =>
      rw [cleanup, held]
      exact .unheld held
  | some rows =>
      by_cases there : ∀ row ∈ rows, isGone row.1 = false
      · have done := Cleanup.done rows held (.inr there)
        have none : rows.countP (fun row => isGone row.1) = 0 := by
          rw [← length_names_filter, names_filter_eq_nil.mpr there, List.length_nil]
        rw [remains_of_there held there, none] at done
        rw [cleanup_of_there held there]
        exact done
      · have some : ¬(rows.names.filter isGone).isEmpty = true := by
          rwa [List.isEmpty_iff, names_filter_eq_nil]
        rw [cleanup, held]
        simp only [found, bind, Except.bind, if_neg some]
        cases listed : store.symbols with
        | none =>
            simp only [Classical.not_forall, Bool.not_eq_false] at there
            obtain ⟨row, mem, gone⟩ := there
            exact .unlisted rows held listed ⟨row, mem, gone⟩
        | some symbols =>
            have done : store.Cleanup isGone _ :=
              .done rows held (.inl (by rw [listed]; rfl))
            have same : ∀ path, decide (¬Takes isGone rows path) =
                !(rows.names.filter isGone).contains path := by
              intro path
              rw [decide_not, List.contains_eq_mem, decide_eq_decide.mpr (takes_iff path)]
            simp only [remains, listed, Option.map_some, same, ← length_names_filter] at done
            exact done

/-- The registry without some files has the rows of the others. -/
theorem registryRows_filter (symbols : NameMap (NameMap SymbolRow)) (keeps : String → Bool) :
    registryRows (symbols.filter fun entry => keeps entry.1) =
      (registryRows symbols).filter fun row => keeps row.1 := by
  induction symbols with
  | nil => rfl
  | cons entry rest ih =>
      have first : (entry.2.map fun row => (entry.1, row)).filter (fun row => keeps row.1) =
          if keeps entry.1 then entry.2.map fun row => (entry.1, row) else [] := by
        rw [List.filter_map]
        change List.map _ (entry.2.filter fun _ => keeps entry.1) = _
        cases keeps entry.1 with
        | true => rw [List.filter_eq_self.mpr fun _ _ => rfl, if_pos rfl]
        | false => rw [List.filter_eq_nil_iff.mpr fun _ _ => Bool.false_ne_true]; rfl
      have split : ∀ symbols, registryRows (entry :: symbols) =
          (entry.2.map fun row => (entry.1, row)) ++ registryRows symbols :=
        fun _ => List.flatMap_cons
      rw [split, List.filter_append, first, ← ih]
      cases kept : keeps entry.1 with
      | true => rw [List.filter_cons_of_pos (by exact kept), split, if_pos rfl]
      | false =>
          rw [List.filter_cons_of_neg (by rw [kept]; exact Bool.false_ne_true),
            if_neg Bool.false_ne_true, List.nil_append]

theorem cleaned_remains (held : store.ledger = some rows) :
    Cleaned isGone store (store.remains isGone rows) (rows.countP fun row => isGone row.1) where
  ledger := by
    refine ⟨rows, _, held, rfl, rfl, ?_, List.filter_sublist, ?_⟩
    · rw [← List.countP_eq_length_filter, Nat.add_comm,
        List.length_eq_countP_add_countP fun row : String × LedgerRow => isGone row.1]
      simp only [decide_not, Bool.decide_eq_true]
    · intro path row
      rw [List.mem_filter, Bool.not_eq_true']
  symbols := by
    intro rows' held'
    cases held.symm.trans held'
    rw [remains, Option.map_map]
    refine congrArg (Option.map · store.symbols) (funext fun symbols => ?_)
    exact registryRows_filter symbols fun path => ¬Takes isGone rows path
  markers := rfl
  usage := rfl
  analyses := rfl

/-- What a clean-up leaves has no more files that are gone. -/
theorem there_of_remains :
    ∀ row ∈ rows.filter (fun row => !isGone row.1), isGone row.1 = false := by
  intro row mem
  simpa using (List.mem_filter.mp mem).2

/-- A clean-up takes exactly what is kept of the files that are gone, and a second one finds
nothing. It fails only for want of the ledger, or of the registry if there is something to take. -/
theorem cleanup_takes_gone (store : Store) (isGone : String → Bool) :
    ((∃ result, store.cleanup isGone = .ok result) ↔
      ∃ rows, store.ledger = some rows ∧
        (store.symbols.isSome = true ∨ ∀ row ∈ rows, isGone row.1 = false)) ∧
      (∀ failure, store.cleanup isGone = .error failure → failure = .store) ∧
      ∀ next count, store.cleanup isGone = .ok (next, count) →
        Cleaned isGone store next count ∧ next.cleanup isGone = .ok (next, 0) := by
  have cleanup := cleanup_cleanup store isGone
  generalize store.cleanup isGone = result at cleanup ⊢
  cases cleanup with
  | done rows held listed =>
      refine ⟨iff_of_true ⟨_, rfl⟩ ⟨rows, held, listed⟩, nofun, ?_⟩
      rintro next count ⟨rfl, rfl⟩
      exact ⟨cleaned_remains held, cleanup_of_there rfl there_of_remains⟩
  | unheld missing =>
      refine ⟨iff_of_false nofun ?_, fun failure failed => (Except.error.inj failed).symm, nofun⟩
      rintro ⟨rows, held, _listed⟩
      cases missing.symm.trans held
  | unlisted rows held missing gone =>
      refine ⟨iff_of_false nofun ?_, fun failure failed => (Except.error.inj failed).symm, nofun⟩
      rintro ⟨rows', held', listed⟩
      cases held.symm.trans held'
      obtain ⟨row, mem, isGone⟩ := gone
      rcases listed with listed | there
      · rw [missing] at listed
        cases listed
      · rw [there row mem] at isGone
        cases isGone

end Cleaning

/-- A file goes with its symbols. A file whose path begins with its path stays, and so do symbols of
which the ledger has no file. -/
example :
    ({ Store.empty with
      ledger := some [("a", ⟨"one", none, "monday"⟩), ("a.php", ⟨"two", none, "monday"⟩)]
      symbols := some [("a", [("A", ⟨"monday", "one"⟩)]), ("a.php", [("B", ⟨"monday", "two"⟩)]),
        ("b", [("C", ⟨"monday", "one"⟩)])] } : Store).cleanup (fun path => path != "a.php") =
      .ok ({ Store.empty with
        ledger := some [("a.php", ⟨"two", none, "monday"⟩)]
        symbols := some [("a.php", [("B", ⟨"monday", "two"⟩)]),
          ("b", [("C", ⟨"monday", "one"⟩)])] }, 1) :=
  rfl

end DocDrift.Store
