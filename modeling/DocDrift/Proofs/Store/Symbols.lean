import DocDrift.Proofs.Store.Ledger
import DocDrift.Proofs.Store.Relisting

/-!
The symbols of a file over a history. A symbol comes in with a list that has it, at the time of that
list, and keeps that time while it stays, whatever lists it again; it goes with a list that lacks it
and has another digest, or with a clean-up that misses the file. Its digest is that of the last list
that had it.
-/

set_option autoImplicit false

namespace DocDrift.Store

/-! ### Lists of symbols -/

/-- The operation lists a name among the symbols of a file; the row holds its time and its digest. -/
def Operation.Lists (path name : String) (row : SymbolRow) : Operation → Prop
  | .wrote now (.listed other names digest) =>
      other = path ∧ name ∈ names ∧ row = ⟨now, digest⟩
  | _ => False

theorem Operation.Lists.unique {path name : String} {row other : SymbolRow} {operation : Operation}
    (lists : operation.Lists path name row) (again : operation.Lists path name other) :
    row = other := by
  unfold Operation.Lists at lists again
  split at lists
  · exact lists.2.2.trans again.2.2.symm
  · contradiction

/-- The last list of the symbols of a file that has a name has this digest. -/
def LastListed (path name digest : String) : List Operation → Prop :=
  Lasts (fun _ operation => ∃ since, operation.Lists path name ⟨since, digest⟩)
    (fun _ operation => ∃ row, operation.Lists path name row)

/-- After some operations, an operation takes a symbol away. -/
def Drops (path name : String) (operations : List Operation) : Operation → Prop
  | .wrote _ (.listed other names digest) =>
      other = path ∧ name ∉ names ∧ ¬LastListed path name digest operations
  | .cleaned files => files.exists? path = false ∧ ∃ row, Stands operations path row
  | _ => False

/-- A list had the symbol, and nothing has taken it away since. -/
def Registered (path name : String) : List Operation → Prop :=
  Lasts (fun _ operation => ∃ row, operation.Lists path name row) (Drops path name)

/-- The symbol was listed at this time when it was not there, and nothing has taken it away since. -/
def EnteredAt (path name time : String) : List Operation → Prop :=
  Lasts
    (fun earlier operation =>
      ¬Registered path name earlier ∧ ∃ digest, operation.Lists path name ⟨time, digest⟩)
    (Drops path name)

/-- What the registry holds of a file after some operations. -/
structure Chronicle (operations : List Operation) (path : String) (rows : NameMap SymbolRow) :
    Prop where
  ascending : rows.Ascending
  row : ∀ name row, (name, row) ∈ rows ↔
    EnteredAt path name row.since operations ∧ LastListed path name row.digest operations
  name : ∀ name, name ∈ rows.names ↔ Registered path name operations

/-! ### Adding symbols -/

section Adding

variable {now digest : String} {rows : NameMap SymbolRow}

/-- Since when a symbol is there once it was listed at some time. -/
def sinceWhen (now : String) (rows : NameMap SymbolRow) (name : String) : String :=
  ((rows.find? name).map (·.since)).getD now

theorem ascending_addSymbols (ascending : rows.Ascending) (names : List String) :
    NameMap.Ascending (names.foldl (fun rows name => addSymbol now digest name rows) rows) := by
  induction names generalizing rows with
  | nil => exact ascending
  | cons first rest ih => exact ih (ascending.insert first _)

theorem sinceWhen_addSymbol (first name : String) :
    sinceWhen now (addSymbol now digest first rows) name = sinceWhen now rows name := by
  unfold sinceWhen addSymbol
  by_cases same : name = first
  · rw [same, NameMap.find?_insert_self]
    rfl
  · rw [NameMap.find?_insert_of_ne rows _ same]

theorem mem_foldl_addSymbol (ascending : rows.Ascending) (names : List String) (name : String)
    (row : SymbolRow) :
    (name, row) ∈ names.foldl (fun rows name => addSymbol now digest name rows) rows ↔
      if name ∈ names then row = ⟨sinceWhen now rows name, digest⟩ else (name, row) ∈ rows := by
  induction names generalizing rows with
  | nil => simp
  | cons first rest ih =>
      have rising : NameMap.Ascending (addSymbol now digest first rows) := ascending.insert first _
      rw [List.foldl_cons, ih rising, sinceWhen_addSymbol]
      by_cases later : name ∈ rest
      · rw [if_pos later, if_pos (List.mem_cons_of_mem _ later)]
      · rw [if_neg later, addSymbol, NameMap.mem_insert ascending, Prod.mk.injEq]
        by_cases same : name = first
        · subst same
          rw [if_pos List.mem_cons_self]
          simp [sinceWhen]
        · rw [if_neg (by simp [same, later])]
          simp [same]

theorem mem_listSymbols (ascending : rows.Ascending) (names : List String) (name : String)
    (row : SymbolRow) :
    (name, row) ∈ listSymbols now digest names rows ↔
      if name ∈ names then row = ⟨sinceWhen now rows name, digest⟩
      else (name, row) ∈ rows ∧ row.digest = digest := by
  rw [listSymbols, List.mem_filter, mem_foldl_addSymbol ascending, beq_iff_eq]
  by_cases listed : name ∈ names
  · rw [if_pos listed, if_pos listed]
    exact and_iff_left_of_imp fun equal => equal ▸ rfl
  · rw [if_neg listed, if_neg listed]

end Adding

/-! ### Histories -/

section Histories

variable {operations : List Operation} {path name : String}

theorem lastListed_concat (operation : Operation) (digest : String) :
    LastListed path name digest (operations ++ [operation]) ↔
      (∃ since, operation.Lists path name ⟨since, digest⟩) ∨
        (LastListed path name digest operations ∧ ¬∃ row, operation.Lists path name row) :=
  lasts_concat operations operation

theorem registered_concat (operation : Operation) :
    Registered path name (operations ++ [operation]) ↔
      (∃ row, operation.Lists path name row) ∨
        (Registered path name operations ∧ ¬Drops path name operations operation) :=
  lasts_concat operations operation

theorem enteredAt_concat (operation : Operation) (time : String) :
    EnteredAt path name time (operations ++ [operation]) ↔
      (¬Registered path name operations ∧ ∃ digest, operation.Lists path name ⟨time, digest⟩) ∨
        (EnteredAt path name time operations ∧ ¬Drops path name operations operation) :=
  lasts_concat operations operation

theorem lists_listed {now digest : String} {names : List String} {row : SymbolRow} :
    (Operation.wrote now (.listed path names digest)).Lists path name row ↔
      name ∈ names ∧ row = ⟨now, digest⟩ :=
  and_iff_right rfl

theorem drops_listed {now digest : String} {names : List String} :
    Drops path name operations (.wrote now (.listed path names digest)) ↔
      name ∉ names ∧ ¬LastListed path name digest operations :=
  and_iff_right rfl

theorem registered_of_enteredAt {time : String} (entered : EnteredAt path name time operations) :
    Registered path name operations := by
  obtain ⟨earlier, operation, later, split, ⟨_new, digest, lists⟩, stays⟩ := entered
  exact ⟨earlier, operation, later, split, ⟨_, lists⟩, stays⟩

theorem lastListed_of_registered (registered : Registered path name operations) :
    ∃ digest, LastListed path name digest operations := by
  induction operations using List.reverseRecOn with
  | nil => exact absurd registered not_lasts_nil
  | append_singleton operations operation ih =>
      by_cases lists : ∃ row, operation.Lists path name row
      · obtain ⟨⟨since, digest⟩, lists⟩ := lists
        exact ⟨digest, (lasts_concat operations operation).mpr (.inl ⟨since, lists⟩)⟩
      · rcases (lasts_concat operations operation).mp registered with begun | ⟨earlier, _stays⟩
        · exact absurd begun lists
        · obtain ⟨digest, last⟩ := ih earlier
          exact ⟨digest, (lasts_concat operations operation).mpr (.inr ⟨last, lists⟩)⟩

namespace Chronicle

variable {rows : NameMap SymbolRow} {operation : Operation}

/-- The row of a symbol is there as soon as one of its columns is known. -/
theorem mem_of_enteredAt (chronicle : Chronicle operations path rows) {time : String}
    (entered : EnteredAt path name time operations) : ∃ digest, (name, ⟨time, digest⟩) ∈ rows := by
  obtain ⟨digest, last⟩ := lastListed_of_registered (registered_of_enteredAt entered)
  exact ⟨digest, (chronicle.row name ⟨time, digest⟩).mpr ⟨entered, last⟩⟩

theorem mem_of_registered (chronicle : Chronicle operations path rows)
    (registered : Registered path name operations) : ∃ row, (name, row) ∈ rows := by
  simpa [NameMap.names] using (chronicle.name name).mpr registered

theorem row_unique (chronicle : Chronicle operations path rows) {row other : SymbolRow}
    (mem : (name, row) ∈ rows) (again : (name, other) ∈ rows) : row = other := by
  rw [← chronicle.ascending.find?_eq_some] at mem again
  exact Option.some.inj (mem.symm.trans again)

theorem lastListed_digest (chronicle : Chronicle operations path rows) {row : SymbolRow}
    {digest : String} (mem : (name, row) ∈ rows) (last : LastListed path name digest operations) :
    row.digest = digest := by
  obtain ⟨entered, _last⟩ := (chronicle.row name row).mp mem
  have again : (name, ⟨row.since, digest⟩) ∈ rows := (chronicle.row _ _).mpr ⟨entered, last⟩
  exact congrArg SymbolRow.digest (chronicle.row_unique mem again)

/-- A symbol that is listed has the time at which it entered, or the time of the list if it was not
there. -/
theorem sinceWhen_eq (chronicle : Chronicle operations path rows) (now time : String) :
    time = sinceWhen now rows name ↔
      (¬Registered path name operations ∧ time = now) ∨ EnteredAt path name time operations := by
  rw [sinceWhen, ← chronicle.name]
  cases found : rows.find? name with
  | none =>
      have absent := (NameMap.find?_eq_none rows name).mp found
      have never : ¬EnteredAt path name time operations := by
        intro entered
        exact absent ((chronicle.name name).mpr (registered_of_enteredAt entered))
      simp [absent, never]
  | some row =>
      have mem := (chronicle.ascending.find?_eq_some name row).mp found
      have present : name ∈ rows.names := List.mem_map.mpr ⟨_, mem, rfl⟩
      rw [or_iff_right fun new => new.1 present, Option.map_some, Option.getD_some]
      constructor
      · rintro rfl
        exact ((chronicle.row name row).mp mem).1
      · intro entered
        obtain ⟨digest, again⟩ := chronicle.mem_of_enteredAt entered
        exact congrArg SymbolRow.since (chronicle.row_unique again mem)

/-! ### One operation -/

/-- An operation that neither lists nor drops symbols of the file. -/
theorem idle (chronicle : Chronicle operations path rows)
    (lists : ∀ name row, ¬operation.Lists path name row)
    (drops : ∀ name, ¬Drops path name operations operation) :
    Chronicle (operations ++ [operation]) path rows where
  ascending := chronicle.ascending
  row := by
    intro name row
    simp [chronicle.row, enteredAt_concat, lastListed_concat, lists, drops]
  name := by
    intro name
    simp [chronicle.name, registered_concat, lists, drops]

theorem listed (chronicle : Chronicle operations path rows) (now digest : String)
    (names : List String) :
    Chronicle (operations ++ [.wrote now (.listed path names digest)]) path
      (listSymbols now digest names rows) where
  ascending := (ascending_addSymbols chronicle.ascending names).filter _
  row := by
    intro name row
    obtain ⟨since, own⟩ := row
    rw [mem_listSymbols chronicle.ascending]
    simp only [enteredAt_concat, lastListed_concat, lists_listed, drops_listed]
    by_cases mem : name ∈ names
    · simp [mem, chronicle.sinceWhen_eq]
    · simp only [mem, if_false, false_and, exists_false, and_false, false_or, not_false_eq_true,
        and_true, true_and, not_not, chronicle.row]
      constructor
      · rintro ⟨⟨entered, last⟩, rfl⟩
        exact ⟨⟨entered, last⟩, last⟩
      · rintro ⟨⟨entered, last⟩, own⟩
        have mem := (chronicle.row name ⟨since, _⟩).mpr ⟨entered, own⟩
        exact ⟨⟨entered, own⟩, chronicle.lastListed_digest mem last⟩
  name := by
    intro name
    rw [mem_names_listSymbols_iff, registered_concat]
    simp only [lists_listed, drops_listed]
    by_cases mem : name ∈ names
    · simp [mem]
    · simp only [mem, false_and, exists_false, false_or, not_false_eq_true, true_and, not_not]
      constructor
      · rintro ⟨row, mem, rfl⟩
        obtain ⟨entered, last⟩ := (chronicle.row name row).mp mem
        exact ⟨registered_of_enteredAt entered, last⟩
      · rintro ⟨registered, last⟩
        obtain ⟨row, mem⟩ := chronicle.mem_of_registered registered
        exact ⟨row, mem, chronicle.lastListed_digest mem last⟩

/-- A clean-up that misses the file takes all of its symbols. -/
theorem missed {files : FileTree}
    (drops : ∀ name, Drops path name operations (.cleaned files)) :
    Chronicle (operations ++ [.cleaned files]) path [] where
  ascending := .nil
  row := by
    intro name row
    simp [enteredAt_concat, drops, Operation.Lists]
  name := by
    intro name
    simp [registered_concat, drops, Operation.Lists, NameMap.names]

theorem since_unchanged {next : NameMap SymbolRow} {row later : SymbolRow}
    (chronicle : Chronicle operations path rows)
    (following : Chronicle (operations ++ [operation]) path next)
    (mem : (name, row) ∈ rows) (stays : (name, later) ∈ next) : later.since = row.since := by
  obtain ⟨entered, _last⟩ := (following.row name later).mp stays
  rcases (enteredAt_concat operation later.since).mp entered with ⟨new, _listed⟩ | ⟨earlier, _kept⟩
  · exact absurd (List.mem_map.mpr ⟨_, mem, rfl⟩) ((chronicle.name name).not.mpr new)
  · obtain ⟨digest, again⟩ := chronicle.mem_of_enteredAt earlier
    rw [← chronicle.row_unique again mem]

/-- A symbol that was not there comes with its list, at the time of it. -/
theorem mem_of_absent {next : NameMap SymbolRow} (chronicle : Chronicle operations path rows)
    (following : Chronicle (operations ++ [operation]) path next) (absent : name ∉ rows.names)
    (row : SymbolRow) : (name, row) ∈ next ↔ operation.Lists path name row := by
  have new : ¬Registered path name operations := (chronicle.name name).not.mp absent
  have never : ¬EnteredAt path name row.since operations := fun entered =>
    new (registered_of_enteredAt entered)
  rw [following.row, enteredAt_concat, lastListed_concat, or_iff_left fun entered => never entered.1]
  constructor
  · rintro ⟨⟨_new, digest, lists⟩, ⟨since, again⟩ | ⟨_last, none⟩⟩
    · cases lists.unique again
      exact lists
    · exact absurd ⟨_, lists⟩ none
  · intro lists
    exact ⟨⟨new, row.digest, lists⟩, .inl ⟨row.since, lists⟩⟩

end Chronicle

/-! ### Stores -/

section Stores

variable {store next : Store}

/-- What is not a list of symbols leaves the symbols alone, whether or not it succeeds. -/
theorem symbols_wrote {now : String} {write : Write}
    (other : ∀ symbols, write.onSymbols now symbols = symbols) :
    (Operation.on store (.wrote now write)).symbols = store.symbols := by
  rcases done : store.write now write with failure | next
  · rw [on_wrote_of_error done]
  · rw [on_wrote done, (write_tables done).2.2.1, funext other]
    exact Option.map_id'

theorem symbolsOf_congr (same : next.symbols = store.symbols) (path : String) :
    next.symbolsOf path = store.symbolsOf path := by
  rw [symbolsOf, symbolsOf, same]

/-- A clean-up takes the symbols of a file that is gone if the ledger has the file. -/
theorem symbolsOf_cleaned {ledger : NameMap LedgerRow} {isGone : String → Bool} {count : Nat}
    (held : store.ledger = some ledger) (cleaned : store.cleanup isGone = .ok (next, count))
    (path : String) :
    next.symbolsOf path =
      if path ∈ ledger.names ∧ isGone path = true then .ok [] else store.symbolsOf path := by
  obtain ⟨rows, same, changes⟩ := cleanup_cases cleaned
  cases held.symm.trans same
  rcases changes with ⟨none, rfl⟩ | ⟨symbols, listed, rfl⟩
  · have stays : path ∉ ledger.names.filter isGone := none ▸ List.not_mem_nil
    rw [if_neg (List.mem_filter.not.mp stays)]
  · rw [symbolsOf_held rfl, symbolsOf_held listed,
      NameMap.find?_filter symbols (fun other => !(ledger.names.filter isGone).contains other)]
    by_cases gone : path ∈ ledger.names.filter isGone
    · rw [if_pos (List.mem_filter.mp gone)]
      simp [gone]
    · rw [if_neg (List.mem_filter.not.mp gone)]
      simp [gone]

end Stores

/-- One operation, on a store with all tables and a ledger that holds what stands. -/
theorem chronicle_on {store : Store} {ledger : NameMap LedgerRow} {rows : NameMap SymbolRow}
    (whole : store.Whole) (held : store.ledger = some ledger)
    (stands : ∀ path row, (path, row) ∈ ledger ↔ Stands operations path row)
    (answered : store.symbolsOf path = .ok rows) (chronicle : Chronicle operations path rows)
    (operation : Operation) :
    ∃ next, (operation.on store).symbolsOf path = .ok next ∧
      Chronicle (operations ++ [operation]) path next := by
  cases operation with
  | wrote now write =>
      cases write with
      | listed other names digest =>
          obtain ⟨symbols, present⟩ := Option.isSome_iff_exists.mp whole.symbols
          obtain ⟨next, done⟩ : ∃ next, store.write now (.listed other names digest) = .ok next :=
            ⟨_, write_listed.mpr ⟨symbols, present, rfl⟩⟩
          rw [on_wrote done]
          by_cases same : other = path
          · subst same
            obtain ⟨_row, ⟨before, asked, reached⟩, _usage⟩ := symbolsOf_listed done
            cases answered.symm.trans asked
            exact ⟨_, reached, chronicle.listed now digest names⟩
          · rw [symbolsOf_listed_of_ne done (Ne.symm same), answered]
            exact ⟨rows, rfl, chronicle.idle (fun _ _ lists => same lists.1)
              (fun _ drops => same drops.1)⟩
      | _ =>
          rw [symbolsOf_congr (symbols_wrote fun _ => rfl), answered]
          exact ⟨rows, rfl, chronicle.idle (fun _ _ => not_false) (fun _ => not_false)⟩
  | cleaned files =>
      obtain ⟨next, count, cleaned, _whole, _ledger⟩ :=
        cleanup_whole whole (fun path => !files.exists? path)
      have misses : (path ∈ ledger.names ∧ (!files.exists? path) = true) ↔
          ∀ name, Drops path name operations (.cleaned files) := by
        simp [NameMap.names, stands, Drops, and_comm]
      rw [on_cleaned cleaned, symbolsOf_cleaned held cleaned, answered]
      split
      case isTrue gone =>
        exact ⟨[], rfl, .missed (misses.mp gone)⟩
      case isFalse stays =>
        refine ⟨rows, rfl, chronicle.idle (fun _ _ => not_false) ?_⟩
        intro name drops
        exact stays (misses.mpr fun _ => drops)
  | reopened =>
      obtain ⟨symbols, present⟩ := Option.isSome_iff_exists.mp whole.symbols
      have same : store.prepared.symbols = store.symbols := by simp [prepared, present]
      rw [Operation.on, symbolsOf_congr same, answered]
      exact ⟨rows, rfl, chronicle.idle (fun _ _ => not_false) (fun _ => not_false)⟩

theorem chronicle_after (operations : List Operation) (path : String) :
    ∃ rows, (after operations).symbolsOf path = .ok rows ∧ Chronicle operations path rows := by
  induction operations using List.reverseRecOn with
  | nil =>
      refine ⟨[], rfl, .nil, ?_, ?_⟩
      · intro name row
        exact iff_of_false List.not_mem_nil fun entered => not_lasts_nil entered.1
      · intro name
        exact iff_of_false List.not_mem_nil not_lasts_nil
  | append_singleton operations operation ih =>
      obtain ⟨rows, answered, chronicle⟩ := ih
      obtain ⟨whole, ledger, held, _ascending, stands⟩ := ledger_after operations
      rw [after_concat]
      exact chronicle_on whole held stands answered chronicle operation

end Histories

/-! ### Answers -/

/-- The registry has a symbol after each part of a history, from its start on. -/
def Remains (operations later : List Operation) (path name : String) : Prop :=
  ∀ between, between <+: later →
    ∃ rows, (after (operations ++ between)).symbolsOf path = .ok rows ∧ name ∈ rows.names

/-- A symbol that remains over a part of a history keeps its time. -/
theorem since_of_remains {operations later : List Operation} {path name : String}
    {rows : NameMap SymbolRow} {row : SymbolRow}
    (answered : (after operations).symbolsOf path = .ok rows) (mem : (name, row) ∈ rows)
    (remains : Remains operations later path name) :
    ∃ next digest, (after (operations ++ later)).symbolsOf path = .ok next ∧
      (name, ⟨row.since, digest⟩) ∈ next := by
  induction later using List.reverseRecOn with
  | nil =>
      rw [List.append_nil]
      exact ⟨rows, row.digest, answered, mem⟩
  | append_singleton later operation ih =>
      obtain ⟨middle, digest, reached, kept⟩ := ih fun between part =>
        remains between (part.trans (List.prefix_append later [operation]))
      obtain ⟨next, ended, present⟩ := remains _ List.prefix_rfl
      obtain ⟨entry, stays, rfl⟩ := List.mem_map.mp present
      obtain ⟨_, again, chronicle⟩ := chronicle_after (operations ++ later) path
      cases reached.symm.trans again
      obtain ⟨_, again, following⟩ := chronicle_after (operations ++ (later ++ [operation])) path
      cases ended.symm.trans again
      rw [← List.append_assoc] at following
      have same := chronicle.since_unchanged following kept stays
      refine ⟨next, entry.2.digest, ended, ?_⟩
      rw [← show entry.2.since = row.since from same]
      exact stays

/-- After every history the symbols of a file are those that its lists brought and nothing took away,
each once and in the order of the names, with the time at which it came and the digest of the last
list that had it. A symbol that remains keeps its time; one that is not there comes with the next
list that has it, at the time of that list. -/
theorem symbols_after (operations : List Operation) (path : String) :
    ∃ rows, (after operations).symbolsOf path = .ok rows ∧ Chronicle operations path rows ∧
      rows.names.Nodup ∧
      (∀ later name row, (name, row) ∈ rows → Remains operations later path name →
        ∃ next digest, (after (operations ++ later)).symbolsOf path = .ok next ∧
          (name, ⟨row.since, digest⟩) ∈ next) ∧
      ∀ operation, ∃ next, (after (operations ++ [operation])).symbolsOf path = .ok next ∧
        ∀ name row, name ∉ rows.names →
          ((name, row) ∈ next ↔ operation.Lists path name row) := by
  obtain ⟨rows, answered, chronicle⟩ := chronicle_after operations path
  refine ⟨rows, answered, chronicle, chronicle.ascending.nodup, ?_, ?_⟩
  · intro later name row mem remains
    exact since_of_remains answered mem remains
  · intro operation
    obtain ⟨next, reached, following⟩ := chronicle_after (operations ++ [operation]) path
    exact ⟨next, reached, fun name row absent => chronicle.mem_of_absent following absent row⟩

example :
    (after [.wrote "monday" (.listed "a.php" ["A", "B"] "one"),
      .wrote "tuesday" (.listed "a.php" ["B"] "two"), .reopened,
      .wrote "friday" (.listed "a.php" ["A", "B"] "three")]).symbolsOf "a.php" =
      .ok [("A", ⟨"friday", "three"⟩), ("B", ⟨"monday", "three"⟩)] :=
  rfl

end DocDrift.Store
