import DocDrift.Proofs.Store.Writes

/-!
The symbols of a file as a list of names leaves them: those of the list, all with its digest, and of
the others only such as had that digest already. A clean-up takes the symbols of a file together with
its row in the ledger.
-/

set_option autoImplicit false

namespace DocDrift.Store

/-! ### Listing symbols -/

section Listing

variable {now digest name : String} {names : List String} {rows : NameMap SymbolRow}
  {entry : String × SymbolRow}

/-- Whatever is there after symbols were added was added with their digest or was there before. -/
theorem mem_addSymbols
    (mem : entry ∈ names.foldl (fun rows name => addSymbol now digest name rows) rows) :
    (entry.1 ∈ names ∧ entry.2.digest = digest) ∨ entry ∈ rows := by
  induction names generalizing rows with
  | nil => exact .inr mem
  | cons first rest ih =>
      rcases ih mem with ⟨later, own⟩ | earlier
      · exact .inl ⟨List.mem_cons_of_mem _ later, own⟩
      · rcases NameMap.mem_of_mem_insert earlier with rfl | kept
        · exact .inl ⟨List.mem_cons_self, rfl⟩
        · exact .inr kept

/-- A symbol that was added with a digest keeps it while others are added with that digest. -/
theorem added_stays {since : String} (mem : (name, (⟨since, digest⟩ : SymbolRow)) ∈ rows) :
    ∃ since, (name, (⟨since, digest⟩ : SymbolRow)) ∈
      names.foldl (fun rows name => addSymbol now digest name rows) rows := by
  induction names generalizing rows since with
  | nil => exact ⟨since, mem⟩
  | cons first rest ih =>
      by_cases same : name = first
      · subst same
        exact ih (NameMap.mem_insert_self rows name ⟨_, digest⟩)
      · exact ih (NameMap.mem_insert_of_ne same mem)

theorem addSymbols_mem (now digest : String) (rows : NameMap SymbolRow) (mem : name ∈ names) :
    ∃ since, (name, (⟨since, digest⟩ : SymbolRow)) ∈
      names.foldl (fun rows name => addSymbol now digest name rows) rows := by
  induction names generalizing rows with
  | nil => cases mem
  | cons first rest ih =>
      rw [List.foldl_cons]
      rcases List.mem_cons.mp mem with rfl | later
      · exact added_stays (NameMap.mem_insert_self rows name ⟨_, digest⟩)
      · exact ih _ later

theorem listSymbols_digest (mem : entry ∈ listSymbols now digest names rows) :
    entry.2.digest = digest :=
  beq_iff_eq.mp (List.mem_filter.mp mem).2

/-- A symbol that has the digest already stays when others are added. -/
theorem listed_or_kept_mem {row : SymbolRow} (mem : (name, row) ∈ rows)
    (same : row.digest = digest) : name ∈ (listSymbols now digest names rows).names := by
  obtain ⟨since, own⟩ := row
  cases same
  obtain ⟨time, added⟩ : ∃ time, (name, (⟨time, own⟩ : SymbolRow)) ∈
      names.foldl (fun rows name => addSymbol now own name rows) rows := added_stays mem
  exact List.mem_map.mpr ⟨_, List.mem_filter.mpr ⟨added, beq_self_eq_true _⟩, rfl⟩

theorem mem_names_listSymbols_iff :
    name ∈ (listSymbols now digest names rows).names ↔
      name ∈ names ∨ ∃ row, (name, row) ∈ rows ∧ row.digest = digest := by
  constructor
  · intro mem
    obtain ⟨entry, kept, rfl⟩ := List.mem_map.mp mem
    rcases mem_addSymbols (List.mem_filter.mp kept).1 with ⟨listed, _own⟩ | earlier
    · exact .inl listed
    · exact .inr ⟨entry.2, earlier, listSymbols_digest kept⟩
  · rintro (listed | ⟨row, mem, same⟩)
    · obtain ⟨since, added⟩ := addSymbols_mem now digest rows listed
      exact List.mem_map.mpr ⟨_, List.mem_filter.mpr ⟨added, beq_self_eq_true digest⟩, rfl⟩
    · exact listed_or_kept_mem mem same

/-- The names of the symbols that are left are those of the list, if whatever had its digest before
was one of them. -/
theorem mem_names_listSymbols
    (known : ∀ entry ∈ rows, entry.2.digest = digest → entry.1 ∈ names) :
    name ∈ (listSymbols now digest names rows).names ↔ name ∈ names := by
  rw [mem_names_listSymbols_iff]
  exact or_iff_left_of_imp fun ⟨_row, mem, same⟩ => known _ mem same

end Listing

/-! ### Cleaning up -/

theorem symbolsOf_held {store : Store} {symbols : NameMap (NameMap SymbolRow)}
    (held : store.symbols = some symbols) (path : String) :
    store.symbolsOf path = .ok ((symbols.find? path).getD []) := by
  rw [symbolsOf, held]
  rfl

theorem row?_held {store : Store} {ledger : NameMap LedgerRow} (held : store.ledger = some ledger)
    (path : String) : store.row? path = .ok (ledger.find? path) := by
  rw [row?, held]
  rfl

/-- A clean-up takes all symbols of a file, or leaves them and its row alone. -/
theorem cleanup_holds {store next : Store} {isGone : String → Bool} {count : Nat}
    (cleaned : store.cleanup isGone = .ok (next, count)) (path : String) :
    next.symbolsOf path = .ok [] ∨
      (next.symbolsOf path = store.symbolsOf path ∧ next.row? path = store.row? path) := by
  obtain ⟨ledger, held, ⟨_none, rfl⟩ | ⟨symbols, listed, rfl⟩⟩ := cleanup_cases cleaned
  · exact .inr ⟨rfl, rfl⟩
  · have symbolsFind := NameMap.find?_filter symbols
      (fun other => !(ledger.names.filter isGone).contains other) path
    have ledgerFind := NameMap.find?_filter ledger (fun other => !isGone other) path
    rw [symbolsOf_held rfl, row?_held rfl, symbolsFind, ledgerFind, symbolsOf_held listed,
      row?_held held]
    by_cases gone : path ∈ ledger.names.filter isGone
    · left
      simp [gone]
    · right
      refine ⟨by simp [gone], ?_⟩
      by_cases there : path ∈ ledger.names
      · have stays : isGone path = false := by
          rw [List.mem_filter] at gone
          simpa using fun hidden => gone ⟨there, hidden⟩
        rw [stays, Bool.not_false, if_pos rfl]
      · rw [(NameMap.find?_eq_none ledger path).mpr there, ite_self]

end DocDrift.Store
