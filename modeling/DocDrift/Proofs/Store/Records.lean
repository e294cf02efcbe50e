import DocDrift.Proofs.Store.Writes

/-!
What a store records, without the times at which it did: digest and document of each file, the
symbols of each file with their digests, and what kept verdicts advise. Each write changes one of
these in one place; two stores with the same records stay that way under the same writes.
-/

set_option autoImplicit false

namespace DocDrift

namespace NameMap

variable {α β : Type}

def mapValues (change : α → β) (map : NameMap α) : NameMap β :=
  map.map (fun entry => (entry.1, change entry.2))

theorem mapValues_insert (change : α → β) (name : String) (value : α) (map : NameMap α) :
    mapValues change (insert name value map) =
      insert name (change value) (mapValues change map) := by
  induction map with
  | nil => simp [insert, mapValues]
  | cons entry rest ih =>
      simp only [mapValues] at ih
      by_cases before : name < entry.1
      · simp [insert, before, mapValues]
      · by_cases same : name = entry.1
        · simp [insert, same, mapValues]
        · simp [insert, before, same, mapValues, ih]

theorem names_mapValues (change : α → β) (map : NameMap α) :
    (mapValues change map).names = map.names := by
  simp [mapValues, names]

end NameMap

namespace Store

/-! ### Records -/

/-- Digest and document of a file that was documented. -/
def entryOf? (store : Store) (path : String) : Option (String × Option String) :=
  (store.ledger.bind (·.find? path)).map (fun row => (row.digest, row.document))

/-- The symbols of a file with the digests under which they were listed. -/
def symbolsAt (store : Store) (path : String) : NameMap String :=
  NameMap.mapValues SymbolRow.digest ((store.symbols.bind (·.find? path)).getD [])

def registered (store : Store) (path : String) : List String :=
  ((store.symbols.bind (·.find? path)).getD []).names

/-- What a kept row advises, if it can be read. -/
def AnalysisRow.advice? (row : AnalysisRow) : Option Bool :=
  (Verdict.ofRow? row).map (fun verdict => verdict.recommendation.regenerate)

/-- What is advised on a change of which a verdict is kept. -/
def adviceOf? (store : Store) (pair : Pair) : Option (Option Bool) :=
  (store.analysisOf? pair).map AnalysisRow.advice?

theorem digestOf?_eq (store : Store) (path : String) :
    store.digestOf? path = (store.entryOf? path).map Prod.fst := by
  rw [digestOf?, entryOf?, Option.map_map]
  rfl

theorem registered_eq (store : Store) (path : String) :
    store.registered path = (store.symbolsAt path).names := by
  rw [registered, symbolsAt, NameMap.names_mapValues]

theorem symbolsOf_names {store : Store} {path : String} {rows : NameMap SymbolRow}
    (listed : store.symbolsOf path = .ok rows) : rows.names = (store.symbolsAt path).names := by
  obtain ⟨symbols, held, found⟩ := found_bind_ok.mp listed
  have same := Except.ok.inj found
  rw [symbolsAt, held, NameMap.names_mapValues, Option.bind_some, same]

theorem adviceOf?_none {store : Store} {pair : Pair} (unknown : store.verdict? pair = .ok none) :
    store.adviceOf? pair = none := by
  rw [adviceOf?, verdict?_none unknown, Option.map_none]

theorem adviceOf?_some {store : Store} {pair : Pair} {verdict : Verdict}
    (known : store.verdict? pair = .ok (some verdict)) :
    store.adviceOf? pair = some (some verdict.recommendation.regenerate) := by
  obtain ⟨row, kept, read⟩ := verdict?_some known
  rw [adviceOf?, kept, Option.map_some, AnalysisRow.advice?, read, Option.map_some]

/-- What a verdict advises once it is kept does not depend on its time. -/
theorem advice?_time (verdict : Verdict) (time : String) :
    { verdict with time }.toRow.advice? = verdict.toRow.advice? := by
  have read : ∀ row : AnalysisRow, (Verdict.ofRow? { row with time }).map
      (fun verdict => verdict.recommendation.regenerate) =
      (Verdict.ofRow? row).map (fun verdict => verdict.recommendation.regenerate) := by
    intro row
    unfold Verdict.ofRow?
    cases row.score with
    | none => rfl
    | some score =>
        simp only [Option.bind_eq_bind, Option.bind_some]
        split
        · cases Verdict.column? Classification.schema Classification.ofJson?
            row.classification with
          | none => rfl
          | some classification =>
              cases Verdict.column? Recommendation.schema Recommendation.ofJson?
                row.recommendation <;> rfl
        · rfl
  exact read verdict.toRow

/-! ### Writes to the records -/

/-- The symbols of a file after names were listed. -/
def relist (digest : String) (names : List String) (rows : NameMap String) : NameMap String :=
  (names.foldl (fun rows name => NameMap.insert name digest rows) rows).filter
    (fun row => row.2 == digest)

theorem mapValues_listSymbols (now digest : String) (names : List String)
    (rows : NameMap SymbolRow) :
    NameMap.mapValues SymbolRow.digest (listSymbols now digest names rows) =
      relist digest names (NameMap.mapValues SymbolRow.digest rows) := by
  have added : NameMap.mapValues SymbolRow.digest
      (names.foldl (fun rows name => addSymbol now digest name rows) rows) =
      names.foldl (fun rows name => NameMap.insert name digest rows)
        (NameMap.mapValues SymbolRow.digest rows) := by
    induction names generalizing rows with
    | nil => rfl
    | cons name rest ih =>
        rw [List.foldl_cons, List.foldl_cons, ih, addSymbol, NameMap.mapValues_insert]
  rw [relist, ← added, listSymbols, NameMap.mapValues, NameMap.mapValues, List.filter_map]
  rfl

namespace Write

/-- What becomes of digest and document of a file. -/
def entryAfter (path : String) (before : Option (String × Option String)) :
    Write → Option (String × Option String)
  | .documented other digest document =>
      if other = path then some (digest, document) else before
  | _ => before

/-- What becomes of the symbols of a file. -/
def symbolsAfter (path : String) (before : NameMap String) : Write → NameMap String
  | .listed other names digest => if other = path then relist digest names before else before
  | _ => before

/-- What becomes of what is advised on a change. -/
def adviceAfter (pair : Pair) (before : Option (Option Bool)) : Write → Option (Option Bool)
  | .scored other verdict => if other = pair then some verdict.toRow.advice? else before
  | _ => before

end Write

section Writes

variable {now : String} {store next : Store} {write : Write}

theorem entryOf?_write (done : store.write now write = .ok next) (path : String) :
    next.entryOf? path = write.entryAfter path (store.entryOf? path) := by
  have tables := (write_tables done).1
  cases write with
  | documented other digest document =>
      obtain ⟨ledger, held, _next⟩ := write_documented.mp done
      rw [entryOf?, tables, held, Option.map_some, Option.bind_some, Write.onLedger,
        Write.entryAfter]
      by_cases same : other = path
      · rw [if_pos same, same, NameMap.find?_insert_self]
        rfl
      · rw [if_neg same, NameMap.find?_insert_of_ne ledger _ (fun equal => same equal.symm),
          entryOf?, held, Option.bind_some]
  | _ =>
      have same : next.ledger = store.ledger := tables.trans Option.map_id'
      rw [entryOf?, same]
      rfl

theorem symbolsAt_write (done : store.write now write = .ok next) (path : String) :
    next.symbolsAt path = write.symbolsAfter path (store.symbolsAt path) := by
  have tables := (write_tables done).2.2.1
  cases write with
  | listed other names digest =>
      obtain ⟨symbols, held, _next⟩ := write_listed.mp done
      rw [symbolsAt, tables, held, Option.map_some, Option.bind_some, Write.onSymbols, relisted,
        Write.symbolsAfter]
      by_cases same : other = path
      · subst same
        rw [if_pos rfl, symbolsAt, held, Option.bind_some, ← mapValues_listSymbols now]
        split
        · rename_i empty
          rw [NameMap.find?_erase_self, List.isEmpty_iff.mp empty]
          rfl
        · rw [NameMap.find?_insert_self]
          rfl
      · have apart : path ≠ other := fun equal => same equal.symm
        rw [if_neg same, symbolsAt, held, Option.bind_some]
        split
        · rw [NameMap.find?_erase_of_ne symbols apart]
        · rw [NameMap.find?_insert_of_ne symbols _ apart]
  | _ =>
      have same : next.symbols = store.symbols := tables.trans Option.map_id'
      rw [symbolsAt, same]
      rfl

theorem adviceOf?_write (done : store.write now write = .ok next) (pair : Pair) :
    next.adviceOf? pair = write.adviceAfter pair (store.adviceOf? pair) := by
  rw [adviceOf?, analysisOf?_write done]
  cases write with
  | scored other verdict =>
      rw [Write.analysisAfter, Write.adviceAfter]
      split <;> rfl
  | _ => rfl

end Writes

end Store

end DocDrift
