import DocDrift.Proofs.Tables
import DocDrift.Store

/-!
What a write makes of each table. A write needs the table that it changes; it leaves the others as
they are, and when it fails, it is the store that fails.
-/

set_option autoImplicit false

namespace DocDrift.Store

/-! ### Rows -/

/-- The digest under which a file was documented. -/
def digestOf? (store : Store) (path : String) : Option String :=
  (store.ledger.bind (·.find? path)).map (·.digest)

/-- The commit up to which a repository was processed. -/
def commitOf? (store : Store) (repository : String) : Option String :=
  (store.markers.bind (·.find? repository)).map (·.commit)

/-- What is kept of a scored change. -/
def analysisOf? (store : Store) (pair : Pair) : Option AnalysisRow :=
  store.analyses.bind (·.find? pair)

theorem verdict?_eq (store : Store) (pair : Pair) :
    store.verdict? pair =
      match store.analyses, store.analysisOf? pair with
      | none, _ => .error .store
      | some _, none => .ok none
      | some _, some row =>
          match Verdict.ofRow? row with
          | none => .error .store
          | some verdict => .ok (some verdict) := by
  unfold verdict? analysisOf?
  cases store.analyses with
  | none => rfl
  | some analyses =>
      simp only [found, bind, Except.bind, pure, Except.pure, Option.bind_some]
      cases analyses.find? pair with
      | none => rfl
      | some row =>
          dsimp only
          cases Verdict.ofRow? row <;> rfl

theorem verdict?_none {store : Store} {pair : Pair} (unknown : store.verdict? pair = .ok none) :
    store.analysisOf? pair = none := by
  rw [verdict?_eq] at unknown
  split at unknown
  · cases unknown
  · assumption
  · split at unknown <;> cases unknown

theorem verdict?_some {store : Store} {pair : Pair} {verdict : Verdict}
    (known : store.verdict? pair = .ok (some verdict)) :
    ∃ row, store.analysisOf? pair = some row ∧ Verdict.ofRow? row = some verdict := by
  rw [verdict?_eq] at known
  split at known
  · cases known
  · cases known
  · rename_i row _held present
    split at known
    · cases known
    · rename_i other read
      cases known
      exact ⟨row, present, read⟩

theorem check_eq (store : Store) (path : String) (contents : ByteArray) :
    store.check path contents =
      match store.ledger with
      | none => .error .store
      | some _ => .ok {
          needsUpdate := store.digestOf? path != some (Digest.ofBytes contents)
          isNew := (store.digestOf? path).isNone
          current := some (Digest.ofBytes contents)
          last := store.digestOf? path
          fault := none } := by
  unfold check row? digestOf?
  cases store.ledger with
  | none => rfl
  | some ledger => rfl

/-! ### Each kind of write -/

section Kinds

variable {now : String} {store next : Store}

theorem found_bind_ok {α β : Type} {table : Option α} {rest : α → Except Failure β} {value : β} :
    (found table >>= rest) = .ok value ↔ ∃ rows, table = some rows ∧ rest rows = .ok value := by
  cases table with
  | none =>
      constructor
      · intro done
        contradiction
      · rintro ⟨rows, held, _⟩
        contradiction
  | some rows =>
      constructor
      · intro done
        exact ⟨rows, rfl, done⟩
      · rintro ⟨other, held, done⟩
        cases held
        exact done

theorem write_documented {path digest : String} {document : Option String} :
    store.write now (.documented path digest document) = .ok next ↔
      ∃ ledger, store.ledger = some ledger ∧
        { store with ledger := some (ledger.insert path ⟨digest, document, now⟩) } = next := by
  rw [write, found_bind_ok]
  simp only [pure, Except.pure, Except.ok.injEq]

theorem write_processed {repository commit : String} :
    store.write now (.processed repository commit) = .ok next ↔
      ∃ markers, store.markers = some markers ∧
        { store with markers := some (markers.insert repository ⟨commit, now⟩) } = next := by
  rw [write, found_bind_ok]
  simp only [pure, Except.pure, Except.ok.injEq]

def relisted (now digest path : String) (names : List String)
    (symbols : NameMap (NameMap SymbolRow)) : NameMap (NameMap SymbolRow) :=
  let rows := listSymbols now digest names ((symbols.find? path).getD [])
  if rows.isEmpty then symbols.erase path else symbols.insert path rows

theorem write_listed {path digest : String} {names : List String} :
    store.write now (.listed path names digest) = .ok next ↔
      ∃ symbols, store.symbols = some symbols ∧
        { store with symbols := some (relisted now digest path names symbols) } = next := by
  rw [write, found_bind_ok]
  simp only [pure, Except.pure, Except.ok.injEq, relisted]

theorem write_spent {usage : Usage} :
    store.write now (.spent usage) = .ok next ↔
      ∃ rows, store.usage = some rows ∧ usage.cost.isNaN = false ∧
        { store with usage := some (rows ++
          [⟨rows.length + 1, { usage with cost := keptCost usage.cost }, now⟩]) } = next := by
  rw [write, found_bind_ok]
  cases usage.cost.isNaN with
  | true => simp only [if_true, reduceCtorEq, and_false, false_and]
  | false =>
      simp only [pure, Except.pure, Except.ok.injEq, Bool.false_eq_true, if_false, true_and]

theorem write_scored {pair : Pair} {verdict : Verdict} :
    store.write now (.scored pair verdict) = .ok next ↔
      ∃ analyses, store.analyses = some analyses ∧
        { store with analyses := some (Keyed.put pair verdict.toRow analyses) } = next := by
  rw [write, found_bind_ok]
  simp only [pure, Except.pure, Except.ok.injEq]

theorem found_bind_error {α β : Type} {table : Option α} {rest : α → Except Failure β}
    {failure : Failure} (failed : found table >>= rest = .error failure)
    (restFailed : ∀ rows, rest rows = .error failure → failure = .store) :
    failure = .store := by
  cases table with
  | none =>
      cases failed
      rfl
  | some rows => exact restFailed rows failed

theorem verdict?_error {pair : Pair} {failure : Failure}
    (failed : store.verdict? pair = .error failure) : failure = .store := by
  rw [verdict?_eq] at failed
  split at failed
  · cases failed
    rfl
  · cases failed
  · split at failed
    · cases failed
      rfl
    · cases failed

theorem symbolsOf_error {path : String} {failure : Failure}
    (failed : store.symbolsOf path = .error failure) : failure = .store := by
  refine found_bind_error failed (fun rows ended => ?_)
  contradiction

theorem write_error {write : Write} {failure : Failure}
    (failed : store.write now write = .error failure) : failure = .store := by
  cases write with
  | spent usage =>
      refine found_bind_error failed (fun rows restFailed => ?_)
      cases unknown : usage.cost.isNaN with
      | true =>
          rw [unknown, if_pos rfl] at restFailed
          cases restFailed
          rfl
      | false =>
          rw [unknown, if_neg Bool.false_ne_true] at restFailed
          contradiction
  | _ =>
      refine found_bind_error failed (fun rows restFailed => ?_)
      contradiction

end Kinds

/-! ### Each table -/

namespace Write

def onLedger (now : String) : Write → NameMap LedgerRow → NameMap LedgerRow
  | .documented path digest document, ledger => ledger.insert path ⟨digest, document, now⟩
  | _, ledger => ledger

def onMarkers (now : String) : Write → NameMap MarkerRow → NameMap MarkerRow
  | .processed repository commit, markers => markers.insert repository ⟨commit, now⟩
  | _, markers => markers

def onSymbols (now : String) :
    Write → NameMap (NameMap SymbolRow) → NameMap (NameMap SymbolRow)
  | .listed path names digest, symbols => relisted now digest path names symbols
  | _, symbols => symbols

def onAnalyses : Write → Keyed Pair AnalysisRow → Keyed Pair AnalysisRow
  | .scored pair verdict, analyses => Keyed.put pair verdict.toRow analyses
  | _, analyses => analyses

end Write

section Tables

variable {now : String} {store next : Store} {write : Write}

/-- What a write makes of the tables that decide what a pass does. -/
theorem write_tables (done : store.write now write = .ok next) :
    next.ledger = store.ledger.map (write.onLedger now) ∧
      next.markers = store.markers.map (write.onMarkers now) ∧
      next.symbols = store.symbols.map (write.onSymbols now) ∧
      next.analyses = store.analyses.map write.onAnalyses := by
  cases write with
  | documented path digest document =>
      obtain ⟨ledger, held, rfl⟩ := write_documented.mp done
      exact ⟨held ▸ rfl, Option.map_id'.symm, Option.map_id'.symm, Option.map_id'.symm⟩
  | processed repository commit =>
      obtain ⟨markers, held, rfl⟩ := write_processed.mp done
      exact ⟨Option.map_id'.symm, held ▸ rfl, Option.map_id'.symm, Option.map_id'.symm⟩
  | listed path names digest =>
      obtain ⟨symbols, held, rfl⟩ := write_listed.mp done
      exact ⟨Option.map_id'.symm, Option.map_id'.symm, held ▸ rfl, Option.map_id'.symm⟩
  | spent usage =>
      obtain ⟨rows, held, number, rfl⟩ := write_spent.mp done
      exact ⟨Option.map_id'.symm, Option.map_id'.symm, Option.map_id'.symm, Option.map_id'.symm⟩
  | scored pair verdict =>
      obtain ⟨analyses, held, rfl⟩ := write_scored.mp done
      exact ⟨Option.map_id'.symm, Option.map_id'.symm, Option.map_id'.symm, held ▸ rfl⟩

theorem usage_write_of_ne {write : Write} (other : ∀ usage, write ≠ .spent usage)
    (done : store.write now write = .ok next) : next.usage = store.usage := by
  cases write with
  | spent usage => exact absurd rfl (other usage)
  | documented path digest document =>
      obtain ⟨ledger, _held, rfl⟩ := write_documented.mp done
      rfl
  | processed repository commit =>
      obtain ⟨markers, _held, rfl⟩ := write_processed.mp done
      rfl
  | listed path names digest =>
      obtain ⟨symbols, _held, rfl⟩ := write_listed.mp done
      rfl
  | scored pair verdict =>
      obtain ⟨analyses, _held, rfl⟩ := write_scored.mp done
      rfl

def Write.digestAfter (path : String) (before : Option String) : Write → Option String
  | .documented other digest _ => if other = path then some digest else before
  | _ => before

theorem digestOf?_write (done : store.write now write = .ok next) (path : String) :
    next.digestOf? path = write.digestAfter path (store.digestOf? path) := by
  have tables := (write_tables done).1
  cases write with
  | documented other digest document =>
      obtain ⟨ledger, held, _next⟩ := write_documented.mp done
      rw [digestOf?, tables, held, Option.map_some, Option.bind_some, Write.onLedger,
        Write.digestAfter]
      by_cases same : other = path
      · rw [if_pos same, same, NameMap.find?_insert_self]
        rfl
      · rw [if_neg same, NameMap.find?_insert_of_ne ledger _ (fun equal => same equal.symm),
          digestOf?, held, Option.bind_some]
  | _ =>
      have same : next.ledger = store.ledger := tables.trans Option.map_id'
      rw [digestOf?, same]
      rfl

def Write.analysisAfter (pair : Pair) (before : Option AnalysisRow) :
    Write → Option AnalysisRow
  | .scored other verdict => if other = pair then some verdict.toRow else before
  | _ => before

theorem analysisOf?_write (done : store.write now write = .ok next) (pair : Pair) :
    next.analysisOf? pair = write.analysisAfter pair (store.analysisOf? pair) := by
  have tables := (write_tables done).2.2.2
  cases write with
  | scored other verdict =>
      obtain ⟨analyses, held, _next⟩ := write_scored.mp done
      rw [analysisOf?, tables, held, Option.map_some, Option.bind_some, Write.onAnalyses,
        Write.analysisAfter]
      by_cases same : other = pair
      · rw [if_pos same, same, Keyed.find?_put_self]
      · rw [if_neg same, Keyed.find?_put_of_ne analyses _ (fun equal => same equal.symm),
          analysisOf?, held, Option.bind_some]
  | _ =>
      have same : next.analyses = store.analyses := tables.trans Option.map_id'
      rw [analysisOf?, same]
      rfl

/-- What is answered on a change of which a verdict was kept is what its row is read as. -/
theorem verdict?_of_scored {pair : Pair} {verdict : Verdict}
    (done : store.write now (.scored pair verdict) = .ok next) :
    next.verdict? pair =
      match Verdict.ofRow? verdict.toRow with
      | none => .error .store
      | some kept => .ok (some kept) := by
  have row : next.analysisOf? pair = some verdict.toRow := by
    rw [analysisOf?_write done, Write.analysisAfter, if_pos rfl]
  obtain ⟨analyses, held, rfl⟩ := write_scored.mp done
  rw [verdict?_eq, row]

theorem verdict?_scored_of_ne {pair other : Pair} {verdict : Verdict} (different : other ≠ pair)
    (done : store.write now (.scored pair verdict) = .ok next) :
    next.verdict? other = store.verdict? other := by
  have row : next.analysisOf? other = store.analysisOf? other := by
    rw [analysisOf?_write done, Write.analysisAfter, if_neg (Ne.symm different)]
  obtain ⟨analyses, held, rfl⟩ := write_scored.mp done
  rw [verdict?_eq, verdict?_eq, row, held]
  cases store.analysisOf? other <;> rfl

/-! ### Cleaning up -/

/-- A clean-up that succeeds finds no file of the ledger gone and changes nothing, or it takes the
rows and the symbols of those that are gone and leaves the other tables alone. -/
theorem cleanup_cases {isGone : String → Bool} {count : Nat}
    (cleaned : store.cleanup isGone = .ok (next, count)) :
    ∃ ledger, store.ledger = some ledger ∧
      ((ledger.names.filter isGone = [] ∧ next = store) ∨
        ∃ symbols, store.symbols = some symbols ∧
          next = { store with
            ledger := some (ledger.filter (fun row => !isGone row.1))
            symbols := some
              (symbols.filter (fun row => !(ledger.names.filter isGone).contains row.1)) }) := by
  unfold cleanup at cleaned
  obtain ⟨ledger, held, cleaned⟩ := found_bind_ok.mp cleaned
  dsimp only at cleaned
  refine ⟨ledger, held, ?_⟩
  split at cleaned
  case isTrue none =>
    cases cleaned
    exact .inl ⟨List.isEmpty_iff.mp none, rfl⟩
  case isFalse some =>
    obtain ⟨symbols, listed, cleaned⟩ := found_bind_ok.mp cleaned
    cases cleaned
    exact .inr ⟨symbols, listed, rfl⟩

end Tables

end DocDrift.Store
