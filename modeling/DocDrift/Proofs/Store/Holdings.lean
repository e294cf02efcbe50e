import DocDrift.Proofs.Store.Writes

/-!
What a store holds of a file: its row in the ledger, its symbols and what its documents cost. A write
about one file changes what is held of no other; usage and verdicts only come, behind those that are
there.
-/

set_option autoImplicit false

namespace DocDrift.Store

def usageOf (store : Store) (path : String) : List UsageRow :=
  (store.usage.getD []).filter (fun row => decide (row.usage.path = some path))

/-- What a store holds of a file, or how it fails to answer. -/
structure Holding where
  row : Except Failure (Option LedgerRow)
  symbols : Except Failure (NameMap SymbolRow)
  usage : List UsageRow

def holdingOf (store : Store) (path : String) : Holding :=
  ⟨store.row? path, store.symbolsOf path, store.usageOf path⟩

/-- The file that a write to the ledger, the symbols or the usage is about. -/
def Write.about : Write → Option String
  | .documented path _ _ => some path
  | .listed path _ _ => some path
  | .spent usage => usage.path
  | .processed _ _ => none
  | .scored _ _ => none

/-! ### What a write changes of it -/

section Writes

variable {now : String} {store next : Store} {write : Write} {path : String}

theorem holdingOf_congr (row : next.row? path = store.row? path)
    (symbols : next.symbolsOf path = store.symbolsOf path)
    (usage : next.usageOf path = store.usageOf path) :
    next.holdingOf path = store.holdingOf path := by
  unfold holdingOf
  rw [row, symbols, usage]

theorem find?_relisted_of_ne {digest other : String} {names : List String}
    (symbols : NameMap (NameMap SymbolRow)) (different : path ≠ other) :
    (relisted now digest other names symbols).find? path = symbols.find? path := by
  unfold relisted
  dsimp only
  split
  · exact NameMap.find?_erase_of_ne symbols different
  · exact NameMap.find?_insert_of_ne symbols _ different

/-- What is held of a file that a write is not about stays as it is. -/
theorem holdingOf_write (done : store.write now write = .ok next)
    (apart : write.about ≠ some path) : next.holdingOf path = store.holdingOf path := by
  cases write with
  | documented other digest document =>
      obtain ⟨ledger, held, rfl⟩ := write_documented.mp done
      have different : path ≠ other := fun same => apart (congrArg some same.symm)
      refine holdingOf_congr ?_ rfl rfl
      rw [row?, row?, held]
      exact congrArg Except.ok (NameMap.find?_insert_of_ne ledger _ different)
  | listed other names digest =>
      obtain ⟨symbols, held, rfl⟩ := write_listed.mp done
      have different : path ≠ other := fun same => apart (congrArg some same.symm)
      refine holdingOf_congr rfl ?_ rfl
      rw [symbolsOf, symbolsOf, held]
      exact congrArg (fun rows => Except.ok (rows.getD [])) (find?_relisted_of_ne symbols different)
  | spent usage =>
      obtain ⟨rows, held, _number, rfl⟩ := write_spent.mp done
      have other : usage.path ≠ some path := apart
      refine holdingOf_congr rfl rfl ?_
      rw [usageOf, usageOf, held]
      dsimp only [Option.getD_some]
      rw [List.filter_append, List.filter_cons_of_neg (by simpa using other)]
      exact List.append_nil _
  | processed repository commit =>
      obtain ⟨markers, held, rfl⟩ := write_processed.mp done
      rfl
  | scored pair verdict =>
      obtain ⟨analyses, held, rfl⟩ := write_scored.mp done
      rfl

theorem row?_documented {digest : String} {document : Option String}
    (done : store.write now (.documented path digest document) = .ok next) :
    next.row? path = .ok (some ⟨digest, document, now⟩) ∧
      next.symbolsOf path = store.symbolsOf path ∧ next.usageOf path = store.usageOf path := by
  obtain ⟨ledger, held, rfl⟩ := write_documented.mp done
  refine ⟨?_, rfl, rfl⟩
  rw [row?]
  exact congrArg Except.ok (NameMap.find?_insert_self ledger _ _)

theorem symbolsOf_listed {names : List String} {digest : String}
    (done : store.write now (.listed path names digest) = .ok next) :
    next.row? path = store.row? path ∧
      (∃ rows, store.symbolsOf path = .ok rows ∧
        next.symbolsOf path = .ok (listSymbols now digest names rows)) ∧
      next.usageOf path = store.usageOf path := by
  obtain ⟨symbols, held, rfl⟩ := write_listed.mp done
  refine ⟨rfl, ⟨(symbols.find? path).getD [], ?_, ?_⟩, rfl⟩
  · rw [symbolsOf, held]
    rfl
  · rw [symbolsOf]
    refine congrArg Except.ok ?_
    unfold relisted
    dsimp only
    split
    case isTrue empty =>
      rw [NameMap.find?_erase_self, List.isEmpty_iff.mp empty]
      rfl
    case isFalse some =>
      rw [NameMap.find?_insert_self]
      rfl

theorem usageOf_spent {usage : Usage} (about : usage.path = some path)
    (done : store.write now (.spent usage) = .ok next) :
    next.row? path = store.row? path ∧ next.symbolsOf path = store.symbolsOf path ∧
      ∃ number, next.usageOf path = store.usageOf path ++
        [⟨number, { usage with cost := keptCost usage.cost }, now⟩] := by
  obtain ⟨rows, held, _number, rfl⟩ := write_spent.mp done
  refine ⟨rfl, rfl, rows.length + 1, ?_⟩
  rw [usageOf, usageOf, held]
  dsimp only [Option.getD_some]
  rw [List.filter_append, List.filter_cons_of_pos (by simpa using about), List.filter_nil]

/-! ### What a write adds -/

/-- Usage is added behind that which was there, and for the file that the write is about. -/
theorem usage_write (done : store.write now write = .ok next) :
    ∃ spent, next.usage = store.usage.map (· ++ spent) ∧
      ∀ row ∈ spent, row.usage.path = write.about := by
  cases write with
  | spent usage =>
      obtain ⟨rows, held, _number, rfl⟩ := write_spent.mp done
      refine ⟨[⟨rows.length + 1, { usage with cost := keptCost usage.cost }, now⟩], ?_, ?_⟩
      · rw [held]
        rfl
      · intro row mem
        rw [List.mem_singleton.mp mem]
        rfl
  | _ =>
      have still : next.usage = store.usage := usage_write_of_ne (by simp) done
      exact ⟨[], by simp [still], List.forall_mem_nil _⟩

theorem analyses_write (done : store.write now write = .ok next)
    (other : ∀ analyses, write.onAnalyses analyses = analyses) :
    next.analyses = store.analyses := by
  rw [(write_tables done).2.2.2]
  cases store.analyses with
  | none => rfl
  | some analyses => rw [Option.map_some, other]

/-- A verdict that was not kept yet is added behind those that were. -/
theorem analyses_scored {pair : Pair} {verdict : Verdict}
    (unknown : store.verdict? pair = .ok none)
    (done : store.write now (.scored pair verdict) = .ok next) :
    next.analyses = store.analyses.map (· ++ [(pair, verdict.toRow)]) := by
  obtain ⟨analyses, held, rfl⟩ := write_scored.mp done
  have missing := verdict?_none unknown
  rw [analysisOf?, held, Option.bind_some] at missing
  rw [held, Option.map_some, Keyed.put_of_find?_eq_none analyses _ missing]

end Writes

/-! ### Accounts -/

/-- Between two stores, what is held changed for the documented files only. Verdicts were added, at
most one for each of the evaluated files, and usage for the documented ones. -/
structure Accounts (evaluated documented : List String) (before after : Store) : Prop where
  held : ∀ path, path ∉ documented → after.holdingOf path = before.holdingOf path
  analyses : ∃ gained : Keyed Pair AnalysisRow, after.analyses = before.analyses.map (· ++ gained) ∧
    (gained.map (·.1.path)).Sublist evaluated
  usage : ∃ spent : List UsageRow, after.usage = before.usage.map (· ++ spent) ∧
    ∀ row ∈ spent, ∃ path ∈ documented, row.usage.path = some path

namespace Accounts

variable {evaluated more documented other : List String} {now : String} {before between after : Store}

theorem map_append {α : Type} {table table' table'' : Option (List α)} {first second : List α}
    (left : table' = table.map (· ++ first)) (right : table'' = table'.map (· ++ second)) :
    table'' = table.map (· ++ (first ++ second)) := by
  rw [right, left, Option.map_map]
  congr 1
  funext rows
  exact List.append_assoc ..

theorem refl (evaluated documented : List String) (store : Store) :
    Accounts evaluated documented store store where
  held _path _absent := rfl
  analyses := ⟨[], by simp, List.nil_sublist _⟩
  usage := ⟨[], by simp, List.forall_mem_nil _⟩

theorem trans (first : Accounts evaluated documented before between)
    (second : Accounts more documented between after) :
    Accounts (evaluated ++ more) documented before after := by
  obtain ⟨gained, analyses, evaluatedOnce⟩ := first.analyses
  obtain ⟨gained', analyses', moreOnce⟩ := second.analyses
  obtain ⟨spent, usage, own⟩ := first.usage
  obtain ⟨spent', usage', own'⟩ := second.usage
  refine ⟨?_, ⟨gained ++ gained', map_append analyses analyses', ?_⟩,
    ⟨spent ++ spent', map_append usage usage', ?_⟩⟩
  · intro path absent
    exact (second.held path absent).trans (first.held path absent)
  · rw [List.map_append]
    exact evaluatedOnce.append moreOnce
  · intro row mem
    exact (List.mem_append.mp mem).elim (own row) (own' row)

theorem mono (accounts : Accounts evaluated documented before after)
    (included : documented ⊆ other) : Accounts evaluated other before after := by
  obtain ⟨spent, usage, own⟩ := accounts.usage
  refine ⟨?_, accounts.analyses, ⟨spent, usage, ?_⟩⟩
  · intro path absent
    exact accounts.held path (fun mem => absent (included mem))
  · intro row mem
    obtain ⟨path, documented, about⟩ := own row mem
    exact ⟨path, included documented, about⟩

theorem of_write {write : Write} {path : String} (done : before.write now write = .ok after)
    (about : write.about = some path)
    (unscored : ∀ analyses, write.onAnalyses analyses = analyses) :
    Accounts [] [path] before after := by
  obtain ⟨spent, usage, own⟩ := usage_write done
  refine ⟨?_, ⟨[], ?_, List.nil_sublist _⟩, ⟨spent, usage, ?_⟩⟩
  · intro other absent
    apply holdingOf_write done
    rw [about]
    exact fun same => absent (List.mem_singleton.mpr (Option.some.inj same).symm)
  · rw [analyses_write done unscored]
    simp
  · intro row mem
    exact ⟨path, List.mem_singleton_self _, (own row mem).trans about⟩

theorem of_scored {pair : Pair} {verdict : Verdict} (unknown : before.verdict? pair = .ok none)
    (done : before.write now (.scored pair verdict) = .ok after) :
    Accounts [pair.path] [] before after := by
  refine ⟨fun path _absent => holdingOf_write done nofun,
    ⟨[(pair, verdict.toRow)], analyses_scored unknown done, List.Sublist.refl _⟩, ?_⟩
  obtain ⟨analyses, held, rfl⟩ := write_scored.mp done
  exact ⟨[], by simp, List.forall_mem_nil _⟩

theorem of_processed {repository commit : String}
    (done : before.write now (.processed repository commit) = .ok after) :
    Accounts [] [] before after := by
  obtain ⟨markers, held, rfl⟩ := write_processed.mp done
  exact ⟨fun path _absent => rfl, ⟨[], by simp, List.nil_sublist _⟩,
    ⟨[], by simp, List.forall_mem_nil _⟩⟩

end Accounts

end DocDrift.Store
