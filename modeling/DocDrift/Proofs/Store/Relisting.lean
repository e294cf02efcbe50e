import DocDrift.Proofs.Store.Holdings
import DocDrift.Proofs.Store.Registry

/-!
The symbols of a file after a list of names: those of the list, and those that were listed before
with the same digest, since the digest is all that tells old symbols from new ones. The list takes
the place of the symbols that were there only if it has all of the latter.
-/

set_option autoImplicit false

namespace DocDrift.Store

theorem symbolsOf_listed_of_ne {now path digest other : String} {names : List String}
    {store next : Store} (done : store.write now (.listed path names digest) = .ok next)
    (different : other ≠ path) : next.symbolsOf other = store.symbolsOf other := by
  have apart : Write.about (.listed path names digest) ≠ some other :=
    fun same => different (Option.some.inj same).symm
  exact congrArg Holding.symbols (holdingOf_write done apart)

/-- What a list of names leaves in the registry. Each row of the file has the digest of the list;
the names are those of the list and those that had this digest before, so they are exactly those of
the list if and only if the list has all of the latter. Other files keep their rows. -/
theorem replaced_iff_covered {now path digest : String} {names : List String} {store next : Store}
    (done : store.write now (.listed path names digest) = .ok next) :
    ∃ before rows, store.symbolsOf path = .ok before ∧ next.symbolsOf path = .ok rows ∧
      (∀ name row, (name, row) ∈ rows → row.digest = digest) ∧
      (∀ name, name ∈ rows.names ↔
        name ∈ names ∨ ∃ row, (name, row) ∈ before ∧ row.digest = digest) ∧
      ((∀ name, name ∈ rows.names ↔ name ∈ names) ↔
        ∀ name row, (name, row) ∈ before → row.digest = digest → name ∈ names) ∧
      ∀ other, other ≠ path → next.symbolsOf other = store.symbolsOf other := by
  obtain ⟨_row, ⟨before, held, reached⟩, _usage⟩ := symbolsOf_listed done
  refine ⟨before, _, held, reached, ?_, fun name => mem_names_listSymbols_iff, ?_, ?_⟩
  · intro name row mem
    exact listSymbols_digest mem
  · simp only [mem_names_listSymbols_iff]
    constructor
    · intro replaced name row mem same
      exact (replaced name).mp (.inr ⟨row, mem, same⟩)
    · intro covered name
      exact or_iff_left_of_imp fun ⟨row, mem, same⟩ => covered name row mem same
  · intro other different
    exact symbolsOf_listed_of_ne done different

/-- The store after the symbol `A` of one file was listed under the digest `one`. -/
def withSymbol : Store :=
  { Store.empty with symbols := some [("a.php", [("A", ⟨"monday", "one"⟩)])] }

theorem replaced_iff_covered_of_new_digest :
    ∃ next, withSymbol.write "tuesday" (.listed "a.php" ["B", "B"] "two") = .ok next ∧
      ∃ before rows, withSymbol.symbolsOf "a.php" = .ok before ∧
        next.symbolsOf "a.php" = .ok rows ∧ rows = [("B", ⟨"tuesday", "two"⟩)] ∧
        ∀ name, name ∈ rows.names ↔ name ∈ ["B", "B"] := by
  have done : withSymbol.write "tuesday" (.listed "a.php" ["B", "B"] "two") =
      .ok { Store.empty with symbols := some [("a.php", [("B", ⟨"tuesday", "two"⟩)])] } := rfl
  refine ⟨_, done, ?_⟩
  obtain ⟨before, rows, held, reached, _digests, _names, replaced, _others⟩ :=
    replaced_iff_covered done
  refine ⟨before, rows, held, reached, (Except.ok.inj reached).symm, replaced.mpr ?_⟩
  intro name row mem same
  rw [← Except.ok.inj held] at mem
  cases List.mem_singleton.mp mem
  exact absurd same (by decide)

/-- A list under the digest of an earlier one does not take the place of it: the symbol `A` stays,
which the second list does not have. -/
theorem listing_leaves_old_symbol :
    Store.empty.write "monday" (.listed "a.php" ["A"] "one") = .ok withSymbol ∧
      ∃ next rows, withSymbol.write "tuesday" (.listed "a.php" ["B"] "one") = .ok next ∧
        next.symbolsOf "a.php" = .ok rows ∧ "A" ∈ rows.names ∧ "A" ∉ ["B"] :=
  ⟨rfl, _, [("A", ⟨"monday", "one"⟩), ("B", ⟨"tuesday", "one"⟩)], rfl, rfl, by decide, by decide⟩

end DocDrift.Store
