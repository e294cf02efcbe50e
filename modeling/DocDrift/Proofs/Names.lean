import DocDrift.NameMap

/-!
What a map by name holds: each name once, in ascending order, and of the entries it was made from
the last one of each name.
-/

set_option autoImplicit false

namespace DocDrift.NameMap

variable {α : Type} {name : String} {value : α} {map : NameMap α}

def Ascending (map : NameMap α) : Prop :=
  map.Pairwise (fun entry later => entry.1 < later.1)

theorem Ascending.nodup (ascending : map.Ascending) : map.names.Nodup := by
  rw [names, List.Nodup, List.pairwise_map]
  apply List.Pairwise.imp _ ascending
  intro entry later less same
  rw [same] at less
  exact String.lt_irrefl _ less

theorem mem_insert (ascending : map.Ascending) (entry : String × α) :
    entry ∈ insert name value map ↔ entry = (name, value) ∨ (entry ∈ map ∧ entry.1 ≠ name) := by
  induction map with
  | nil => simp [insert]
  | cons first rest ih =>
      obtain ⟨other, kept⟩ := first
      have later : ∀ entry ∈ rest, other < entry.1 := (List.pairwise_cons.mp ascending).1
      rw [insert]
      split
      case isTrue less =>
        -- a smaller name is new, for all others are larger still
        have new : ∀ entry ∈ (other, kept) :: rest, entry.1 ≠ name := by
          rintro entry mem rfl
          rcases List.mem_cons.mp mem with rfl | mem
          · exact String.lt_irrefl _ less
          · exact String.lt_irrefl _ (String.lt_trans less (later entry mem))
        rw [List.mem_cons]
        exact or_congr Iff.rfl ⟨fun mem => ⟨mem, new entry mem⟩, And.left⟩
      case isFalse notLess =>
        split
        case isTrue same =>
          have new : ∀ entry ∈ rest, entry.1 ≠ name := by
            rintro entry mem rfl
            exact String.lt_irrefl _ (same ▸ later entry mem)
          rw [List.mem_cons, List.mem_cons]
          refine or_congr Iff.rfl ⟨fun mem => ⟨.inr mem, new entry mem⟩, ?_⟩
          rintro ⟨rfl | mem, different⟩
          · exact absurd same.symm different
          · exact mem
        case isFalse different =>
          rw [List.mem_cons, List.mem_cons, ih (List.pairwise_cons.mp ascending).2]
          constructor
          · rintro (rfl | rfl | ⟨mem, other⟩)
            · exact .inr ⟨.inl rfl, fun same => different same.symm⟩
            · exact .inl rfl
            · exact .inr ⟨.inr mem, other⟩
          · rintro (rfl | ⟨rfl | mem, other⟩)
            · exact .inr (.inl rfl)
            · exact .inl rfl
            · exact .inr (.inr ⟨mem, other⟩)

theorem Ascending.insert (ascending : map.Ascending) (name : String) (value : α) :
    Ascending (insert name value map) := by
  induction map with
  | nil => exact List.pairwise_singleton ..
  | cons first rest ih =>
      obtain ⟨other, kept⟩ := first
      obtain ⟨later, rising⟩ := List.pairwise_cons.mp ascending
      rw [NameMap.insert]
      split
      case isTrue less =>
        refine List.pairwise_cons.mpr ⟨?_, ascending⟩
        intro entry mem
        rcases List.mem_cons.mp mem with rfl | mem
        · exact less
        · exact String.lt_trans less (later entry mem)
      case isFalse notLess =>
        split
        case isTrue same =>
          exact List.pairwise_cons.mpr ⟨fun entry mem => same ▸ later entry mem, rising⟩
        case isFalse different =>
          refine List.pairwise_cons.mpr ⟨?_, ih rising⟩
          intro entry mem
          rcases (mem_insert rising entry).mp mem with rfl | ⟨mem, _other⟩
          · apply String.not_le.mp
            intro most
            exact different (String.le_antisymm (String.not_lt.mp notLess) most).symm
          · exact later entry mem

/-! ### Entries -/

section Entries

variable (entries : List (String × α))

theorem ascending_foldl (ascending : map.Ascending) :
    Ascending (entries.foldl (fun map entry => NameMap.insert entry.1 entry.2 map) map) := by
  induction entries generalizing map with
  | nil => exact ascending
  | cons entry rest ih => exact ih (ascending.insert entry.1 entry.2)

theorem ascending_ofList : (ofList entries).Ascending :=
  ascending_foldl entries .nil

theorem mem_foldl (ascending : map.Ascending) (entry : String × α) :
    entry ∈ entries.foldl (fun map entry => NameMap.insert entry.1 entry.2 map) map ↔
      (∃ before after, entries = before ++ entry :: after ∧
        ∀ other ∈ after, other.1 ≠ entry.1) ∨
      (entry ∈ map ∧ ∀ other ∈ entries, other.1 ≠ entry.1) := by
  induction entries generalizing map with
  | nil => simp
  | cons first rest ih =>
      rw [List.foldl_cons, ih (ascending.insert first.1 first.2), mem_insert ascending]
      constructor
      · rintro (⟨before, after, rfl, last⟩ | ⟨rfl | ⟨mem, different⟩, absent⟩)
        · exact .inl ⟨first :: before, after, rfl, last⟩
        · exact .inl ⟨[], rest, rfl, absent⟩
        · exact .inr ⟨mem, List.forall_mem_cons.mpr ⟨different.symm, absent⟩⟩
      · rintro (⟨before, after, split, last⟩ | ⟨mem, absent⟩)
        · rcases List.cons_eq_append_iff.mp split with ⟨rfl, same⟩ | ⟨earlier, rfl, split⟩
          · obtain ⟨rfl, rfl⟩ := List.cons.inj same
            exact .inr ⟨.inl rfl, last⟩
          · exact .inl ⟨earlier, after, (List.cons.inj split).2, last⟩
        · obtain ⟨different, absent⟩ := List.forall_mem_cons.mp absent
          exact .inr ⟨.inr ⟨mem, different.symm⟩, absent⟩

/-- Of several entries with one name the last stays. -/
theorem mem_ofList (entry : String × α) : entry ∈ ofList entries ↔
    ∃ before after, entries = before ++ entry :: after ∧ ∀ other ∈ after, other.1 ≠ entry.1 := by
  rw [ofList, mem_foldl entries .nil]
  exact or_iff_left fun none => List.not_mem_nil none.1

theorem mem_of_mem_ofList {entries : List (String × α)} {entry : String × α}
    (mem : entry ∈ ofList entries) : entry ∈ entries := by
  obtain ⟨before, after, rfl, _last⟩ := (mem_ofList entries entry).mp mem
  exact List.mem_append_right _ List.mem_cons_self

end Entries

end DocDrift.NameMap
