import DocDrift.History
import DocDrift.Keyed

/-!
Look-ups in tables after a change. A change under one name leaves the other names alone; that holds
of any list of pairs, whether or not its names are in order.
-/

set_option autoImplicit false

namespace DocDrift

theorem ok_of_toOption {ε α : Type} {result : Except ε α} {value : α}
    (succeeded : result.toOption = some value) : result = .ok value := by
  cases result with
  | error error => cases succeeded
  | ok reached =>
      cases succeeded
      rfl

/-- What is computed of each item of a list is computed of the list. -/
theorem mapM_eq_some_map {α β : Type} {items : List α} {compute : α → Option β} {value : α → β}
    (each : ∀ item ∈ items, compute item = some (value item)) :
    items.mapM compute = some (items.map value) := by
  induction items with
  | nil => rfl
  | cons item rest ih =>
      rw [List.mapM_cons, each item List.mem_cons_self,
        ih fun other mem => each other (List.mem_cons_of_mem item mem)]
      rfl

theorem mapM_eq_none {α β : Type} {items : List α} {compute : α → Option β} {item : α}
    (mem : item ∈ items) (nothing : compute item = none) : items.mapM compute = none := by
  induction items with
  | nil => cases mem
  | cons first rest ih =>
      rw [List.mapM_cons]
      rcases List.mem_cons.mp mem with rfl | later
      · rw [nothing]
        rfl
      · rw [ih later]
        cases compute first <;> rfl

namespace NameMap

variable {α : Type}

theorem find?_cons (entry : String × α) (rest : NameMap α) (name : String) :
    find? (entry :: rest) name = if entry.1 = name then some entry.2 else find? rest name := by
  by_cases same : entry.1 = name
  · simp [find?, same]
  · simp [find?, same]

theorem find?_insert_self (map : NameMap α) (name : String) (value : α) :
    (insert name value map).find? name = some value := by
  induction map with
  | nil => simp [insert, find?]
  | cons entry rest ih =>
      rw [insert]
      split
      · rw [find?_cons, if_pos rfl]
      · split
        · rw [find?_cons, if_pos rfl]
        · rename_i different
          rw [find?_cons, if_neg (fun same => different same.symm), ih]

theorem find?_insert_of_ne (map : NameMap α) {name other : String} (value : α)
    (different : other ≠ name) : (insert name value map).find? other = map.find? other := by
  induction map with
  | nil => simp [insert, find?, different.symm]
  | cons entry rest ih =>
      rw [insert]
      split
      · rw [find?_cons, if_neg different.symm]
      · split
        · rename_i same
          rw [find?_cons, find?_cons, if_neg different.symm, if_neg (same ▸ different.symm)]
        · rw [find?_cons, find?_cons, ih]

/-- A filter that looks at the names only hides exactly the names that it drops. -/
theorem find?_filter (map : NameMap α) (keeps : String → Bool) (name : String) :
    NameMap.find? (map.filter (fun entry => keeps entry.1)) name =
      if keeps name then map.find? name else none := by
  induction map with
  | nil => simp [find?]
  | cons entry rest ih =>
      by_cases kept : keeps entry.1 = true
      · rw [List.filter_cons_of_pos (by exact kept), find?_cons, find?_cons, ih]
        by_cases same : entry.1 = name
        · rw [if_pos same, if_pos same, if_pos (same ▸ kept)]
        · rw [if_neg same, if_neg same]
      · rw [List.filter_cons_of_neg (by exact kept), find?_cons, ih]
        by_cases same : entry.1 = name
        · rw [if_neg (same ▸ kept), if_neg (same ▸ kept)]
        · rw [if_neg same]

theorem find?_erase_self (map : NameMap α) (name : String) : (map.erase name).find? name = none := by
  rw [erase, find?_filter map (fun other => other != name)]
  simp

theorem find?_erase_of_ne (map : NameMap α) {name other : String} (different : other ≠ name) :
    (map.erase name).find? other = map.find? other := by
  rw [erase, find?_filter map (fun entry => entry != name)]
  simp [different]

theorem mem_names_insert (map : NameMap α) (name other : String) (value : α) :
    other ∈ (insert name value map).names ↔ other = name ∨ other ∈ map.names := by
  induction map with
  | nil => simp [insert, names]
  | cons entry rest ih =>
      rw [insert]
      split
      · simp [names]
      · split
        · rename_i same
          simp [names, same]
        · have split : ∀ rows : NameMap α,
              other ∈ names (entry :: rows) ↔ other = entry.1 ∨ other ∈ rows.names := by
            intro rows
            exact List.mem_cons
          rw [split, split, ih]
          exact or_left_comm

theorem mem_insert_self (map : NameMap α) (name : String) (value : α) :
    (name, value) ∈ insert name value map := by
  induction map with
  | nil => exact List.mem_cons_self
  | cons entry rest ih =>
      rw [insert]
      split
      · exact List.mem_cons_self
      · split
        · exact List.mem_cons_self
        · exact List.mem_cons_of_mem _ ih

theorem mem_of_mem_insert {map : NameMap α} {name : String} {value : α} {entry : String × α}
    (mem : entry ∈ insert name value map) : entry = (name, value) ∨ entry ∈ map := by
  induction map with
  | nil => exact .inl (List.mem_singleton.mp mem)
  | cons first rest ih =>
      rw [insert] at mem
      split at mem
      · exact List.mem_cons.mp mem
      · split at mem
        · exact (List.mem_cons.mp mem).imp_right (List.mem_cons_of_mem _)
        · rcases List.mem_cons.mp mem with rfl | later
          · exact .inr List.mem_cons_self
          · exact (ih later).imp_right (List.mem_cons_of_mem _)

theorem mem_insert_of_ne {map : NameMap α} {name : String} {value : α} {entry : String × α}
    (different : entry.1 ≠ name) (mem : entry ∈ map) : entry ∈ insert name value map := by
  induction map with
  | nil => cases mem
  | cons first rest ih =>
      rw [insert]
      split
      · exact List.mem_cons_of_mem _ mem
      · split
        · rename_i same
          rcases List.mem_cons.mp mem with rfl | later
          · exact absurd same.symm different
          · exact List.mem_cons_of_mem _ later
        · rcases List.mem_cons.mp mem with rfl | later
          · exact List.mem_cons_self
          · exact List.mem_cons_of_mem _ (ih later)

theorem find?_eq_none (map : NameMap α) (name : String) :
    map.find? name = none ↔ name ∉ map.names := by
  induction map with
  | nil => simp [find?, names]
  | cons entry rest ih =>
      rw [find?_cons]
      by_cases same : entry.1 = name
      · simp [names, same]
      · rw [if_neg same, ih]
        simp [names, Ne.symm same]

theorem mem_names_ofList (entries : List (String × α)) (name : String) :
    name ∈ (ofList entries).names ↔ name ∈ entries.map Prod.fst := by
  have inserted : ∀ (entries : List (String × α)) (map : NameMap α),
      name ∈ (entries.foldl (fun map entry => insert entry.1 entry.2 map) map).names ↔
        name ∈ map.names ∨ name ∈ entries.map Prod.fst := by
    intro entries
    induction entries with
    | nil => simp
    | cons entry rest ih =>
        intro map
        rw [List.foldl_cons, ih, mem_names_insert, List.map_cons, List.mem_cons]
        rw [or_comm (a := name = entry.1), or_assoc]
  rw [ofList, inserted]
  simp [names]

end NameMap

theorem mem_sortedSet (items : List String) (item : String) :
    item ∈ sortedSet items ↔ item ∈ items := by
  rw [sortedSet, NameMap.mem_names_ofList, List.map_map]
  simp

/-- The paths that differ between two snapshots are those with different texts. -/
theorem History.Recorded.mem_differing (old new : History.Snapshot) (path : String) :
    path ∈ differing old new ↔ old.find? path ≠ new.find? path := by
  rw [differing, List.mem_filter, mem_sortedSet, List.mem_append, bne_iff_ne]
  constructor
  · exact And.right
  · intro different
    refine ⟨?_, different⟩
    by_cases old_has : path ∈ old.names
    · exact .inl old_has
    · by_cases new_has : path ∈ new.names
      · exact .inr new_has
      · rw [← NameMap.find?_eq_none] at old_has new_has
        exact absurd (old_has.trans new_has.symm) different

namespace Keyed

variable {κ α : Type} [DecidableEq κ]

theorem find?_cons (row : κ × α) (rest : Keyed κ α) (key : κ) :
    find? (row :: rest) key = if row.1 = key then some row.2 else find? rest key := by
  by_cases same : row.1 = key
  · simp [find?, same]
  · simp [find?, same]

theorem find?_put_self (table : Keyed κ α) (key : κ) (value : α) :
    (put key value table).find? key = some value := by
  induction table with
  | nil => simp [put, find?]
  | cons row rest ih =>
      rw [put]
      split
      · rw [find?_cons, if_pos rfl]
      · rename_i different
        rw [find?_cons, if_neg different, ih]

theorem find?_put_of_ne (table : Keyed κ α) {key other : κ} (value : α) (different : other ≠ key) :
    (put key value table).find? other = table.find? other := by
  induction table with
  | nil => simp [put, find?, different.symm]
  | cons row rest ih =>
      rw [put]
      split
      · rename_i same
        rw [find?_cons, find?_cons, if_neg different.symm, if_neg (same ▸ different.symm)]
      · rw [find?_cons, find?_cons, ih]

/-- Putting back what is there changes nothing. -/
theorem put_of_find?_eq_some (table : Keyed κ α) {key : κ} {value : α}
    (found : table.find? key = some value) : put key value table = table := by
  induction table with
  | nil => simp [find?] at found
  | cons row rest ih =>
      rw [find?_cons] at found
      rw [put]
      split
      · rename_i same
        rw [if_pos same] at found
        rw [← same, ← Option.some.inj found]
      · rename_i different
        rw [if_neg different] at found
        rw [ih found]

/-- A new key comes last. -/
theorem put_of_find?_eq_none (table : Keyed κ α) {key : κ} (value : α)
    (missing : table.find? key = none) : put key value table = table ++ [(key, value)] := by
  induction table with
  | nil => rfl
  | cons row rest ih =>
      rw [find?_cons] at missing
      rw [put]
      split
      · rename_i same
        rw [if_pos same] at missing
        cases missing
      · rename_i different
        rw [if_neg different] at missing
        rw [ih missing, List.cons_append]

end Keyed

end DocDrift
