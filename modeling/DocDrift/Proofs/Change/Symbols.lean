import DocDrift.Proofs.Change.Reversal
import DocDrift.Proofs.Change.Touched
import DocDrift.Proofs.Change.Within

/-!
The symbols that a change touches are symbols of the two summaries, so they can be looked up among the
symbols that were documented. What comes has its symbol on the new side, what goes on the old side, and
what stays and changes on both. A change touches nothing just if no type and no function changes.
-/

set_option autoImplicit false

namespace DocDrift

/-! ### Names with a change -/

namespace ChangeSet

variable {α μ : Type} {key : α → String} {differ : α → α → Option μ} {old new : List α}

theorem of_added {name : String} (mem : name ∈ (between key differ old new).added) :
    ∃ item ∈ new, nameOfKey (key item) = name := by
  obtain ⟨item, kept, named⟩ := List.mem_map.mp mem
  exact ⟨item, (firstWith_some (mem_firstByKey.mp (List.mem_of_mem_filter kept))).1, named⟩

theorem of_removed {name : String} (mem : name ∈ (between key differ old new).removed) :
    ∃ item ∈ old, nameOfKey (key item) = name := by
  have came : name ∈ (between key differ new old).added := mem
  exact of_added came

theorem of_modified {entry : String × μ} (mem : entry ∈ (between key differ old new).modified) :
    ∃ item ∈ old, ∃ other ∈ new, key other = key item ∧ differ item other = some entry.2 ∧
      nameOfKey (key item) = entry.1 := by
  obtain ⟨wanted, item, other, here, there, differs, named⟩ := first_of_modified mem
  obtain ⟨memOld, rfl⟩ := firstWith_some here
  obtain ⟨memNew, same⟩ := firstWith_some there
  exact ⟨item, memOld, other, memNew, same, differs, named⟩

theorem of_modified_name {name : String}
    (mem : name ∈ (between key differ old new).modified.names) :
    (∃ item ∈ old, nameOfKey (key item) = name) ∧ ∃ item ∈ new, nameOfKey (key item) = name := by
  obtain ⟨entry, held, rfl⟩ := List.mem_map.mp mem
  obtain ⟨item, memOld, other, memNew, same, _differs, named⟩ := of_modified held
  exact ⟨⟨item, memOld, named⟩, other, memNew, same ▸ named⟩

variable {changes : ChangeSet μ}

theorem names_eq_nil : changes.names = [] ↔ changes = .empty := by
  obtain ⟨added, removed, modified⟩ := changes
  simp [names, empty, NameMap.names]

theorem hasChanges_eq_false : changes.hasChanges = false ↔ changes = .empty := by
  obtain ⟨added, removed, modified⟩ := changes
  simp [hasChanges, empty, and_assoc]

end ChangeSet

/-! ### Symbols of a summary -/

namespace Summary.PlainNames

variable {summary : Summary} (plain : summary.PlainNames) {name : String}

include plain

theorem type_registered (named : ∃ declared ∈ summary.types, nameOfKey declared.key = name) :
    name ∈ summary.symbolNames := by
  obtain ⟨declared, mem, rfl⟩ := named
  rw [nameOfKey_key (plain.types declared mem)]
  apply List.mem_append_left
  exact List.mem_flatMap.mpr ⟨declared, mem, List.mem_cons_self⟩

theorem member_registered {declared : TypeDeclaration} (mem : declared ∈ summary.types)
    {sort : MemberSort} (named : ∃ member ∈ sort.declared declared, nameOfKey member.name = name) :
    memberSymbol declared.name name ∈ summary.symbolNames := by
  obtain ⟨member, among, rfl⟩ := named
  have listed := TypeDeclaration.mem_members.mpr ⟨sort, among⟩
  rw [nameOfKey_plain (plain.members declared mem member listed)]
  apply List.mem_append_left
  apply List.mem_flatMap.mpr
  exact ⟨declared, mem, List.mem_cons_of_mem _ (List.mem_map.mpr ⟨member, listed, rfl⟩)⟩

theorem function_registered
    (named : ∃ function ∈ summary.functions, nameOfKey function.name = name) :
    name ∈ summary.symbolNames := by
  obtain ⟨function, mem, rfl⟩ := named
  rw [nameOfKey_plain (plain.functions function mem)]
  exact List.mem_append_right _ (List.mem_map_of_mem mem)

end Summary.PlainNames

/-! ### Symbols of a change -/

namespace Delta

def memberSymbols (pick : ChangeSet MemberDelta → List String) (delta : Delta) : List String :=
  delta.types.modified.flatMap fun entry => MemberSort.all.flatMap fun sort =>
    (pick (sort.changes entry.2)).map (memberSymbol entry.1)

def cameSymbols (delta : Delta) : List String :=
  delta.types.added ++ delta.memberSymbols ChangeSet.added ++ delta.functions.added

def wentSymbols (delta : Delta) : List String :=
  delta.types.removed ++ delta.memberSymbols ChangeSet.removed ++ delta.functions.removed

/-- The symbols of the declarations that stayed and changed; for a type, in more than its members. -/
def stayedSymbols (delta : Delta) : List String :=
  (delta.types.modified.filter (fun entry =>
      entry.2.changesHierarchy || entry.2.modifiers.isSome)).map Prod.fst ++
    delta.memberSymbols (fun changes => changes.modified.names) ++ delta.functions.modified.names

variable {delta : Delta} {symbol : String}

theorem mem_memberSymbols {pick : ChangeSet MemberDelta → List String} :
    symbol ∈ delta.memberSymbols pick ↔ ∃ entry ∈ delta.types.modified, ∃ sort : MemberSort,
      ∃ name ∈ pick (sort.changes entry.2), memberSymbol entry.1 name = symbol := by
  simp only [memberSymbols, List.mem_flatMap, List.mem_map]
  constructor
  · intro ⟨entry, mem, sort, _all, found⟩
    exact ⟨entry, mem, sort, found⟩
  · intro ⟨entry, mem, sort, found⟩
    exact ⟨entry, mem, sort, sort.mem_all, found⟩

theorem member_touched_iff : (∃ identity ∈ delta.members, identity.symbol = symbol) ↔
    symbol ∈ delta.memberSymbols ChangeSet.names := by
  simp only [mem_members, mem_memberSymbols]
  constructor
  · rintro ⟨identity, ⟨entry, mem, owner, listed⟩, rfl⟩
    refine ⟨entry, mem, identity.sort, identity.name, listed, ?_⟩
    rw [MemberIdentity.symbol, ← owner]
  · rintro ⟨entry, mem, sort, name, listed, same⟩
    exact ⟨⟨(entry.1, entry.2.kind), sort, name⟩, ⟨entry, mem, rfl, listed⟩, same⟩

theorem mem_memberSymbols_names : symbol ∈ delta.memberSymbols ChangeSet.names ↔
    symbol ∈ delta.memberSymbols ChangeSet.added ∨
      symbol ∈ delta.memberSymbols ChangeSet.removed ∨
      symbol ∈ delta.memberSymbols (fun changes => changes.modified.names) := by
  simp only [mem_memberSymbols, ChangeSet.names, List.mem_append, or_and_right, exists_or,
    and_or_left, or_assoc]

theorem mem_touched_iff : symbol ∈ delta.touchedSymbols ↔
    symbol ∈ delta.cameSymbols ∨ symbol ∈ delta.wentSymbols ∨ symbol ∈ delta.stayedSymbols := by
  rw [mem_touchedSymbols, member_touched_iff, mem_memberSymbols_names]
  simp only [wholes, cameSymbols, wentSymbols, stayedSymbols, ChangeSet.names, List.mem_append]
  grind

theorem typeSymbols_eq_nil {name : String} {change : TypeDelta} :
    typeSymbols name change = [] ↔ change.hasChanges = false := by
  rw [typeSymbols, TypeDelta.hasChanges, List.append_eq_nil_iff, List.map_eq_nil_iff,
    List.append_eq_nil_iff, ChangeSet.names_eq_nil, ChangeSet.names_eq_nil, Bool.or_eq_false_iff,
    Bool.or_eq_false_iff, ChangeSet.hasChanges_eq_false, ChangeSet.hasChanges_eq_false, and_assoc]
  refine and_congr ?_ Iff.rfl
  rw [ite_eq_right_iff, ← Bool.not_eq_true]
  simp

/-- If every type that is said to have changed did, a change touches nothing just if no type and no
function changed. -/
theorem touchedSymbols_eq_nil
    (changed : ∀ change ∈ delta.types.modified.values, change.hasChanges = true) :
    delta.touchedSymbols = [] ↔ delta.types = .empty ∧ delta.functions = .empty := by
  have modified : delta.types.modified.flatMap (fun entry => typeSymbols entry.1 entry.2) = [] ↔
      delta.types.modified = [] := by
    rw [List.flatMap_eq_nil_iff]
    constructor
    · intro silent
      apply List.eq_nil_iff_forall_not_mem.mpr
      intro entry mem
      have still := typeSymbols_eq_nil.mp (silent entry mem)
      rw [changed entry.2 (List.mem_map_of_mem mem)] at still
      cases still
    · intro none entry mem
      rw [none] at mem
      cases mem
  rw [touchedSymbols, List.append_eq_nil_iff, List.append_eq_nil_iff, List.append_eq_nil_iff,
    modified, ChangeSet.names_eq_nil]
  refine and_congr ?_ Iff.rfl
  obtain ⟨added, removed, modified⟩ := delta.types
  simp [ChangeSet.empty, and_assoc]

end Delta

theorem TypeDeclaration.differ_hasChanges {old new : TypeDeclaration} {change : TypeDelta}
    (differs : differ old new = some change) : change.hasChanges = true := by
  rw [differ, Option.ite_none_right_eq_some] at differs
  obtain ⟨changes, same⟩ := differs
  cases same
  exact changes

theorem TypeDeclaration.differ_sort {old new : TypeDeclaration} {change : TypeDelta}
    (differs : differ old new = some change) (sort : MemberSort) :
    sort.changes change =
      ChangeSet.between Member.name Member.differ (sort.declared old) (sort.declared new) := by
  obtain ⟨methods, properties⟩ := TypeDeclaration.differ_members differs
  cases sort with
  | method => exact methods
  | property => exact properties

/-! ### Symbols of a change between two summaries -/

namespace Delta

variable {old new : Summary}

theorem changed_of_modified :
    ∀ change ∈ (between old new).types.modified.values, change.hasChanges = true := by
  intro change mem
  obtain ⟨item, other, differs⟩ := ChangeSet.between_values _ _ _ _ mem
  exact TypeDeclaration.differ_hasChanges differs

section Registered

variable (plain : old.PlainNames) (plain' : new.PlainNames)

include plain plain'

/-- A type that changed is declared under its name on both sides, and the changes of its members are
those between the two declarations. -/
theorem stays_of_modified {entry : String × TypeDelta}
    (mem : entry ∈ (between old new).types.modified) :
    ∃ item ∈ old.types, ∃ other ∈ new.types, item.name = entry.1 ∧ other.name = entry.1 ∧
      ∀ sort : MemberSort, sort.changes entry.2 =
        ChangeSet.between Member.name Member.differ (sort.declared item) (sort.declared other) := by
  obtain ⟨item, memOld, other, memNew, same, differs, named⟩ := ChangeSet.of_modified mem
  have name : item.name = entry.1 := (nameOfKey_key (plain.types item memOld)).symm.trans named
  have name' : other.name = entry.1 := by
    rw [← nameOfKey_key (plain'.types other memNew), same, named]
  exact ⟨item, memOld, other, memNew, name, name', TypeDeclaration.differ_sort differs⟩

theorem came_subset : (between old new).cameSymbols ⊆ new.symbolNames := by
  intro symbol mem
  rw [cameSymbols, List.mem_append, List.mem_append] at mem
  rcases mem with (type | member) | function
  · exact plain'.type_registered (ChangeSet.of_added type)
  · obtain ⟨entry, modified, sort, name, added, rfl⟩ := mem_memberSymbols.mp member
    obtain ⟨_, _, other, among, _, sameName, changes⟩ := stays_of_modified plain plain' modified
    rw [changes] at added
    rw [← sameName]
    exact plain'.member_registered among (ChangeSet.of_added added)
  · exact plain'.function_registered (ChangeSet.of_added function)

theorem went_subset : (between old new).wentSymbols ⊆ old.symbolNames := by
  intro symbol mem
  rw [wentSymbols, List.mem_append, List.mem_append] at mem
  rcases mem with (type | member) | function
  · exact plain.type_registered (ChangeSet.of_removed type)
  · obtain ⟨entry, modified, sort, name, removed, rfl⟩ := mem_memberSymbols.mp member
    obtain ⟨item, among, _, _, sameName, _, changes⟩ := stays_of_modified plain plain' modified
    rw [changes] at removed
    rw [← sameName]
    exact plain.member_registered among (ChangeSet.of_removed removed)
  · exact plain.function_registered (ChangeSet.of_removed function)

theorem stayed_registered {symbol : String} (mem : symbol ∈ (between old new).stayedSymbols) :
    symbol ∈ old.symbolNames ∧ symbol ∈ new.symbolNames := by
  rw [stayedSymbols, List.mem_append, List.mem_append] at mem
  rcases mem with (type | member) | function
  · have changed := (List.filter_sublist.map Prod.fst).subset type
    obtain ⟨here, there⟩ := ChangeSet.of_modified_name changed
    exact ⟨plain.type_registered here, plain'.type_registered there⟩
  · obtain ⟨entry, modified, sort, name, changed, rfl⟩ := mem_memberSymbols.mp member
    obtain ⟨item, among, other, among', sameName, sameName', changes⟩ :=
      stays_of_modified plain plain' modified
    rw [changes] at changed
    obtain ⟨here, there⟩ := ChangeSet.of_modified_name changed
    refine ⟨?_, ?_⟩
    · rw [← sameName]
      exact plain.member_registered among here
    · rw [← sameName']
      exact plain'.member_registered among' there
  · obtain ⟨here, there⟩ := ChangeSet.of_modified_name function
    exact ⟨plain.function_registered here, plain'.function_registered there⟩

/-- Every symbol that a change touches is one of the two summaries: of the new one if its declaration
came, of the old one if it went, and of both if it stayed. No symbol is touched just if no type and no
function changed. -/
theorem touched_registered :
    (∀ symbol ∈ (between old new).touchedSymbols,
      symbol ∈ old.symbolNames ∨ symbol ∈ new.symbolNames) ∧
    (∀ symbol, symbol ∈ (between old new).touchedSymbols ↔
      symbol ∈ (between old new).cameSymbols ∨ symbol ∈ (between old new).wentSymbols ∨
        symbol ∈ (between old new).stayedSymbols) ∧
    (between old new).cameSymbols ⊆ new.symbolNames ∧
    (between old new).wentSymbols ⊆ old.symbolNames ∧
    (∀ symbol ∈ (between old new).stayedSymbols,
      symbol ∈ old.symbolNames ∧ symbol ∈ new.symbolNames) ∧
    ((between old new).touchedSymbols = [] ↔
      (between old new).types = .empty ∧ (between old new).functions = .empty) := by
  refine ⟨?_, fun _ => mem_touched_iff, came_subset plain plain', went_subset plain plain',
    fun _ => stayed_registered plain plain', touchedSymbols_eq_nil changed_of_modified⟩
  intro symbol touched
  rcases mem_touched_iff.mp touched with came | went | stayed
  · exact .inr (came_subset plain plain' came)
  · exact .inl (went_subset plain plain' went)
  · exact .inl (stayed_registered plain plain' stayed).1

end Registered

/-- A trait and a method come, a method goes, and a class, a method and a function change. -/
theorem touched_registered_of_market :
    market.PlainNames ∧ marketMoved.PlainNames ∧
    ["Goods", "Stall::rest"] ⊆ marketMoved.symbolNames ∧ ["Stall::close"] ⊆ market.symbolNames ∧
    (∀ symbol ∈ ["Stall", "Stall::sell", "open"],
      symbol ∈ market.symbolNames ∧ symbol ∈ marketMoved.symbolNames) ∧
    ¬((between market marketMoved).types = .empty ∧
      (between market marketMoved).functions = .empty) := by
  have plain : market.PlainNames := ⟨by decide, by decide, by decide, by decide⟩
  have plain' : marketMoved.PlainNames := ⟨by decide, by decide, by decide, by decide⟩
  have came : (between market marketMoved).cameSymbols = ["Goods", "Stall::rest"] := by
    decide +kernel
  have went : (between market marketMoved).wentSymbols = ["Stall::close"] := by decide +kernel
  have stayed : (between market marketMoved).stayedSymbols = ["Stall", "Stall::sell", "open"] := by
    decide +kernel
  obtain ⟨_, _, inNew, inOld, inBoth, silent⟩ := touched_registered plain plain'
  rw [came] at inNew
  rw [went] at inOld
  rw [stayed] at inBoth
  exact ⟨plain, plain', inNew, inOld, inBoth, fun none => absurd (silent.mpr none) (by decide +kernel)⟩

end Delta

end DocDrift
