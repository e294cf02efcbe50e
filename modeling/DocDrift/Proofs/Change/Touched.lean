import DocDrift.Proofs.Change.Hierarchy

/-!
What a structural change touches, and which symbols that has. A method and a property of one name
have the same symbol, and so have members of types of one name but of different kinds: a symbol does
not tell which of them is meant. If no name has a colon, that is all that a symbol leaves open.
-/

set_option autoImplicit false

namespace DocDrift

/-! ### Members -/

/-- The two sorts of members. -/
inductive MemberSort
  | method
  | property
  deriving DecidableEq, Repr

namespace MemberSort

def all : List MemberSort := [.method, .property]

def declared : MemberSort → TypeDeclaration → List Member
  | .method => TypeDeclaration.methods
  | .property => TypeDeclaration.properties

def changes : MemberSort → TypeDelta → ChangeSet MemberDelta
  | .method => TypeDelta.methods
  | .property => TypeDelta.properties

end MemberSort

/-- What tells a member from all others: its type, its sort and its name. -/
structure MemberIdentity where
  owner : String × TypeKind
  sort : MemberSort
  name : String
  deriving DecidableEq, Repr

namespace MemberIdentity

def symbol (identity : MemberIdentity) : String :=
  memberSymbol identity.owner.1 identity.name

/-- Members of the same name in types of the same name. -/
def Namesakes (left right : MemberIdentity) : Prop :=
  left.owner.1 = right.owner.1 ∧ left.name = right.name

end MemberIdentity

namespace Summary

/-- A member is declared private. -/
def Hides (summary : Summary) (identity : MemberIdentity) : Prop :=
  ∃ declared ∈ summary.types, declared.identity = identity.owner ∧
    ∃ member ∈ identity.sort.declared declared,
      member.name = identity.name ∧ member.visibility = .isPrivate

instance (summary : Summary) (identity : MemberIdentity) : Decidable (summary.Hides identity) :=
  inferInstanceAs (Decidable (∃ declared ∈ summary.types, declared.identity = identity.owner ∧
    ∃ member ∈ identity.sort.declared declared,
      member.name = identity.name ∧ member.visibility = .isPrivate))

/-- No name of a type or a function has a colon, which symbols put between names. -/
structure Colonless (summary : Summary) : Prop where
  types : ∀ declared ∈ summary.types, ':' ∉ declared.name.toList
  functions : ∀ member ∈ summary.functions, ':' ∉ member.name.toList

end Summary

namespace Delta

/-- The names of the types and functions that came, went or changed in more than their members. -/
def wholes (delta : Delta) : List String :=
  delta.types.added ++ delta.types.removed ++
    (delta.types.modified.filter (fun entry =>
      entry.2.changesHierarchy || entry.2.modifiers.isSome)).map Prod.fst ++
    delta.functions.names

/-- The members that came, went or changed in the types that stayed. -/
def members (delta : Delta) : List MemberIdentity :=
  delta.types.modified.flatMap fun entry => MemberSort.all.flatMap fun sort =>
    (sort.changes entry.2).names.map fun name => ⟨(entry.1, entry.2.kind), sort, name⟩

end Delta

/-! ### Their symbols -/

theorem MemberSort.mem_all (sort : MemberSort) : sort ∈ MemberSort.all := by
  cases sort <;> decide

theorem TypeDeclaration.mem_members {declared : TypeDeclaration} {member : Member} :
    member ∈ declared.members ↔ ∃ sort : MemberSort, member ∈ sort.declared declared := by
  rw [TypeDeclaration.members, List.mem_append]
  constructor
  · rintro (method | property)
    · exact ⟨.method, method⟩
    · exact ⟨.property, property⟩
  · rintro ⟨_ | _, mem⟩
    · exact .inl mem
    · exact .inr mem

theorem Summary.mem_privateMembers {summary : Summary} {symbol : String} :
    symbol ∈ summary.privateMembers ↔
      ∃ identity, summary.Hides identity ∧ identity.symbol = symbol := by
  simp only [privateMembers, List.mem_flatMap, List.mem_map, List.mem_filter, beq_iff_eq,
    TypeDeclaration.mem_members]
  constructor
  · rintro ⟨declared, mem, member, ⟨⟨sort, among⟩, isPrivate⟩, rfl⟩
    exact ⟨⟨declared.identity, sort, member.name⟩,
      ⟨declared, mem, rfl, member, among, rfl, isPrivate⟩, rfl⟩
  · rintro ⟨⟨owner, sort, name⟩, ⟨declared, mem, rfl, member, among, rfl, isPrivate⟩, rfl⟩
    exact ⟨declared, mem, member, ⟨⟨sort, among⟩, isPrivate⟩, rfl⟩

namespace Delta

variable {delta : Delta}

theorem mem_members {identity : MemberIdentity} : identity ∈ delta.members ↔
    ∃ entry ∈ delta.types.modified, (entry.1, entry.2.kind) = identity.owner ∧
      identity.name ∈ (identity.sort.changes entry.2).names := by
  simp only [members, List.mem_flatMap, List.mem_map]
  constructor
  · rintro ⟨entry, mem, sort, _, name, listed, rfl⟩
    exact ⟨entry, mem, rfl, listed⟩
  · rintro ⟨entry, mem, owner, listed⟩
    exact ⟨entry, mem, identity.sort, identity.sort.mem_all, identity.name, listed, by rw [owner]⟩

/-- A symbol is touched if it is that of a type, a function or a member with a change. -/
theorem mem_touchedSymbols {symbol : String} : symbol ∈ delta.touchedSymbols ↔
    symbol ∈ delta.wholes ∨ ∃ identity ∈ delta.members, identity.symbol = symbol := by
  have inTypes : symbol ∈ delta.types.modified.flatMap
        (fun entry => typeSymbols entry.1 entry.2) ↔
      symbol ∈ (delta.types.modified.filter (fun entry =>
          entry.2.changesHierarchy || entry.2.modifiers.isSome)).map Prod.fst ∨
        ∃ identity ∈ delta.members, identity.symbol = symbol := by
    simp only [List.mem_flatMap, typeSymbols, List.mem_append, List.mem_map, List.mem_filter,
      mem_members]
    constructor
    · rintro ⟨entry, mem, itself | ⟨name, listed, rfl⟩⟩
      · obtain ⟨changes, named⟩ := List.mem_ite_nil_right.mp itself
        exact .inl ⟨entry, ⟨mem, changes⟩, (List.mem_singleton.mp named).symm⟩
      · right
        rcases listed with method | property
        · exact ⟨⟨(entry.1, entry.2.kind), .method, name⟩, ⟨entry, mem, rfl, method⟩, rfl⟩
        · exact ⟨⟨(entry.1, entry.2.kind), .property, name⟩, ⟨entry, mem, rfl, property⟩, rfl⟩
    · rintro (⟨entry, ⟨mem, changes⟩, rfl⟩ | ⟨⟨owner, sort, name⟩, ⟨entry, mem, rfl, listed⟩, rfl⟩)
      · exact ⟨entry, mem, .inl (List.mem_ite_nil_right.mpr ⟨changes, List.mem_singleton_self _⟩)⟩
      · refine ⟨entry, mem, .inr ⟨name, ?_, rfl⟩⟩
        cases sort with
        | method => exact .inl listed
        | property => exact .inr listed
  rw [touchedSymbols, wholes, List.mem_append, List.mem_append, inTypes, List.mem_append,
    List.mem_append]
  grind

end Delta

/-! ### Names without colons -/

theorem colon_mem_symbol (identity : MemberIdentity) : ':' ∈ identity.symbol.toList := by
  rw [MemberIdentity.symbol, memberSymbol, String.toList_append, String.toList_append]
  simp

theorem takeWhile_symbol {identity : MemberIdentity} (plain : ':' ∉ identity.owner.1.toList) :
    identity.symbol.toList.takeWhile (· ≠ ':') = identity.owner.1.toList := by
  have before : ∀ c ∈ identity.owner.1.toList, decide (c ≠ ':') = true := by
    intro c mem
    exact decide_eq_true fun same => plain (same ▸ mem)
  rw [MemberIdentity.symbol, memberSymbol, String.append_assoc, String.toList_append,
    List.takeWhile_append_of_pos before, String.toList_append]
  exact List.append_nil _

/-- A symbol tells the name of the type and that of the member, if the first has no colon. -/
theorem namesakes_of_symbol {left right : MemberIdentity} (plain : ':' ∉ left.owner.1.toList)
    (plain' : ':' ∉ right.owner.1.toList) (same : left.symbol = right.symbol) :
    left.Namesakes right := by
  have owners : left.owner.1 = right.owner.1 := by
    rw [String.ext_iff, ← takeWhile_symbol plain, same, takeWhile_symbol plain']
  refine ⟨owners, ?_⟩
  rw [MemberIdentity.symbol, MemberIdentity.symbol, memberSymbol, memberSymbol, owners] at same
  exact (String.append_right_inj _).mp same

/-- A name with a change is that of a declaration on some side. -/
theorem ChangeSet.mem_names_between {α μ : Type} {key : α → String} {differ : α → α → Option μ}
    {old new : List α} {name : String} (listed : name ∈ (between key differ old new).names) :
    ∃ item ∈ old ++ new, nameOfKey (key item) = name := by
  have lift : ∀ {items : List α}, items ⊆ old ++ new →
      (∃ item ∈ firstByKey key items, nameOfKey (key item) = name) →
      ∃ item ∈ old ++ new, nameOfKey (key item) = name := by
    rintro items among ⟨item, kept, named⟩
    exact ⟨item, among (firstWith_some (mem_firstByKey.mp kept)).1, named⟩
  rw [names, List.mem_append, List.mem_append] at listed
  rcases listed with (added | removed) | modified
  · obtain ⟨item, mem, named⟩ := List.mem_map.mp added
    exact lift (List.subset_append_right old new) ⟨item, List.mem_of_mem_filter mem, named⟩
  · obtain ⟨item, mem, named⟩ := List.mem_map.mp removed
    exact lift (List.subset_append_left old new) ⟨item, List.mem_of_mem_filter mem, named⟩
  · obtain ⟨entry, mem, rfl⟩ := List.mem_map.mp modified
    obtain ⟨before, item, after, split, ⟨_other, _there, _differs, named⟩, _last⟩ :=
      mem_modified.mp mem
    refine lift (List.subset_append_left old new) ⟨item, ?_, named⟩
    rw [split]
    exact List.mem_append_right _ List.mem_cons_self

/-- What no key of a declaration has is in no name with a change. -/
theorem ChangeSet.lacks_names {α μ : Type} {key : α → String} {differ : α → α → Option μ}
    {old new : List α} {c : Char} (plain : ∀ item ∈ old ++ new, c ∉ (key item).toList)
    {name : String} (listed : name ∈ (between key differ old new).names) : c ∉ name.toList := by
  obtain ⟨item, mem, rfl⟩ := mem_names_between listed
  rw [nameOfKey, String.toList_ofList]
  exact fun inside => plain item mem ((List.takeWhile_sublist _).subset inside)

theorem colon_of_mem_key {declared : TypeDeclaration} (mem : ':' ∈ declared.key.toList) :
    ':' ∈ declared.name.toList := by
  have mark : ':' ∉ keyMark declared.kind := by cases declared.kind <;> decide
  rw [key_toList] at mem
  exact (List.mem_append.mp mem).resolve_right mark

section Colonless

variable {old new : Summary} (plain : old.Colonless) (plain' : new.Colonless)

include plain plain'

theorem colonless_type {name : String} (listed : name ∈ (Delta.between old new).types.names) :
    ':' ∉ name.toList := by
  have types := List.forall_mem_append.mpr ⟨plain.types, plain'.types⟩
  refine ChangeSet.lacks_names ?_ listed
  exact fun declared mem colon => types declared mem (colon_of_mem_key colon)

theorem colonless_function {name : String}
    (listed : name ∈ (Delta.between old new).functions.names) : ':' ∉ name.toList :=
  ChangeSet.lacks_names (List.forall_mem_append.mpr ⟨plain.functions, plain'.functions⟩) listed

theorem colonless_whole {name : String} (whole : name ∈ (Delta.between old new).wholes) :
    ':' ∉ name.toList := by
  rw [Delta.wholes, List.mem_append, List.mem_append, List.mem_append] at whole
  rcases whole with ((added | removed) | modified) | function
  · exact colonless_type plain plain' (List.mem_append_left _ (List.mem_append_left _ added))
  · exact colonless_type plain plain' (List.mem_append_left _ (List.mem_append_right _ removed))
  · have among := ((List.filter_sublist).map Prod.fst).subset modified
    exact colonless_type plain plain' (List.mem_append_right _ among)
  · exact colonless_function plain plain' function

theorem colonless_member {identity : MemberIdentity}
    (member : identity ∈ (Delta.between old new).members) : ':' ∉ identity.owner.1.toList := by
  obtain ⟨entry, mem, owner, _listed⟩ := Delta.mem_members.mp member
  rw [← owner]
  exact colonless_type plain plain' (List.mem_append_right _ (List.mem_map_of_mem mem))

end Colonless

theorem Summary.Hides.colonless {summary : Summary} {identity : MemberIdentity}
    (hides : summary.Hides identity) (plain : summary.Colonless) :
    ':' ∉ identity.owner.1.toList := by
  obtain ⟨declared, mem, owner, _member⟩ := hides
  rw [← owner]
  exact plain.types declared mem

end DocDrift
