import DocDrift.Proofs.Change.Interfaces
import DocDrift.Proofs.Change.Sameness
import DocDrift.Proofs.Change.Symbols
import DocDrift.Proofs.Tables
import Mathlib.Data.List.Forall2

/-!
Summaries whose declarations stand in another order and are documented in other words. If names are
distinct, the same declarations come, go and change, so the change is the same but for the order of
the names that come or go.

What changed is kept by the part of a name before its first mark. Of several names with the same part
the last one in the list counts, so for those the order does matter.
-/

set_option autoImplicit false

namespace DocDrift

/-! ### Shuffled lists -/

/-- A list in any order, with items that are like those of the other one. -/
def Shuffled {α : Type} (like : α → α → Prop) (left right : List α) : Prop :=
  ∃ middle, left.Perm middle ∧ List.Forall₂ like middle right

section Lists

variable {α κ : Type} {key : α → κ} {like : α → α → Prop} {left right : List α}

theorem Shuffled.refl (itself : ∀ item, like item item) (items : List α) :
    Shuffled like items items :=
  ⟨items, .refl items, List.forall₂_same.mpr fun item _mem => itself item⟩

theorem Shuffled.filter {keep : α → Bool}
    (alike : ∀ item other, like item other → (keep item ↔ keep other))
    (shuffled : Shuffled like left right) : Shuffled like (left.filter keep) (right.filter keep) := by
  obtain ⟨middle, perm, likes⟩ := shuffled
  refine ⟨middle.filter keep, perm.filter keep, List.rel_filter ?_ likes⟩
  intro item other same
  exact alike item other same

variable [DecidableEq κ]

theorem firstWith_perm (distinct : (left.map key).Nodup) (perm : left.Perm right) (wanted : κ) :
    firstWith key left wanted = firstWith key right wanted := by
  have distinct' := (perm.map key).nodup_iff.mp distinct
  cases here : firstWith key left wanted with
  | some item =>
      obtain ⟨mem, rfl⟩ := firstWith_some here
      exact (firstWith_of_nodup distinct' (perm.subset mem)).symm
  | none =>
      symm
      rw [firstWith_none] at here ⊢
      exact fun item mem => here item (perm.symm.subset mem)

theorem firstWith_like (keyed : ∀ item other, like item other → key item = key other)
    (likes : List.Forall₂ like left right) (wanted : κ) :
    Option.Rel like (firstWith key left wanted) (firstWith key right wanted) := by
  induction likes with
  | nil => exact .none
  | @cons item other _ _ same _ ih =>
      rw [firstWith_cons, firstWith_cons, keyed item other same]
      split
      · exact .some same
      · exact ih

/-- If keys are distinct, the first item with a key is the only one, wherever it stands. -/
theorem Shuffled.sameFirst (keyed : ∀ item other, like item other → key item = key other)
    (distinct : (left.map key).Nodup) (shuffled : Shuffled like left right) :
    SameFirst key like left right := by
  obtain ⟨middle, perm, likes⟩ := shuffled
  intro wanted
  rw [firstWith_perm distinct perm]
  exact firstWith_like keyed likes wanted

end Lists

namespace SameFirst

variable {α κ : Type} [DecidableEq κ] {key : α → κ} {like : α → α → Prop} {old old' : List α}
  (firsts : SameFirst key like old old') {wanted : κ} {item : α}

include firsts

theorem none_iff : firstWith key old wanted = none ↔ firstWith key old' wanted = none := by
  have related := firsts wanted
  cases here : firstWith key old wanted <;> cases there : firstWith key old' wanted
  all_goals rw [here, there] at related
  all_goals simp at related ⊢

theorem some_left (here : firstWith key old wanted = some item) :
    ∃ item', firstWith key old' wanted = some item' ∧ like item item' := by
  have related := firsts wanted
  rw [here] at related
  cases there : firstWith key old' wanted with
  | none =>
      rw [there] at related
      cases related
  | some item' =>
      rw [there] at related
      cases related with
      | some same => exact ⟨item', rfl, same⟩

theorem some_right (there : firstWith key old' wanted = some item) :
    ∃ item', firstWith key old wanted = some item' ∧ like item' item := by
  have back : SameFirst key (flip like) old' old := firsts.symm fun _ _ same => same
  exact back.some_left there

end SameFirst

/-! ### Maps with the same names -/

namespace NameMap

variable {α : Type} {left right : NameMap α}

theorem Ascending.names_ext (ascending : left.Ascending) (ascending' : right.Ascending)
    (same : ∀ name, name ∈ left.names ↔ name ∈ right.names) : left.names = right.names := by
  have rising {map : NameMap α} (rising : map.Ascending) : map.names.Pairwise (· < ·) :=
    List.pairwise_map.mpr rising
  apply List.Perm.eq_of_pairwise _ (rising ascending) (rising ascending')
  · exact (List.perm_ext_iff_of_nodup ascending.nodup ascending'.nodup).mpr same
  · intro name other _mem _mem' less more
    exact absurd (String.lt_trans less more) (String.lt_irrefl _)

theorem forall₂_of_names {related : String × α → String × α → Prop}
    (names : left.names = right.names)
    (each : ∀ entry ∈ left, ∀ other ∈ right, entry.1 = other.1 → related entry other) :
    List.Forall₂ related left right := by
  induction left generalizing right with
  | nil =>
      cases right with
      | nil => exact .nil
      | cons other others => cases names
  | cons entry rest ih =>
      cases right with
      | nil => cases names
      | cons other others =>
          obtain ⟨name, later⟩ := List.cons.inj names
          apply List.Forall₂.cons
          · exact each entry List.mem_cons_self other List.mem_cons_self name
          · exact ih later fun entry mem other mem' =>
              each entry (List.mem_cons_of_mem _ mem) other (List.mem_cons_of_mem _ mem')

end NameMap

/-! ### Changes that are alike -/

/-- Sets of changes that are the same but for the order of the names that came or went, where the
changes under each name that stayed are related. -/
structure ChangeSet.Alike {μ : Type} (related : String → μ → μ → Prop) (left right : ChangeSet μ) :
    Prop where
  added : left.added.Perm right.added
  removed : left.removed.Perm right.removed
  modified : List.Forall₂
    (fun entry other => entry.1 = other.1 ∧ related entry.1 entry.2 other.2)
    left.modified right.modified

/-- Changes of a type that are the same but for the order of names that came or went. Of members of a
sort whose names are not told apart, they need not say the same under the names that stayed. -/
structure TypeDelta.Alike (apart : MemberSort → Prop) (left right : TypeDelta) : Prop where
  kind : left.kind = right.kind
  parent : left.parent = right.parent
  added : left.interfaces.added.Perm right.interfaces.added
  removed : left.interfaces.removed.Perm right.interfaces.removed
  modifiers : left.modifiers = right.modifiers
  members : ∀ sort : MemberSort,
    (sort.changes left).Alike (fun _ change other => apart sort → change = other)
      (sort.changes right)

/-- Alike changes of a type that both summaries declare under a name. -/
def TypeDelta.AlikeUnder (old new : Summary) (name : String) (left right : TypeDelta) : Prop :=
  ∃ item ∈ old.types, ∃ other ∈ new.types, item.name = name ∧ other.name = name ∧
    left.Alike (fun sort => NamesApart Member.name (sort.declared item) (sort.declared other)) right

/-- Changes between two summaries that are the same but for the order of names that came or went.
Under the names that stayed they say the same of all declarations whose names are told apart. -/
structure Delta.Alike (old new : Summary) (left right : Delta) : Prop where
  space : left.spaceChanged = right.spaceChanged
  types : left.types.Alike (TypeDelta.AlikeUnder old new) right.types
  interfaces : left.interfaces.Alike (TypeDelta.AlikeUnder old new) right.interfaces
  functions : left.functions.Alike
    (fun _ change other => NamesApart Member.name old.functions new.functions → change = other)
    right.functions
  imports : left.imports.Alike
    (fun _ change other => NamesApart Import.name old.imports new.imports → change = other)
    right.imports

namespace ChangeSet.Alike

variable {μ : Type} {related : String → μ → μ → Prop} {left right : ChangeSet μ}
  (alike : left.Alike related right)

include alike

theorem churn : left.churn = right.churn :=
  congrArg₂ Nat.add alike.added.length_eq alike.removed.length_eq

theorem length : left.modified.length = right.modified.length :=
  alike.modified.length_eq

theorem isEmpty : left.modified.isEmpty = right.modified.isEmpty := by
  rw [Bool.eq_iff_iff, List.isEmpty_iff_length_eq_zero, List.isEmpty_iff_length_eq_zero,
    alike.length]

theorem hasChanges : left.hasChanges = right.hasChanges := by
  rw [ChangeSet.hasChanges, alike.added.isEmpty_eq, alike.removed.isEmpty_eq, alike.isEmpty,
    ChangeSet.hasChanges]

theorem names_perm : left.names.Perm right.names := by
  have names : left.modified.names = right.modified.names := by
    rw [NameMap.names, NameMap.names, ← List.forall₂_eq_eq_eq, List.forall₂_map_left_iff,
      List.forall₂_map_right_iff]
    exact alike.modified.imp fun _ _ => And.left
  rw [ChangeSet.names, names]
  exact (alike.added.append alike.removed).append_right _

/-- What is the same of related changes is found in both sets or in neither. -/
theorem any_values {test : μ → Bool}
    (same : ∀ name change other, related name change other → test change = test other) :
    left.modified.values.any test = right.modified.values.any test := by
  have each := alike.modified
  generalize left.modified = entries at each ⊢
  generalize right.modified = others at each ⊢
  induction each with
  | nil => rfl
  | @cons entry other rest others first _ ih =>
      have tests := same entry.1 entry.2 other.2 first.2
      rw [NameMap.values, List.map_cons, List.any_cons, tests]
      exact congrArg _ ih

end ChangeSet.Alike

namespace TypeDelta.Alike

variable {apart : MemberSort → Prop} {left right : TypeDelta} (alike : left.Alike apart right)

include alike

theorem implements : left.interfaces.hasChanges = right.interfaces.hasChanges := by
  rw [ListChange.hasChanges, alike.added.isEmpty_eq, alike.removed.isEmpty_eq,
    ListChange.hasChanges]

theorem changesHierarchy : left.changesHierarchy = right.changesHierarchy := by
  rw [TypeDelta.changesHierarchy, alike.parent, alike.implements, TypeDelta.changesHierarchy]

theorem hasChanges : left.hasChanges = right.hasChanges := by
  have methods := (alike.members .method).hasChanges
  have properties := (alike.members .property).hasChanges
  dsimp only [MemberSort.changes] at methods properties
  rw [TypeDelta.hasChanges, alike.changesHierarchy, alike.modifiers, methods, properties,
    TypeDelta.hasChanges]

end TypeDelta.Alike

theorem TypeDelta.AlikeUnder.alike {old new : Summary} {name : String} {left right : TypeDelta}
    (under : AlikeUnder old new name left right) : ∃ apart, left.Alike apart right := by
  obtain ⟨_item, _mem, _other, _mem', _name, _name', alike⟩ := under
  exact ⟨_, alike⟩

/-- Changes that are alike reach as far. -/
theorem Delta.Alike.impliedSeverity {old new : Summary} {left right : Delta}
    (alike : left.Alike old new right) : left.impliedSeverity = right.impliedSeverity := by
  have moves : left.types.modified.values.any TypeDelta.changesHierarchy =
      right.types.modified.values.any TypeDelta.changesHierarchy := by
    apply alike.types.any_values
    intro name change other under
    obtain ⟨_apart, same⟩ := under.alike
    exact same.changesHierarchy
  rw [Delta.impliedSeverity, alike.space, alike.types.churn, alike.interfaces.churn,
    alike.functions.churn, moves, alike.types.isEmpty, alike.functions.isEmpty,
    Delta.impliedSeverity]

theorem Delta.Alike.hasChanges {old new : Summary} {left right : Delta}
    (alike : left.Alike old new right) : left.hasChanges = right.hasChanges := by
  rw [Delta.hasChanges, alike.space, alike.types.hasChanges, alike.interfaces.hasChanges,
    alike.functions.hasChanges, alike.imports.hasChanges, Delta.hasChanges]

/-! ### Changes between shuffled lists -/

section Between

variable {α μ : Type} {key : α → String} {differ : α → α → Option μ} {old new old' new' : List α}

theorem mem_keys_onlyNew {wanted : String} : wanted ∈ (onlyNew key old new).map key ↔
    firstWith key new wanted ≠ none ∧ firstWith key old wanted = none := by
  rw [List.mem_map, firstWith_none]
  constructor
  · rintro ⟨item, mem, rfl⟩
    obtain ⟨found, absent⟩ := mem_onlyNew.mp mem
    exact ⟨Option.ne_none_iff_exists'.mpr ⟨item, found⟩, absent⟩
  · rintro ⟨present, absent⟩
    obtain ⟨item, found⟩ := Option.ne_none_iff_exists'.mp present
    obtain ⟨_mem, rfl⟩ := firstWith_some found
    exact ⟨item, mem_onlyNew.mpr ⟨found, absent⟩, rfl⟩

theorem names_onlyNew_perm {like : α → α → Prop} (firsts : SameFirst key like old old')
    (firsts' : SameFirst key like new new') :
    ((onlyNew key old new).map fun item => nameOfKey (key item)).Perm
      ((onlyNew key old' new').map fun item => nameOfKey (key item)) := by
  have keys : ((onlyNew key old new).map key).Perm ((onlyNew key old' new').map key) := by
    apply (List.perm_ext_iff_of_nodup (onlyNew_nodup old new) (onlyNew_nodup old' new')).mpr
    intro wanted
    rw [mem_keys_onlyNew, mem_keys_onlyNew, Ne, firsts'.none_iff, firsts.none_iff]
  have names := keys.map nameOfKey
  rw [List.map_map, List.map_map] at names
  exact names

theorem mem_modified_names {name : String} :
    name ∈ (ChangeSet.between key differ old new).modified.names ↔
      ∃ wanted item other, firstWith key old wanted = some item ∧
        firstWith key new wanted = some other ∧ differ item other ≠ none ∧
        nameOfKey wanted = name := by
  constructor
  · intro mem
    obtain ⟨entry, held, rfl⟩ := List.mem_map.mp mem
    obtain ⟨wanted, item, other, here, there, differs, named⟩ := first_of_modified held
    exact ⟨wanted, item, other, here, there, differs ▸ Option.some_ne_none _, named⟩
  · intro ⟨wanted, item, other, here, there, differs, named⟩
    obtain ⟨change, differs⟩ := Option.ne_none_iff_exists'.mp differs
    obtain ⟨_mem, rfl⟩ := firstWith_some here
    have listed := mem_firstByKey.mpr here
    unfold ChangeSet.between
    dsimp only
    rw [NameMap.mem_names_ofList, List.mem_map]
    refine ⟨(nameOfKey (key item), change), List.mem_filterMap.mpr ⟨item, listed, ?_⟩, named⟩
    rw [find?_firstByKey, there]
    simp only [bind, pure, Option.bind_some, differs]

section Like

variable {like : α → α → Prop} {related : String → μ → μ → Prop}
  (firsts : SameFirst key like old old') (firsts' : SameFirst key like new new')
  (differs : ∀ wanted item other item' other', firstWith key old wanted = some item →
    firstWith key new wanted = some other → like item item' → like other other' →
    Option.Rel (related (nameOfKey wanted)) (differ item other) (differ item' other'))

include firsts firsts' differs

theorem modified_names_eq : (ChangeSet.between key differ old new).modified.names =
    (ChangeSet.between key differ old' new').modified.names := by
  have silent {change change' : Option μ} {name : String}
      (same : Option.Rel (related name) change change') : change = none ↔ change' = none := by
    cases same <;> simp
  apply ChangeSet.between_ascending.names_ext ChangeSet.between_ascending
  intro name
  rw [mem_modified_names, mem_modified_names]
  constructor
  · intro ⟨wanted, item, other, here, there, changed, named⟩
    obtain ⟨item', here', same⟩ := firsts.some_left here
    obtain ⟨other', there', same'⟩ := firsts'.some_left there
    have both := silent (differs wanted item other item' other' here there same same')
    exact ⟨wanted, item', other', here', there', mt both.mpr changed, named⟩
  · intro ⟨wanted, item', other', here', there', changed, named⟩
    obtain ⟨item, here, same⟩ := firsts.some_right here'
    obtain ⟨other, there, same'⟩ := firsts'.some_right there'
    have both := silent (differs wanted item other item' other' here there same same')
    exact ⟨wanted, item, other, here, there, mt both.mp changed, named⟩

/-- If the same is found under every key, the changes are alike. Where names are told apart, what is
kept under a name is the change of one pair of declarations on either side. -/
theorem ChangeSet.between_alike : (between key differ old new).Alike
    (fun name change other => NamesApart key old new → related name change other)
    (between key differ old' new') := by
  refine ⟨?_, ?_, ?_⟩
  · exact names_onlyNew_perm firsts firsts'
  · exact names_onlyNew_perm firsts' firsts
  · apply NameMap.forall₂_of_names (modified_names_eq firsts firsts' differs)
    intro entry mem entry' mem' sameName
    refine ⟨sameName, ?_⟩
    intro apart
    obtain ⟨wanted, item, other, here, there, changed, named⟩ := first_of_modified mem
    obtain ⟨wanted', item', other', here', there', changed', named'⟩ := first_of_modified mem'
    obtain ⟨first, found, same⟩ := firsts.some_right here'
    obtain ⟨second, found', same'⟩ := firsts'.some_right there'
    -- both entries are about one key, for there is no other one that gives their name
    have sameKey : wanted = wanted' := by
      obtain ⟨memItem, rfl⟩ := firstWith_some here
      obtain ⟨memOther, otherKey⟩ := firstWith_some there
      obtain ⟨memFirst, rfl⟩ := firstWith_some found
      obtain ⟨memSecond, secondKey⟩ := firstWith_some found'
      apply apart item memItem first memFirst other memOther second memSecond otherKey.symm
        secondKey.symm
      rw [named, sameName, named']
    subst sameKey
    have related := differs wanted first second item' other' found found' same same'
    rw [here] at found
    rw [there] at found'
    cases found
    cases found'
    rw [changed, changed', named] at related
    cases related with
    | some related => exact related

end Like

end Between

/-! ### Shuffled summaries -/

/-- Types that differ at most in documentation and in the order of their interfaces and members. -/
structure TypeDeclaration.Shuffled (left right : TypeDeclaration) : Prop where
  kind : left.kind = right.kind
  name : left.name = right.name
  parent : left.parent = right.parent
  interfaces : left.interfaces.Perm right.interfaces
  modifiers : left.modifiers = right.modifiers
  members : ∀ sort : MemberSort,
    DocDrift.Shuffled Member.Redocumented (sort.declared left) (sort.declared right)

/-- Summaries that differ at most in documentation and in the order of declarations. -/
structure Summary.Shuffled (left right : Summary) : Prop where
  space : left.space = right.space
  imports : left.imports.Perm right.imports
  types : DocDrift.Shuffled TypeDeclaration.Shuffled left.types right.types
  functions : DocDrift.Shuffled Member.Redocumented left.functions right.functions

/-- No name is declared twice, and no name of a type has the mark that a key puts behind a name. -/
structure Summary.Distinct (summary : Summary) : Prop where
  imports : (summary.imports.map Import.name).Nodup
  types : (summary.types.map TypeDeclaration.name).Nodup
  unmarked : Unmarked summary.types
  members : ∀ declared ∈ summary.types, ∀ sort : MemberSort,
    ((sort.declared declared).map Member.name).Nodup
  functions : (summary.functions.map Member.name).Nodup

instance (summary : Summary) : Decidable summary.Distinct :=
  decidable_of_iff
    ((summary.imports.map Import.name).Nodup ∧ (summary.types.map TypeDeclaration.name).Nodup ∧
      Unmarked summary.types ∧
      (∀ declared ∈ summary.types, ∀ sort ∈ MemberSort.all,
        ((sort.declared declared).map Member.name).Nodup) ∧
      (summary.functions.map Member.name).Nodup)
    ⟨fun ⟨imports, types, unmarked, members, functions⟩ => ⟨imports, types, unmarked,
        fun declared mem sort => members declared mem sort sort.mem_all, functions⟩,
      fun distinct => ⟨distinct.imports, distinct.types, distinct.unmarked,
        fun declared mem sort _all => distinct.members declared mem sort, distinct.functions⟩⟩

theorem Member.redocumented_refl (member : Member) : member.Redocumented member :=
  ⟨rfl, rfl, rfl⟩

theorem TypeDeclaration.shuffled_refl (declared : TypeDeclaration) : declared.Shuffled declared :=
  ⟨rfl, rfl, rfl, .refl _, rfl, fun _ => .refl Member.redocumented_refl _⟩

theorem Summary.shuffled_refl (summary : Summary) : summary.Shuffled summary :=
  ⟨rfl, .refl _, .refl TypeDeclaration.shuffled_refl _, .refl Member.redocumented_refl _⟩

/-! ### Changes of members and types -/

theorem Member.Redocumented.differ {item item' other other' : Member}
    (same : item.Redocumented item') (same' : other.Redocumented other') :
    Member.differ item other = Member.differ item' other' := by
  unfold Member.differ
  rw [same.signature, same.visibility, same'.signature, same'.visibility]

theorem rel_eq {μ : Type} {left right : Option μ} (same : left = right) :
    Option.Rel Eq left right := by
  subst same
  cases left with
  | none => exact .none
  | some change => exact .some rfl

theorem members_alike {old new old' new' : List Member} (distinct : (old.map Member.name).Nodup)
    (distinct' : (new.map Member.name).Nodup) (shuffled : Shuffled Member.Redocumented old old')
    (shuffled' : Shuffled Member.Redocumented new new') :
    (ChangeSet.between Member.name Member.differ old new).Alike
      (fun _ change other => NamesApart Member.name old new → change = other)
      (ChangeSet.between Member.name Member.differ old' new') := by
  apply ChangeSet.between_alike
  · exact shuffled.sameFirst (fun _ _ same => same.name) distinct
  · exact shuffled'.sameFirst (fun _ _ same => same.name) distinct'
  · intro wanted item other item' other' _here _there same same'
    exact rel_eq (same.differ same')

theorem imports_alike {old new old' new' : List Import} (distinct : (old.map Import.name).Nodup)
    (distinct' : (new.map Import.name).Nodup) (shuffled : old.Perm old') (shuffled' : new.Perm new') :
    (ChangeSet.between Import.name Import.differ old new).Alike
      (fun _ change other => NamesApart Import.name old new → change = other)
      (ChangeSet.between Import.name Import.differ old' new') := by
  have inAnyOrder {items items' : List Import} (names : (items.map Import.name).Nodup)
      (perm : items.Perm items') : SameFirst Import.name Eq items items' := by
    have shuffled : Shuffled Eq items items' := ⟨items', perm, List.forall₂_refl items'⟩
    exact shuffled.sameFirst (fun _ _ => congrArg Import.name) names
  apply ChangeSet.between_alike (inAnyOrder distinct shuffled) (inAnyOrder distinct' shuffled')
  rintro wanted item other _ _ _here _there rfl rfl
  exact rel_eq rfl

theorem listChange_added {old new old' new' : List String} (perm : old.Perm old')
    (perm' : new.Perm new') :
    (ListChange.between old new).added.Perm (ListChange.between old' new').added := by
  have lacks : (fun name => !old.contains name) = fun name => !old'.contains name := by
    funext name
    rw [perm.contains_eq]
  rw [ListChange.between, lacks]
  exact perm'.filter _

namespace TypeDeclaration

/-- What is different in the declarations of a type, be it something or nothing. -/
def differences (old new : TypeDeclaration) : TypeDelta where
  kind := new.kind
  parent := ValueChange.between? old.parent new.parent
  interfaces := ListChange.between old.interfaces new.interfaces
  modifiers := ValueChange.between? old.modifiers new.modifiers
  methods := ChangeSet.between Member.name Member.differ old.methods new.methods
  properties := ChangeSet.between Member.name Member.differ old.properties new.properties

theorem differ_eq (old new : TypeDeclaration) : differ old new =
    if (differences old new).hasChanges then some (differences old new) else none := rfl

theorem differences_sort (old new : TypeDeclaration) (sort : MemberSort) :
    sort.changes (differences old new) =
      ChangeSet.between Member.name Member.differ (sort.declared old) (sort.declared new) := by
  cases sort <;> rfl

theorem Shuffled.key {left right : TypeDeclaration} (same : left.Shuffled right) :
    left.key = right.key := by
  unfold TypeDeclaration.key
  rw [same.kind, same.name]

section Differences

variable {item other item' other' : TypeDeclaration}
  (distinct : ∀ sort : MemberSort, ((sort.declared item).map Member.name).Nodup)
  (distinct' : ∀ sort : MemberSort, ((sort.declared other).map Member.name).Nodup)
  (same : item.Shuffled item') (same' : other.Shuffled other')

include distinct distinct' same same'

theorem differences_alike : (differences item other).Alike
    (fun sort => NamesApart Member.name (sort.declared item) (sort.declared other))
    (differences item' other') where
  kind := same'.kind
  parent := by rw [differences, same.parent, same'.parent, differences]
  added := listChange_added same.interfaces same'.interfaces
  removed := listChange_added same'.interfaces same.interfaces
  modifiers := by rw [differences, same.modifiers, same'.modifiers, differences]
  members sort := by
    rw [differences_sort, differences_sort]
    exact members_alike (distinct sort) (distinct' sort) (same.members sort) (same'.members sort)

theorem differ_alike : Option.Rel
    (TypeDelta.Alike fun sort => NamesApart Member.name (sort.declared item) (sort.declared other))
    (differ item other) (differ item' other') := by
  have alike := differences_alike distinct distinct' same same'
  rw [differ_eq, differ_eq, alike.hasChanges]
  split
  · exact .some alike
  · exact .none

end Differences

end TypeDeclaration

/-! ### Changes between summaries -/

section Types

variable {summary : Summary} (distinct : summary.Distinct)

include distinct

theorem Summary.Distinct.oneKind : OneKind summary.types := by
  intro left mem right mem' same
  rw [List.inj_on_of_nodup_map distinct.types mem mem' same]

theorem Summary.Distinct.keys : (summary.types.map TypeDeclaration.key).Nodup := by
  have names := distinct.types
  rw [List.Nodup, List.pairwise_map] at names ⊢
  apply names.imp_of_mem
  intro left right mem mem' different same
  have identities := (key_inj (distinct.unmarked left mem) (distinct.unmarked right mem')).mp same
  exact different (congrArg Prod.fst identities)

end Types

section Summaries

variable {old new old' new' : Summary} (distinct : old.Distinct) (distinct' : new.Distinct)

include distinct distinct'

theorem types_alike {types types' shuffledTypes shuffledTypes' : List TypeDeclaration}
    (among : types.Sublist old.types) (among' : types'.Sublist new.types)
    (shuffled : Shuffled TypeDeclaration.Shuffled types shuffledTypes)
    (shuffled' : Shuffled TypeDeclaration.Shuffled types' shuffledTypes') :
    (ChangeSet.between TypeDeclaration.key TypeDeclaration.differ types types').Alike
      (TypeDelta.AlikeUnder old new)
      (ChangeSet.between TypeDeclaration.key TypeDeclaration.differ shuffledTypes
        shuffledTypes') := by
  have apart : NamesApart TypeDeclaration.key types types' := by
    intro item mem other memOther item' mem' other' memOther'
    exact distinct.oneKind.namesApart distinct.unmarked new.types item (among.subset mem) other
      (among.subset memOther) item' (among'.subset mem') other' (among'.subset memOther')
  have firsts := shuffled.sameFirst (fun _ _ same => same.key)
    (distinct.keys.sublist (among.map TypeDeclaration.key))
  have firsts' := shuffled'.sameFirst (fun _ _ same => same.key)
    (distinct'.keys.sublist (among'.map TypeDeclaration.key))
  have differs : ∀ wanted item other item' other',
      firstWith TypeDeclaration.key types wanted = some item →
      firstWith TypeDeclaration.key types' wanted = some other → item.Shuffled item' →
      other.Shuffled other' → Option.Rel (TypeDelta.AlikeUnder old new (nameOfKey wanted))
        (TypeDeclaration.differ item other) (TypeDeclaration.differ item' other') := by
    intro wanted item other item' other' here there same same'
    obtain ⟨mem, rfl⟩ := firstWith_some here
    obtain ⟨mem', key⟩ := firstWith_some there
    have inOld := among.subset mem
    have inNew := among'.subset mem'
    have name : nameOfKey item.key = item.name := nameOfKey_key (distinct.unmarked item inOld)
    have name' : other.name = item.name := by
      rw [← nameOfKey_key (distinct'.unmarked other inNew), key, name]
    have alike := TypeDeclaration.differ_alike (distinct.members item inOld)
      (distinct'.members other inNew) same same'
    rw [name]
    generalize TypeDeclaration.differ item other = change at alike ⊢
    generalize TypeDeclaration.differ item' other' = change' at alike ⊢
    cases alike with
    | none => exact .none
    | some alike => exact .some ⟨item, inOld, other, inNew, rfl, name', alike⟩
  have alike := ChangeSet.between_alike firsts firsts' differs
  exact ⟨alike.added, alike.removed, alike.modified.imp fun _ _ same => ⟨same.1, same.2 apart⟩⟩

variable (shuffled : old.Shuffled old') (shuffled' : new.Shuffled new')

include shuffled shuffled'

/-- The change between two summaries is alike for summaries that are shuffled. -/
theorem Delta.between_alike : (between old new).Alike old new (between old' new') where
  space := by rw [between, shuffled.space, shuffled'.space, between]
  types := types_alike distinct distinct' (.refl _) (.refl _) shuffled.types shuffled'.types
  interfaces := by
    have isInterface (left right : TypeDeclaration) (same : left.Shuffled right) :
        left.kind == .ofInterface ↔ right.kind == .ofInterface := by rw [same.kind]
    exact types_alike distinct distinct' List.filter_sublist List.filter_sublist
      (shuffled.types.filter isInterface) (shuffled'.types.filter isInterface)
  functions := members_alike distinct.functions distinct'.functions shuffled.functions
    shuffled'.functions
  imports := imports_alike distinct.imports distinct'.imports shuffled.imports shuffled'.imports

theorem Delta.between_severity : (between old new).severity = (between old' new').severity :=
  (between_alike distinct distinct' shuffled shuffled').impliedSeverity

end Summaries

end DocDrift
