import DocDrift.Proofs.Change.Hierarchy
import Mathlib.Data.List.Sort

/-!
The change in the other direction. What comes one way goes the other way, in the same order, and
what changes under a name that stays changes back. The changes of types are kept by name alone, so
this holds of them if the types that both sides declare are told apart by their names; then the whole
change is the reversed one, and as severe.
-/

set_option autoImplicit false

namespace DocDrift

/-! ### Reversed changes -/

def ValueChange.reversed {α : Type} (change : ValueChange α) : ValueChange α :=
  ⟨change.new, change.old⟩

def ListChange.reversed (changes : ListChange) : ListChange :=
  ⟨changes.removed, changes.added⟩

/-- A set of changes in the other direction, given the other direction of what is changed. -/
def ChangeSet.reversed {μ : Type} (reverse : μ → μ) (changes : ChangeSet μ) : ChangeSet μ :=
  ⟨changes.removed, changes.added,
    changes.modified.map fun entry => (entry.1, reverse entry.2)⟩

def MemberDelta.reversed (delta : MemberDelta) : MemberDelta :=
  ⟨delta.signature.map ValueChange.reversed, delta.visibility.map ValueChange.reversed⟩

def TypeDelta.reversed (delta : TypeDelta) : TypeDelta where
  kind := delta.kind
  parent := delta.parent.map ValueChange.reversed
  interfaces := delta.interfaces.reversed
  modifiers := delta.modifiers.map ValueChange.reversed
  methods := delta.methods.reversed MemberDelta.reversed
  properties := delta.properties.reversed MemberDelta.reversed

/-- A structural change in the other direction reaches as far. -/
def Delta.reversed (delta : Delta) : Delta where
  spaceChanged := delta.spaceChanged
  types := delta.types.reversed TypeDelta.reversed
  interfaces := delta.interfaces.reversed TypeDelta.reversed
  functions := delta.functions.reversed MemberDelta.reversed
  imports := delta.imports.reversed ValueChange.reversed
  severity := delta.severity

/-! ### What a direction does not matter for -/

section Reversed

variable {μ : Type} (reverse : μ → μ) (changes : ChangeSet μ)

theorem ChangeSet.values_reversed :
    (changes.reversed reverse).modified.values = changes.modified.values.map reverse := by
  rw [reversed, NameMap.values, NameMap.values, List.map_map, List.map_map]
  rfl

theorem ChangeSet.isEmpty_reversed :
    (changes.reversed reverse).modified.isEmpty = changes.modified.isEmpty :=
  List.isEmpty_map

theorem ChangeSet.churn_reversed : (changes.reversed reverse).churn = changes.churn :=
  Nat.add_comm _ _

theorem ChangeSet.hasChanges_reversed :
    (changes.reversed reverse).hasChanges = changes.hasChanges := by
  rw [hasChanges, isEmpty_reversed, hasChanges, Bool.or_comm (!changes.added.isEmpty)]
  rfl

theorem ListChange.hasChanges_reversed (changes : ListChange) :
    changes.reversed.hasChanges = changes.hasChanges :=
  Bool.or_comm _ _

theorem TypeDelta.changesHierarchy_reversed (delta : TypeDelta) :
    delta.reversed.changesHierarchy = delta.changesHierarchy := by
  rw [changesHierarchy, reversed, Option.isSome_map, ListChange.hasChanges_reversed]
  rfl

theorem TypeDelta.hasChanges_reversed (delta : TypeDelta) :
    delta.reversed.hasChanges = delta.hasChanges := by
  rw [hasChanges, changesHierarchy_reversed, reversed, Option.isSome_map,
    ChangeSet.hasChanges_reversed, ChangeSet.hasChanges_reversed]
  rfl

theorem Delta.impliedSeverity_reversed (delta : Delta) :
    delta.reversed.impliedSeverity = delta.impliedSeverity := by
  have moves : delta.reversed.types.modified.values.any TypeDelta.changesHierarchy =
      delta.types.modified.values.any TypeDelta.changesHierarchy := by
    rw [reversed, ChangeSet.values_reversed, List.any_map]
    congr 1
    exact funext TypeDelta.changesHierarchy_reversed
  rw [impliedSeverity, moves, reversed, ChangeSet.churn_reversed, ChangeSet.churn_reversed,
    ChangeSet.churn_reversed, ChangeSet.isEmpty_reversed, ChangeSet.isEmpty_reversed]
  rfl

end Reversed

/-! ### Names that tell apart -/

theorem NameMap.Ascending.ext {α : Type} {left right : NameMap α} (ascending : left.Ascending)
    (ascending' : right.Ascending) (same : ∀ entry, entry ∈ left ↔ entry ∈ right) :
    left = right := by
  have distinct {map : NameMap α} (rising : map.Ascending) : map.Nodup :=
    rising.nodup.of_map Prod.fst
  apply List.Perm.eq_of_pairwise _ ascending ascending'
  · exact (List.perm_ext_iff_of_nodup (distinct ascending) (distinct ascending')).mpr same
  · intro entry other _mem _mem' less more
    exact absurd (String.lt_trans less more) (String.lt_irrefl _)

section Apart

variable {α μ : Type} {key : α → String} {differ : α → α → Option μ} {old new : List α}

/-- The keys under which both sides have something have different names. -/
def NamesApart (key : α → String) (old new : List α) : Prop :=
  ∀ item ∈ old, ∀ other ∈ old, ∀ item' ∈ new, ∀ other' ∈ new,
    key item = key item' → key other = key other' →
      nameOfKey (key item) = nameOfKey (key other) → key item = key other

theorem NamesApart.symm (apart : NamesApart key old new) : NamesApart key new old := by
  intro item mem other memOther item' mem' other' memOther' same same' names
  rw [same, same'] at names ⊢
  exact apart item' mem' other' memOther' item mem other memOther same.symm same'.symm names

theorem NamesApart.of_old (apart : ∀ item ∈ old, ∀ other ∈ old,
    nameOfKey (key item) = nameOfKey (key other) → key item = key other) :
    NamesApart key old new :=
  fun item mem other memOther _ _ _ _ _ _ names => apart item mem other memOther names

/-- What changed under a name did so under a key that both sides have. -/
theorem first_of_modified {entry : String × μ}
    (mem : entry ∈ (ChangeSet.between key differ old new).modified) :
    ∃ wanted item other, firstWith key old wanted = some item ∧
      firstWith key new wanted = some other ∧ differ item other = some entry.2 ∧
      nameOfKey wanted = entry.1 := by
  obtain ⟨before, item, after, split, ⟨other, there, differs, named⟩, _last⟩ := mem_modified.mp mem
  have kept : item ∈ firstByKey key old := by simp [split]
  exact ⟨key item, item, other, mem_firstByKey.mp kept, there, differs, named⟩

/-- If names tell the keys apart, the change of whatever both sides have is kept. -/
theorem mem_modified_of_apart (apart : NamesApart key old new) {entry : String × μ} :
    entry ∈ (ChangeSet.between key differ old new).modified ↔
      ∃ wanted item other, firstWith key old wanted = some item ∧
        firstWith key new wanted = some other ∧ differ item other = some entry.2 ∧
        nameOfKey wanted = entry.1 := by
  constructor
  · exact first_of_modified
  · rintro ⟨wanted, item, other, here, there, differs, named⟩
    obtain ⟨mem, rfl⟩ := firstWith_some here
    obtain ⟨before, after, split⟩ := List.append_of_mem (mem_firstByKey.mpr here)
    refine mem_modified.mpr ⟨before, item, after, split, ⟨other, there, differs, named⟩, ?_⟩
    -- a later item of the same name would have the same key, which only one of the kept items has
    intro last memAfter counterpart found sameName
    have kept : last ∈ firstByKey key old := by simp [split, memAfter]
    have memLast := (firstWith_some (mem_firstByKey.mp kept)).1
    obtain ⟨memOther, otherKey⟩ := firstWith_some there
    obtain ⟨memCounterpart, counterpartKey⟩ := firstWith_some found
    have sameKey : key last = key item :=
      apart last memLast item mem counterpart memCounterpart other memOther counterpartKey.symm
        otherKey.symm (sameName.trans named.symm)
    have distinct : ((firstByKey key old).map key).Nodup := firstByKey_nodup old
    rw [split, List.map_append, List.map_cons] at distinct
    have fresh := (List.nodup_cons.mp (List.nodup_append.mp distinct).2.1).1
    exact absurd (List.mem_map.mpr ⟨last, memAfter, sameKey⟩) fresh

theorem ChangeSet.between_ascending : (between key differ old new).modified.Ascending :=
  NameMap.ascending_ofList _

/-- If the changes under each key are reversed, so is the set of changes. -/
theorem ChangeSet.between_swap {reverse : μ → μ} (apart : NamesApart key old new)
    (mirrors : ∀ item ∈ old, ∀ other ∈ new, key item = key other →
      differ other item = (differ item other).map reverse) :
    between key differ new old = (between key differ old new).reversed reverse := by
  have modified : (between key differ new old).modified =
      ((between key differ old new).reversed reverse).modified := by
    apply between_ascending.ext
    · exact List.pairwise_map.mpr between_ascending
    · intro entry
      rw [mem_modified_of_apart apart.symm, reversed, List.mem_map]
      constructor
      · rintro ⟨wanted, other, item, there, here, differs, named⟩
        obtain ⟨mem, rfl⟩ := firstWith_some here
        obtain ⟨memOther, sameKey⟩ := firstWith_some there
        rw [mirrors item mem other memOther sameKey.symm] at differs
        obtain ⟨change, differs, changed⟩ := Option.map_eq_some_iff.mp differs
        refine ⟨(entry.1, change), (mem_modified_of_apart apart).mpr ?_, Prod.ext rfl changed⟩
        exact ⟨key item, item, other, here, there, differs, named⟩
      · rintro ⟨found, held, rfl⟩
        obtain ⟨wanted, item, other, here, there, differs, named⟩ :=
          (mem_modified_of_apart apart).mp held
        obtain ⟨mem, rfl⟩ := firstWith_some here
        obtain ⟨memOther, sameKey⟩ := firstWith_some there
        refine ⟨key item, other, item, there, here, ?_, named⟩
        rw [mirrors item mem other memOther sameKey.symm, differs]
        rfl
  have whole : between key differ new old =
      ⟨(between key differ old new).removed, (between key differ old new).added,
        (between key differ new old).modified⟩ := rfl
  rw [whole, modified]
  rfl

end Apart

/-! ### Declarations -/

theorem between?_swap {α : Type} [DecidableEq α] (old new : α) :
    ValueChange.between? new old = (ValueChange.between? old new).map ValueChange.reversed := by
  unfold ValueChange.between?
  by_cases same : old = new
  · rw [if_pos same, if_pos same.symm]
    rfl
  · rw [if_neg same, if_neg (Ne.symm same)]
    rfl

theorem Member.differ_swap (old new : Member) :
    Member.differ new old = (Member.differ old new).map MemberDelta.reversed := by
  unfold Member.differ
  dsimp only
  rw [between?_swap old.signature, between?_swap old.visibility, Option.isNone_map,
    Option.isNone_map]
  split <;> rfl

theorem nameOfKey_plain {name : String} (plain : '#' ∉ name.toList) : nameOfKey name = name := by
  have solid : ∀ c ∈ name.toList, decide (c ≠ '#') = true :=
    fun c mem => decide_eq_true fun same => plain (same ▸ mem)
  rw [nameOfKey, ← List.append_nil name.toList, List.takeWhile_append_of_pos solid,
    List.takeWhile_nil, List.append_nil, String.ofList_toList]

theorem NamesApart.of_plain {α : Type} {key : α → String} {old : List α} (new : List α)
    (plain : ∀ item ∈ old, '#' ∉ (key item).toList) : NamesApart key old new := by
  apply NamesApart.of_old
  intro item mem other memOther names
  rwa [nameOfKey_plain (plain item mem), nameOfKey_plain (plain other memOther)] at names

theorem members_swap {old : List Member} (new : List Member)
    (plain : ∀ member ∈ old, '#' ∉ member.name.toList) :
    ChangeSet.between Member.name Member.differ new old =
      (ChangeSet.between Member.name Member.differ old new).reversed MemberDelta.reversed :=
  ChangeSet.between_swap (.of_plain new plain) fun item _ other _ _ => Member.differ_swap item other

/-- No name of a declaration has the mark that a key puts behind a name. -/
structure Summary.PlainNames (summary : Summary) : Prop where
  types : Unmarked summary.types
  members : ∀ declared ∈ summary.types, ∀ member ∈ declared.members, '#' ∉ member.name.toList
  functions : ∀ member ∈ summary.functions, '#' ∉ member.name.toList
  imports : ∀ imported ∈ summary.imports, '#' ∉ imported.name.toList

/-- No name is declared under two kinds. -/
def OneKind (types : List TypeDeclaration) : Prop :=
  ∀ left ∈ types, ∀ right ∈ types, left.name = right.name → left.kind = right.kind

instance (types : List TypeDeclaration) : Decidable (OneKind types) :=
  inferInstanceAs
    (Decidable (∀ left ∈ types, ∀ right ∈ types, left.name = right.name → left.kind = right.kind))

theorem OneKind.namesApart {types : List TypeDeclaration} (oneKind : OneKind types)
    (unmarked : Unmarked types) (others : List TypeDeclaration) :
    NamesApart TypeDeclaration.key types others := by
  apply NamesApart.of_old
  intro item mem other memOther names
  rw [nameOfKey_key (unmarked item mem), nameOfKey_key (unmarked other memOther)] at names
  have kinds := oneKind item mem other memOther names
  exact (key_inj (unmarked item mem) (unmarked other memOther)).mpr (Prod.ext names kinds)

theorem TypeDeclaration.differ_swap {old new : TypeDeclaration} (kinds : old.kind = new.kind)
    (plain : ∀ member ∈ old.members, '#' ∉ member.name.toList) :
    differ new old = (differ old new).map TypeDelta.reversed := by
  have methods := members_swap new.methods fun member mem =>
    plain member (List.mem_append_left _ mem)
  have properties := members_swap new.properties fun member mem =>
    plain member (List.mem_append_right _ mem)
  generalize forth : ({
      kind := new.kind
      parent := ValueChange.between? old.parent new.parent
      interfaces := ListChange.between old.interfaces new.interfaces
      modifiers := ValueChange.between? old.modifiers new.modifiers
      methods := ChangeSet.between Member.name Member.differ old.methods new.methods
      properties := ChangeSet.between Member.name Member.differ old.properties new.properties } :
    TypeDelta) = delta
  have changed : differ old new = if delta.hasChanges then some delta else none := by
    rw [← forth]
    rfl
  have back : differ new old =
      if delta.reversed.hasChanges then some delta.reversed else none := by
    rw [← forth, differ, between?_swap old.parent, between?_swap old.modifiers, methods, properties,
      kinds]
    rfl
  rw [back, changed, TypeDelta.hasChanges_reversed]
  split <;> rfl

section Types

variable {old new : List TypeDeclaration} (unmarked : Unmarked old) (unmarked' : Unmarked new)
  (plain : ∀ declared ∈ old, ∀ member ∈ declared.members, '#' ∉ member.name.toList)

include unmarked unmarked' plain

theorem types_swap (oneKind : OneKind old ∨ OneKind new) :
    ChangeSet.between TypeDeclaration.key TypeDeclaration.differ new old =
      (ChangeSet.between TypeDeclaration.key TypeDeclaration.differ old new).reversed
        TypeDelta.reversed := by
  apply ChangeSet.between_swap
  · rcases oneKind with oneKind | oneKind
    · exact oneKind.namesApart unmarked new
    · exact (oneKind.namesApart unmarked' old).symm
  · intro item mem other memOther sameKey
    have identities := (key_inj (unmarked item mem) (unmarked' other memOther)).mp sameKey
    exact TypeDeclaration.differ_swap (congrArg Prod.snd identities) (plain item mem)

end Types

theorem oneKind_interfaces (summary : Summary) : OneKind summary.interfaces := by
  have isInterface : ∀ declared ∈ summary.interfaces, declared.kind = .ofInterface :=
    fun declared mem => beq_iff_eq.mp (List.mem_filter.mp mem).2
  exact fun left mem right memRight _ => (isInterface left mem).trans (isInterface right memRight).symm

/-! ### Summaries -/

namespace Delta

section Swap

variable {old new : Summary} (plain : old.PlainNames) (plain' : new.PlainNames)

include plain plain'

theorem interfaces_swap : (between new old).interfaces =
    (between old new).interfaces.reversed TypeDelta.reversed := by
  apply types_swap _ _ _ (.inl (oneKind_interfaces old))
  · exact fun declared mem => plain.types declared (List.mem_of_mem_filter mem)
  · exact fun declared mem => plain'.types declared (List.mem_of_mem_filter mem)
  · exact fun declared mem => plain.members declared (List.mem_of_mem_filter mem)

omit plain' in
theorem functions_swap : (between new old).functions =
    (between old new).functions.reversed MemberDelta.reversed :=
  members_swap new.functions plain.functions

omit plain' in
theorem imports_swap : (between new old).imports =
    (between old new).imports.reversed ValueChange.reversed :=
  ChangeSet.between_swap (.of_plain new.imports plain.imports)
    fun item _ other _ _ => between?_swap item.renamed other.renamed

omit plain plain' in
theorem spaceChanged_swap (old new : Summary) :
    (between new old).spaceChanged = (between old new).spaceChanged := by
  rw [between, between]
  exact decide_eq_decide.mpr ne_comm

/-- If the types that both sides declare have different names, the change is the reversed one. -/
theorem between_swap (oneKind : OneKind old.types ∨ OneKind new.types) :
    between new old = (between old new).reversed := by
  have types : (between new old).types = (between old new).types.reversed TypeDelta.reversed :=
    types_swap plain.types plain'.types plain.members oneKind
  have sets : (⟨(between new old).spaceChanged, (between new old).types,
      (between new old).interfaces, (between new old).functions, (between new old).imports,
      (between old new).severity⟩ : Delta) = (between old new).reversed := by
    rw [types, interfaces_swap plain plain', functions_swap plain, imports_swap plain,
      spaceChanged_swap]
    rfl
  -- the severity is the one that the sets imply, whatever is written down as severity
  have severity : (between new old).severity = (between old new).severity := by
    have same := congrArg impliedSeverity sets
    rw [impliedSeverity_reversed] at same
    exact same
  rw [← sets, ← severity]

/-- One way and the other, what is added and what is removed change places, in the same order, and
so do the old and the new side of every change under a name. Of the changes of types this holds if
on one side at least no name of a type is declared under two kinds, and then the severity is the same
as well. -/
theorem direction_reverses :
    (between new old).spaceChanged = (between old new).spaceChanged ∧
    ((between new old).types.added = (between old new).types.removed ∧
      (between new old).types.removed = (between old new).types.added) ∧
    (between new old).interfaces = (between old new).interfaces.reversed TypeDelta.reversed ∧
    (between new old).functions = (between old new).functions.reversed MemberDelta.reversed ∧
    (between new old).imports = (between old new).imports.reversed ValueChange.reversed ∧
    (OneKind old.types ∨ OneKind new.types → between new old = (between old new).reversed) :=
  ⟨spaceChanged_swap old new, ⟨rfl, rfl⟩, interfaces_swap plain plain', functions_swap plain,
    imports_swap plain, between_swap plain plain'⟩

end Swap

/-! ### A change and its way back -/

def marketMember (name signature : String) : Member :=
  ⟨name, .isPublic, signature, none⟩

def marketType (kind : TypeKind) (name : String) (parent : Option String)
    (interfaces : List String) (methods : List Member) : TypeDeclaration :=
  ⟨kind, name, parent, interfaces, ⟨false, false⟩, methods, [], none⟩

/-- A class that is declared twice, with a method that is, and an interface. -/
def market : Summary :=
  ⟨some "Town", [⟨"Money", none⟩, ⟨"Money", some "Coin"⟩],
    [marketType .ofClass "Stall" none ["Countable"]
        [marketMember "sell" "($item)", marketMember "sell" "()", marketMember "close" "()"],
      marketType .ofClass "Stall" (some "Shop") [] [], marketType .ofInterface "Goods" none [] []],
    [marketMember "open" "()"]⟩

/-- The class has another parent, other interfaces and other methods, and there is a trait of the
name of the interface. -/
def marketMoved : Summary :=
  ⟨some "Town", [⟨"Money", some "Cash"⟩],
    [marketType .ofTrait "Goods" none [] [], marketType .ofInterface "Goods" none [] [],
      marketType .ofClass "Stall" (some "Booth") ["Iterator"]
        [marketMember "sell" "($item, $price)", marketMember "rest" "()"]],
    [marketMember "open" "(): void"]⟩

/-- All sorts of changes are reversed, though one side has a name under two kinds. -/
theorem direction_reverses_of_market :
    market.PlainNames ∧ marketMoved.PlainNames ∧ OneKind market.types ∧
    ¬OneKind marketMoved.types ∧
    between marketMoved market = (between market marketMoved).reversed ∧
    (between marketMoved market).types.removed = ["Goods"] ∧
    (between marketMoved market).severity = .major := by
  have plain : market.PlainNames := ⟨by decide, by decide, by decide, by decide⟩
  have plain' : marketMoved.PlainNames := ⟨by decide, by decide, by decide, by decide⟩
  have oneKind : OneKind market.types := by decide
  refine ⟨plain, plain', oneKind, by decide, ?_, by decide +kernel, by decide +kernel⟩
  exact (direction_reverses plain plain').2.2.2.2.2 (.inl oneKind)

/-- If both sides have a name under two kinds, the direction decides which of the two types is seen
to change, and with it the severity. -/
example :
    let old : Summary := ⟨none, [],
      [marketType .ofClass "Stall" none [] [], marketType .ofInterface "Stall" none [] []], []⟩
    let new : Summary := ⟨none, [],
      [marketType .ofInterface "Stall" none [] [marketMember "sell" "()"],
        marketType .ofClass "Stall" (some "Shop") [] []], []⟩
    (between old new).severity = .minor ∧ (between new old).severity = .major := by
  decide +kernel

end Delta

end DocDrift
