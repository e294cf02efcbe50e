import DocDrift.Change.Delta
import Mathlib.Data.List.Basic

/-!
What it means that nothing changed between two summaries. Declarations are matched by key, and of
several with one key the first counts. Two lists of declarations agree if each key has its first
declarations on both sides or on neither, and those are the same; there is no change just between
lists that agree.
-/

set_option autoImplicit false

namespace DocDrift

/-! ### First declarations -/

section First

variable {α κ : Type} [DecidableEq κ]

/-- The first of the items with a key. -/
def firstWith (key : α → κ) (items : List α) (wanted : κ) : Option α :=
  items.find? (fun item => decide (key item = wanted))

theorem firstWith_nil (key : α → κ) (wanted : κ) : firstWith key [] wanted = none := rfl

theorem firstWith_cons (key : α → κ) (item : α) (rest : List α) (wanted : κ) :
    firstWith key (item :: rest) wanted =
      if key item = wanted then some item else firstWith key rest wanted := by
  unfold firstWith
  by_cases same : key item = wanted
  · rw [List.find?_cons_of_pos (by simpa using same), if_pos same]
  · rw [List.find?_cons_of_neg (by simpa using same), if_neg same]

theorem firstWith_some {key : α → κ} {items : List α} {wanted : κ} {item : α}
    (found : firstWith key items wanted = some item) : item ∈ items ∧ key item = wanted :=
  ⟨List.mem_of_find?_eq_some found, by simpa using List.find?_some found⟩

theorem firstWith_none {key : α → κ} {items : List α} {wanted : κ} :
    firstWith key items wanted = none ↔ ∀ item ∈ items, key item ≠ wanted := by
  unfold firstWith
  simp

theorem firstWith_append (key : α → κ) (items more : List α) (wanted : κ) :
    firstWith key (items ++ more) wanted =
      (firstWith key items wanted).or (firstWith key more wanted) := by
  unfold firstWith
  rw [List.find?_append]

theorem firstWith_of_nodup {key : α → κ} {items : List α} {item : α}
    (distinct : (items.map key).Nodup) (mem : item ∈ items) :
    firstWith key items (key item) = some item := by
  induction items with
  | nil => cases mem
  | cons head rest ih =>
      rw [List.map_cons, List.nodup_cons] at distinct
      rw [firstWith_cons]
      rcases List.mem_cons.mp mem with rfl | later
      · rw [if_pos rfl]
      · have different : key head ≠ key item :=
          fun same => distinct.1 (same ▸ List.mem_map_of_mem later)
        rw [if_neg different, ih distinct.2 later]

/-- Two lists have, under every key, the same first item or none. -/
def SameFirst (key : α → κ) (same : α → α → Prop) (old new : List α) : Prop :=
  ∀ wanted, Option.Rel same (firstWith key old wanted) (firstWith key new wanted)

end First

/-! ### Changes of lists -/

section Changes

variable {α μ : Type} {key : α → String}

/-- Dropping repetitions keeps the first item with each key. -/
theorem firstWith_firstByKey (items : List α) (wanted : String) :
    firstWith key (firstByKey key items) wanted = firstWith key items wanted := by
  have folded : ∀ (rest kept : List α),
      firstWith key (rest.foldl (fun kept item =>
        if kept.any (fun other => key other == key item) then kept else kept ++ [item]) kept)
          wanted = (firstWith key kept wanted).or (firstWith key rest wanted) := by
    intro rest
    induction rest with
    | nil =>
        intro kept
        rw [firstWith_nil, Option.or_none]
        rfl
    | cons item rest ih =>
        intro kept
        rw [List.foldl_cons, ih, firstWith_cons]
        split
        case isTrue there =>
          by_cases same : key item = wanted
          · obtain ⟨other, mem, equal⟩ := List.any_eq_true.mp there
            have present : firstWith key kept wanted ≠ none := by
              rw [Ne, firstWith_none]
              intro absent
              exact absent other mem ((beq_iff_eq.mp equal).trans same)
            obtain ⟨first, found⟩ := Option.ne_none_iff_exists'.mp present
            rw [found, Option.some_or, Option.some_or]
          · rw [if_neg same]
        case isFalse =>
          rw [firstWith_append, firstWith_cons, firstWith_nil, Option.or_assoc]
          by_cases same : key item = wanted
          · rw [if_pos same, if_pos same, Option.some_or]
          · rw [if_neg same, if_neg same, Option.none_or]
  rw [firstByKey, folded, firstWith_nil, Option.none_or]

theorem firstByKey_nodup (items : List α) : ((firstByKey key items).map key).Nodup := by
  have folded : ∀ (rest kept : List α), (kept.map key).Nodup →
      ((rest.foldl (fun kept item =>
        if kept.any (fun other => key other == key item) then kept else kept ++ [item])
          kept).map key).Nodup := by
    intro rest
    induction rest with
    | nil =>
        intro kept distinct
        exact distinct
    | cons item rest ih =>
        intro kept distinct
        rw [List.foldl_cons]
        apply ih
        split
        case isTrue => exact distinct
        case isFalse absent =>
          rw [List.map_append, List.map_singleton, List.nodup_append]
          refine ⟨distinct, by simp, ?_⟩
          intro other mem single mem' same
          obtain ⟨kept', memKept, rfl⟩ := List.mem_map.mp mem
          obtain rfl := List.mem_singleton.mp mem'
          exact absent (List.any_eq_true.mpr ⟨kept', memKept, beq_iff_eq.mpr same⟩)
  exact folded items [] List.nodup_nil

theorem mem_firstByKey {items : List α} {item : α} :
    item ∈ firstByKey key items ↔ firstWith key items (key item) = some item := by
  constructor
  · intro mem
    rw [← firstWith_firstByKey]
    exact firstWith_of_nodup (firstByKey_nodup items) mem
  · intro found
    rw [← firstWith_firstByKey] at found
    exact (firstWith_some found).1

theorem insert_ne_nil (name : String) (value : μ) (map : NameMap μ) :
    NameMap.insert name value map ≠ [] := by
  cases map with
  | nil => exact List.cons_ne_nil _ _
  | cons entry rest =>
      rw [NameMap.insert]
      split
      · exact List.cons_ne_nil _ _
      · split <;> exact List.cons_ne_nil _ _

theorem ofList_eq_nil {entries : List (String × μ)} :
    NameMap.ofList entries = [] ↔ entries = [] := by
  have folded : ∀ (rest : List (String × μ)) (map : NameMap μ), map ≠ [] →
      rest.foldl (fun map entry => NameMap.insert entry.1 entry.2 map) map ≠ [] := by
    intro rest
    induction rest with
    | nil =>
        intro map some
        exact some
    | cons entry rest ih =>
        intro map _some
        exact ih _ (insert_ne_nil _ _ _)
  cases entries with
  | nil => exact ⟨fun _ => rfl, fun _ => rfl⟩
  | cons entry rest =>
      constructor
      · intro none
        exact absurd none (folded rest _ (insert_ne_nil _ _ _))
      · intro none
        cases none

/-- There is a first item with a key just if one of those that are kept has it. -/
theorem any_firstByKey {items : List α} {wanted : String} :
    (firstByKey key items).any (fun other => key other == wanted) = true ↔
      firstWith key items wanted ≠ none := by
  rw [List.any_eq_true, ← firstWith_firstByKey, Ne, firstWith_none, not_forall]
  constructor
  · rintro ⟨item, mem, same⟩
    exact ⟨item, fun absent => absent mem (beq_iff_eq.mp same)⟩
  · rintro ⟨item, there⟩
    rw [Classical.not_imp, not_not] at there
    exact ⟨item, there.1, beq_iff_eq.mpr there.2⟩

theorem find?_firstByKey (items : List α) (wanted : String) :
    (firstByKey key items).find? (fun other => key other == wanted) =
      firstWith key items wanted := by
  rw [← firstWith_firstByKey]
  rfl

theorem isEmpty_lacking {items source : List α} {name : α → String} :
    ((items.filter (fun item => !(firstByKey key source).any (fun other => key other == key item))).map
      name).isEmpty = true ↔ ∀ item ∈ items, firstWith key source (key item) ≠ none := by
  rw [List.isEmpty_iff, List.map_eq_nil_iff, List.filter_eq_nil_iff]
  constructor
  · intro none item mem
    have there := none item mem
    rw [Bool.not_eq_true', Bool.not_eq_false] at there
    exact any_firstByKey.mp there
  · intro found item mem
    rw [Bool.not_eq_true', Bool.not_eq_false]
    exact any_firstByKey.mpr (found item mem)

theorem isEmpty_modified {items source : List α} {differ : α → α → Option μ} :
    (NameMap.ofList (items.filterMap fun item => do
      let other ← (firstByKey key source).find? (fun other => key other == key item)
      let change ← differ item other
      return (nameOfKey (key item), change))).isEmpty = true ↔
      ∀ item ∈ items, ∀ other, firstWith key source (key item) = some other →
        differ item other = none := by
  rw [List.isEmpty_iff, ofList_eq_nil, List.filterMap_eq_nil_iff]
  constructor
  · intro none item mem other there
    have unchanged := none item mem
    rw [find?_firstByKey, there] at unchanged
    cases changed : differ item other with
    | none => rfl
    | some change =>
        rw [Option.bind_eq_bind, Option.bind_some, changed] at unchanged
        cases unchanged
  · intro unchanged item mem
    rw [find?_firstByKey]
    cases there : firstWith key source (key item) with
    | none => rfl
    | some other =>
        rw [Option.bind_eq_bind, Option.bind_some, unchanged item mem other there]
        rfl

theorem between_unchanged {differ : α → α → Option μ} {old new : List α} :
    (ChangeSet.between key differ old new).hasChanges = false ↔
      (∀ item ∈ firstByKey key new, firstWith key old (key item) ≠ none) ∧
      (∀ item ∈ firstByKey key old, firstWith key new (key item) ≠ none) ∧
      ∀ item ∈ firstByKey key old, ∀ other, firstWith key new (key item) = some other →
        differ item other = none := by
  rw [ChangeSet.hasChanges, Bool.or_eq_false_iff, Bool.or_eq_false_iff, and_assoc,
    Bool.not_eq_false', Bool.not_eq_false', Bool.not_eq_false']
  exact and_congr isEmpty_lacking (and_congr isEmpty_lacking isEmpty_modified)

/-- Nothing changed between two lists just if they have the same under every key. -/
theorem between_hasChanges {differ : α → α → Option μ} {old new : List α} :
    (ChangeSet.between key differ old new).hasChanges = false ↔
      SameFirst key (fun item other => differ item other = none) old new := by
  rw [between_unchanged]
  constructor
  · rintro ⟨added, removed, modified⟩ wanted
    cases here : firstWith key old wanted with
    | none =>
        cases there : firstWith key new wanted with
        | none => exact .none
        | some other =>
            obtain ⟨_mem, rfl⟩ := firstWith_some there
            exact absurd here (added other (mem_firstByKey.mpr there))
    | some item =>
        obtain ⟨_mem, rfl⟩ := firstWith_some here
        have kept := mem_firstByKey.mpr here
        cases there : firstWith key new (key item) with
        | none => exact absurd there (removed item kept)
        | some other => exact .some (modified item kept other there)
  · intro same
    refine ⟨?_, ?_, ?_⟩
    · intro item mem absent
      have found := mem_firstByKey.mp mem
      have related := same (key item)
      rw [absent, found] at related
      cases related
    · intro item mem absent
      have found := mem_firstByKey.mp mem
      have related := same (key item)
      rw [absent, found] at related
      cases related
    · intro item mem other there
      have found := mem_firstByKey.mp mem
      have related := same (key item)
      rw [there, found] at related
      cases related with
      | some equal => exact equal

end Changes

/-! ### Declarations that agree -/

/-- Members that agree in all that a change of members is about. -/
def Member.Agrees (left right : Member) : Prop :=
  left.signature = right.signature ∧ left.visibility = right.visibility

def Import.Agrees (left right : Import) : Prop :=
  left.renamed = right.renamed

/-- Types with the same place in the hierarchy, the same modifiers and the same members. The order
of the interfaces does not matter, nor does documentation. -/
structure TypeDeclaration.Agrees (left right : TypeDeclaration) : Prop where
  parent : left.parent = right.parent
  interfaces : ∀ name, name ∈ left.interfaces ↔ name ∈ right.interfaces
  modifiers : left.modifiers = right.modifiers
  methods : SameFirst Member.name Member.Agrees left.methods right.methods
  properties : SameFirst Member.name Member.Agrees left.properties right.properties

/-- What tells one type from another. -/
def TypeDeclaration.identity (declared : TypeDeclaration) : String × TypeKind :=
  (declared.name, declared.kind)

/-- Summaries of sources that declare the same. -/
structure Summary.Agrees (left right : Summary) : Prop where
  space : left.space = right.space
  imports : SameFirst Import.name Import.Agrees left.imports right.imports
  types : SameFirst TypeDeclaration.identity TypeDeclaration.Agrees left.types right.types
  functions : SameFirst Member.name Member.Agrees left.functions right.functions

/-! ### Declarations and themselves -/

theorem SameFirst.refl {α κ : Type} [DecidableEq κ] {key : α → κ} {same : α → α → Prop}
    (agrees : ∀ item, same item item) (items : List α) : SameFirst key same items items := by
  intro wanted
  cases firstWith key items wanted with
  | none => exact .none
  | some item => exact .some (agrees item)

theorem Member.agrees_refl (member : Member) : member.Agrees member :=
  ⟨rfl, rfl⟩

theorem TypeDeclaration.agrees_refl (declared : TypeDeclaration) : declared.Agrees declared :=
  ⟨rfl, fun _ => Iff.rfl, rfl, .refl Member.agrees_refl _, .refl Member.agrees_refl _⟩

theorem Import.agrees_refl (imported : Import) : imported.Agrees imported := rfl

theorem Summary.agrees_refl (summary : Summary) : summary.Agrees summary :=
  ⟨rfl, .refl Import.agrees_refl _, .refl TypeDeclaration.agrees_refl _, .refl Member.agrees_refl _⟩

/-! ### Nothing changed -/

theorem between?_isSome {α : Type} [DecidableEq α] {old new : α} :
    (ValueChange.between? old new).isSome = false ↔ old = new := by
  unfold ValueChange.between?
  split
  case isTrue same => exact ⟨fun _ => same, fun _ => rfl⟩
  case isFalse different => exact ⟨nofun, fun same => absurd same different⟩

theorem between?_isNone {α : Type} [DecidableEq α] {old new : α} :
    (ValueChange.between? old new).isNone = true ↔ old = new := by
  rw [← Option.not_isSome, Bool.not_eq_true', between?_isSome]

theorem Member.differ_eq_none {old new : Member} : Member.differ old new = none ↔ old.Agrees new := by
  unfold Member.differ
  dsimp only
  split
  case isTrue same =>
    rw [Bool.and_eq_true, between?_isNone, between?_isNone] at same
    exact ⟨fun _ => same, fun _ => rfl⟩
  case isFalse different =>
    rw [Bool.and_eq_true, between?_isNone, between?_isNone] at different
    exact ⟨nofun, fun same => absurd same different⟩

theorem Import.differ_eq_none {old new : Import} : Import.differ old new = none ↔ old.Agrees new := by
  rw [← Option.isNone_iff_eq_none]
  exact between?_isNone

theorem listChange_hasChanges {old new : List String} :
    (ListChange.between old new).hasChanges = false ↔ ∀ name, name ∈ old ↔ name ∈ new := by
  rw [ListChange.hasChanges, ListChange.between, Bool.or_eq_false_iff, Bool.not_eq_false',
    Bool.not_eq_false', List.isEmpty_iff, List.isEmpty_iff, List.filter_eq_nil_iff,
    List.filter_eq_nil_iff]
  constructor
  · rintro ⟨added, removed⟩ name
    constructor
    · intro mem
      simpa using removed name mem
    · intro mem
      simpa using added name mem
  · intro same
    refine ⟨?_, ?_⟩
    · intro name mem
      simpa using (same name).mpr mem
    · intro name mem
      simpa using (same name).mp mem

theorem members_unchanged {old new : List Member} :
    (ChangeSet.between Member.name Member.differ old new).hasChanges = false ↔
      SameFirst Member.name Member.Agrees old new := by
  have agrees : (fun item other => Member.differ item other = none) = Member.Agrees := by
    funext item other
    exact propext Member.differ_eq_none
  rw [between_hasChanges, agrees]

theorem imports_unchanged {old new : List Import} :
    (ChangeSet.between Import.name Import.differ old new).hasChanges = false ↔
      SameFirst Import.name Import.Agrees old new := by
  have agrees : (fun item other => Import.differ item other = none) = Import.Agrees := by
    funext item other
    exact propext Import.differ_eq_none
  rw [between_hasChanges, agrees]

theorem TypeDeclaration.differ_eq_none {old new : TypeDeclaration} :
    TypeDeclaration.differ old new = none ↔ old.Agrees new := by
  unfold TypeDeclaration.differ
  dsimp only
  rw [ite_eq_right_iff]
  simp only [reduceCtorEq, imp_false, Bool.not_eq_true, TypeDelta.hasChanges,
    TypeDelta.changesHierarchy, Bool.or_eq_false_iff, between?_isSome, listChange_hasChanges,
    members_unchanged]
  constructor
  · rintro ⟨⟨⟨⟨parent, interfaces⟩, modifiers⟩, methods⟩, properties⟩
    exact ⟨parent, interfaces, modifiers, methods, properties⟩
  · intro same
    exact ⟨⟨⟨⟨same.parent, same.interfaces⟩, same.modifiers⟩, same.methods⟩, same.properties⟩

/-! ### Types by name and kind -/

/-- Names without the mark that a key puts behind a name. -/
def Unmarked (types : List TypeDeclaration) : Prop :=
  ∀ declared ∈ types, '#' ∉ declared.name.toList

instance (types : List TypeDeclaration) : Decidable (Unmarked types) :=
  inferInstanceAs (Decidable (∀ declared ∈ types, '#' ∉ declared.name.toList))

/-- What a key puts behind a name. -/
def keyMark : TypeKind → List Char
  | .ofClass => []
  | kind => '#' :: kind.label.toList

theorem keyMark_inj {left right : TypeKind} (same : keyMark left = keyMark right) :
    left = right := by
  revert same
  cases left <;> cases right <;> decide

theorem key_toList (declared : TypeDeclaration) :
    declared.key.toList = declared.name.toList ++ keyMark declared.kind := by
  unfold TypeDeclaration.key
  cases declared.kind with
  | ofClass => rw [keyMark, List.append_nil]
  | ofInterface =>
      dsimp only
      rw [String.toList_append, String.toList_append, List.append_assoc]
      rfl
  | ofTrait =>
      dsimp only
      rw [String.toList_append, String.toList_append, List.append_assoc]
      rfl

theorem nameOfKey_key {declared : TypeDeclaration} (unmarked : '#' ∉ declared.name.toList) :
    nameOfKey declared.key = declared.name := by
  have solid : ∀ c ∈ declared.name.toList, decide (c ≠ '#') = true := by
    intro c mem
    have different : c ≠ '#' := fun same => unmarked (same ▸ mem)
    simpa using different
  have ends : (keyMark declared.kind).takeWhile (fun c => decide (c ≠ '#')) = [] := by
    cases declared.kind <;> rfl
  rw [nameOfKey, key_toList, List.takeWhile_append_of_pos solid, ends, List.append_nil,
    String.ofList_toList]

theorem key_inj {left right : TypeDeclaration} (unmarked : '#' ∉ left.name.toList)
    (unmarked' : '#' ∉ right.name.toList) :
    left.key = right.key ↔ left.identity = right.identity := by
  constructor
  · intro same
    have names : left.name = right.name := by
      rw [← nameOfKey_key unmarked, same, nameOfKey_key unmarked']
    have texts : left.key.toList = right.key.toList := by rw [same]
    rw [key_toList, key_toList, names] at texts
    have kinds := keyMark_inj (List.append_cancel_left texts)
    exact Prod.ext names kinds
  · intro same
    have names : left.name = right.name := congrArg Prod.fst same
    have kinds : left.kind = right.kind := congrArg Prod.snd same
    rw [TypeDeclaration.key, TypeDeclaration.key, names, kinds]

section Keys

variable {α κ κ' : Type} [DecidableEq κ] [DecidableEq κ'] {key : α → κ} {key' : α → κ'}
  {same : α → α → Prop} {old new : List α}

theorem firstWith_congr {items : List α} {item : α}
    (alike : ∀ other ∈ items, key other = key item ↔ key' other = key' item) :
    firstWith key items (key item) = firstWith key' items (key' item) := by
  induction items with
  | nil => rfl
  | cons head rest ih =>
      have others := ih fun other mem => alike other (List.mem_cons_of_mem _ mem)
      have first := alike head List.mem_cons_self
      rw [firstWith_cons, firstWith_cons, others]
      by_cases equal : key head = key item
      · rw [if_pos equal, if_pos (first.mp equal)]
      · rw [if_neg equal, if_neg (fun equal' => equal (first.mpr equal'))]

/-- Keys that tell the same items apart match the same declarations. -/
theorem SameFirst.of_key
    (alike : ∀ item ∈ old ++ new, ∀ other ∈ old ++ new,
      key other = key item ↔ key' other = key' item)
    (agrees : SameFirst key same old new) : SameFirst key' same old new := by
  have transfer : ∀ item ∈ old ++ new,
      Option.Rel same (firstWith key' old (key' item)) (firstWith key' new (key' item)) := by
    intro item mem
    have inOld := firstWith_congr fun other memOld =>
      alike item mem other (List.mem_append_left _ memOld)
    have inNew := firstWith_congr fun other memNew =>
      alike item mem other (List.mem_append_right _ memNew)
    rw [← inOld, ← inNew]
    exact agrees (key item)
  intro wanted
  cases here : firstWith key' old wanted with
  | some item =>
      obtain ⟨mem, rfl⟩ := firstWith_some here
      rw [← here]
      exact transfer item (List.mem_append_left _ mem)
  | none =>
      cases there : firstWith key' new wanted with
      | none => exact .none
      | some item =>
          obtain ⟨mem, rfl⟩ := firstWith_some there
          rw [← here, ← there]
          exact transfer item (List.mem_append_right _ mem)

end Keys

theorem firstWith_interfaces (types : List TypeDeclaration) (wanted : String × TypeKind) :
    firstWith TypeDeclaration.identity
        (types.filter (fun declared => declared.kind == .ofInterface)) wanted =
      if wanted.2 = .ofInterface then firstWith TypeDeclaration.identity types wanted
      else none := by
  induction types with
  | nil => simp [firstWith_nil]
  | cons declared rest ih =>
      rw [firstWith_cons]
      by_cases isInterface : declared.kind = .ofInterface
      · rw [List.filter_cons_of_pos (by simpa using isInterface), firstWith_cons, ih]
        by_cases same : declared.identity = wanted
        · have kind : wanted.2 = .ofInterface := same ▸ isInterface
          rw [if_pos same, if_pos same, if_pos kind]
        · rw [if_neg same, if_neg same]
      · rw [List.filter_cons_of_neg (by simpa using isInterface), ih]
        by_cases same : declared.identity = wanted
        · have kind : wanted.2 ≠ .ofInterface := same ▸ isInterface
          rw [if_neg kind, if_neg kind]
        · rw [if_neg same]

theorem interfaces_agree {old new : Summary}
    (agrees : SameFirst TypeDeclaration.identity TypeDeclaration.Agrees old.types new.types) :
    SameFirst TypeDeclaration.identity TypeDeclaration.Agrees old.interfaces new.interfaces := by
  intro wanted
  rw [Summary.interfaces, Summary.interfaces, firstWith_interfaces, firstWith_interfaces]
  split
  · exact agrees wanted
  · exact .none

theorem types_unchanged {old new : List TypeDeclaration} (unmarked : Unmarked (old ++ new)) :
    (ChangeSet.between TypeDeclaration.key TypeDeclaration.differ old new).hasChanges = false ↔
      SameFirst TypeDeclaration.identity TypeDeclaration.Agrees old new := by
  have agrees : (fun item other => TypeDeclaration.differ item other = none) =
      TypeDeclaration.Agrees := by
    funext item other
    exact propext TypeDeclaration.differ_eq_none
  rw [between_hasChanges, agrees]
  constructor
  · apply SameFirst.of_key
    intro item mem other memOther
    exact key_inj (unmarked other memOther) (unmarked item mem)
  · apply SameFirst.of_key
    intro item mem other memOther
    exact (key_inj (unmarked other memOther) (unmarked item mem)).symm

theorem Unmarked.interfaces {old new : Summary} (unmarked : Unmarked (old.types ++ new.types)) :
    Unmarked (old.interfaces ++ new.interfaces) := by
  intro declared mem
  apply unmarked declared
  rw [Summary.interfaces, Summary.interfaces, ← List.filter_append] at mem
  exact (List.mem_filter.mp mem).1

/-- Nothing changed between two summaries just if they declare the same. -/
theorem Delta.hasChanges_eq_false {old new : Summary} (unmarked : Unmarked (old.types ++ new.types)) :
    (Delta.between old new).hasChanges = false ↔ old.Agrees new := by
  rw [Delta.between, Delta.hasChanges]
  dsimp only
  simp only [Bool.or_eq_false_iff, types_unchanged unmarked, types_unchanged unmarked.interfaces,
    members_unchanged, imports_unchanged, decide_eq_false_iff_not, not_not]
  constructor
  · rintro ⟨⟨⟨⟨space, types⟩, _interfaces⟩, functions⟩, imports⟩
    exact ⟨space, imports, types, functions⟩
  · intro agrees
    exact ⟨⟨⟨⟨agrees.space, agrees.types⟩, interfaces_agree agrees.types⟩, agrees.functions⟩,
      agrees.imports⟩

end DocDrift
