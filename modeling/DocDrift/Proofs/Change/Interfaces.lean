import DocDrift.Proofs.Change.Reversal

/-!
The changes of interfaces are those changes of types that are about interfaces. Both are found by
comparing lists of declarations, the one with interfaces only and the other with types of all kinds;
as the key of a type tells its kind, the two comparisons keep the same declarations in the same order.
What changed under a name is kept by name alone, so there the two agree if no name has two kinds.
-/

set_option autoImplicit false

namespace DocDrift

/-! ### First declarations in a part of a list -/

section Part

variable {α : Type} {key : α → String}

/-- What is kept of a list when some items are kept already. -/
theorem foldl_firstByKey (items kept : List α) :
    items.foldl (fun kept item =>
        if kept.any (fun other => key other == key item) then kept else kept ++ [item]) kept =
      kept ++ (firstByKey key items).filter
        (fun item => !kept.any (fun other => key other == key item)) := by
  induction items generalizing kept with
  | nil => exact (List.append_nil kept).symm
  | cons item rest ih =>
      have whole : firstByKey key (item :: rest) = item :: (firstByKey key rest).filter
          (fun later => !List.any [item] (fun other => key other == key later)) := ih [item]
      rw [List.foldl_cons, ih, whole, List.filter_cons, List.filter_filter]
      by_cases present : kept.any (fun other => key other == key item) = true
      · rw [if_pos present, present, Bool.not_true, if_neg Bool.false_ne_true]
        congr 1
        apply List.filter_congr
        intro later _mem
        simp only [List.any_eq_true, beq_iff_eq] at present
        obtain ⟨other, mem, same⟩ := present
        grind
      · rw [if_neg present, Bool.eq_false_iff.mpr present, Bool.not_false, if_pos rfl,
          List.append_assoc, List.singleton_append]
        congr 2
        apply List.filter_congr
        intro later _mem
        grind

theorem firstByKey_cons (item : α) (rest : List α) :
    firstByKey key (item :: rest) =
      item :: (firstByKey key rest).filter (fun later => !(key item == key later)) := by
  have folded : firstByKey key (item :: rest) = _ := foldl_firstByKey rest [item]
  simp only [List.any_cons, List.any_nil, Bool.or_false] at folded
  exact folded

theorem firstByKey_sublist (items : List α) : (firstByKey key items).Sublist items := by
  induction items with
  | nil => exact List.Sublist.slnil
  | cons item rest ih =>
      rw [firstByKey_cons]
      exact (List.filter_sublist.trans ih).cons_cons item

/-- The items that comparing by key finds in the new list only. -/
def onlyNew (key : α → String) (old new : List α) : List α :=
  (firstByKey key new).filter fun item =>
    !(firstByKey key old).any (fun other => key other == key item)

theorem mem_onlyNew {old new : List α} {item : α} : item ∈ onlyNew key old new ↔
    firstWith key new (key item) = some item ∧ ∀ other ∈ old, key other ≠ key item := by
  rw [onlyNew, List.mem_filter, mem_firstByKey, Bool.not_eq_true', ← Bool.not_eq_true,
    any_firstByKey, not_not, firstWith_none]

theorem onlyNew_nodup (old new : List α) : ((onlyNew key old new).map key).Nodup :=
  (firstByKey_nodup new).sublist (List.filter_sublist.map key)

variable (key) {keep : α → Bool} {items : List α}
  (alike : ∀ item ∈ items, ∀ other ∈ items, key item = key other → keep item = keep other)

include alike

theorem firstByKey_filter :
    firstByKey key (items.filter keep) = (firstByKey key items).filter keep := by
  induction items with
  | nil => rfl
  | cons item rest ih =>
      have later := ih fun first mem second mem' =>
        alike first (List.mem_cons_of_mem _ mem) second (List.mem_cons_of_mem _ mem')
      rw [firstByKey_cons, List.filter_cons, List.filter_cons, List.filter_filter]
      by_cases kept : keep item = true
      · rw [if_pos kept, if_pos kept, firstByKey_cons, later, List.filter_filter]
        congr 1
        exact List.filter_congr fun other _mem => Bool.and_comm _ _
      · -- what has the key of an item that is left out is left out, too
        rw [if_neg kept, if_neg kept, later]
        apply List.filter_congr
        intro other mem
        have inRest := (firstByKey_sublist rest).subset mem
        by_cases same : key item = key other
        · have unkept := alike item List.mem_cons_self other (List.mem_cons_of_mem _ inRest) same
          rw [← unkept, Bool.eq_false_iff.mpr kept, Bool.false_and]
        · rw [beq_false_of_ne same, Bool.not_false, Bool.and_true]

theorem firstWith_filter (wanted : String) :
    firstWith key (items.filter keep) wanted = (firstWith key items wanted).filter keep := by
  induction items with
  | nil => rfl
  | cons item rest ih =>
      have later := ih fun first mem second mem' =>
        alike first (List.mem_cons_of_mem _ mem) second (List.mem_cons_of_mem _ mem')
      rw [List.filter_cons, firstWith_cons]
      by_cases kept : keep item = true
      · rw [if_pos kept, firstWith_cons, later]
        by_cases same : key item = wanted
        · rw [if_pos same, if_pos same, Option.filter_some_pos kept]
        · rw [if_neg same, if_neg same]
      · rw [if_neg kept, later]
        by_cases same : key item = wanted
        · have unkept : keep item = false := Bool.eq_false_iff.mpr kept
          rw [if_pos same, Option.filter_some_neg unkept]
          cases found : firstWith key rest wanted with
          | none => rfl
          | some other =>
              obtain ⟨mem, sameKey⟩ := firstWith_some found
              have alikeOther := alike item List.mem_cons_self other (List.mem_cons_of_mem _ mem)
                (same.trans sameKey.symm)
              exact Option.filter_some_neg (alikeOther.symm.trans unkept)
        · rw [if_neg same]

end Part

/-! ### Interfaces among types -/

namespace TypeDeclaration

def isInterface (declared : TypeDeclaration) : Bool :=
  declared.kind == .ofInterface

/-- The declarations that are new in a list: of every name and kind that the old list has not, the
first, in the order of the list. -/
structure NewIn (old new came : List TypeDeclaration) : Prop where
  ordered : came.Sublist new
  distinct : (came.map identity).Nodup
  firsts : ∀ declared, declared ∈ came ↔
    firstWith identity new declared.identity = some declared ∧
      ∀ other ∈ old, other.identity ≠ declared.identity

theorem differ_kind {old new : TypeDeclaration} {change : TypeDelta}
    (differs : differ old new = some change) : change.kind = new.kind := by
  rw [differ, Option.ite_none_right_eq_some] at differs
  cases differs.2
  rfl

end TypeDeclaration

section Types

variable {old new : List TypeDeclaration} (unmarked : Unmarked (old ++ new))

include unmarked

theorem onlyNew_newIn :
    TypeDeclaration.NewIn old new (onlyNew TypeDeclaration.key old new) := by
  have alike := alike_keys unmarked
  have among : (onlyNew TypeDeclaration.key old new).Sublist new :=
    List.filter_sublist.trans (firstByKey_sublist new)
  have behind (declared : TypeDeclaration) (mem : declared ∈ new) : declared ∈ old ++ new :=
    List.mem_append_right old mem
  refine ⟨among, ?_, ?_⟩
  · have keys : ((onlyNew TypeDeclaration.key old new).map TypeDeclaration.key).Nodup :=
      onlyNew_nodup old new
    rw [List.Nodup, List.pairwise_map] at keys ⊢
    apply keys.imp_of_mem
    intro declared other mem memOther different same
    have first := behind _ (among.subset mem)
    have second := behind _ (among.subset memOther)
    exact different ((alike other second declared first).mpr same)
  · intro declared
    rw [mem_onlyNew]
    have inNew (mem : declared ∈ new) : firstWith TypeDeclaration.key new declared.key =
        firstWith TypeDeclaration.identity new declared.identity :=
      firstWith_congr fun other memOther => alike declared (behind _ mem) other (behind _ memOther)
    have inOld (mem : declared ∈ new) : (∀ other ∈ old, other.key ≠ declared.key) ↔
        ∀ other ∈ old, other.identity ≠ declared.identity := by
      apply forall₂_congr
      intro other memOther
      exact not_congr (alike declared (behind _ mem) other (List.mem_append_left new memOther))
    constructor
    · intro ⟨first, absent⟩
      have mem := (firstWith_some first).1
      exact ⟨inNew mem ▸ first, (inOld mem).mp absent⟩
    · intro ⟨first, absent⟩
      have mem := (firstWith_some first).1
      exact ⟨(inNew mem).trans first, (inOld mem).mpr absent⟩

theorem isInterface_of_key : ∀ declared ∈ old ++ new, ∀ other ∈ old ++ new,
    declared.key = other.key → declared.isInterface = other.isInterface := by
  intro declared mem other mem' same
  have kinds := congrArg Prod.snd ((alike_keys unmarked other mem' declared mem).mp same)
  exact congrArg (fun kind : TypeKind => kind == .ofInterface) kinds

theorem onlyNew_interfaces :
    onlyNew TypeDeclaration.key (old.filter TypeDeclaration.isInterface)
        (new.filter TypeDeclaration.isInterface) =
      (onlyNew TypeDeclaration.key old new).filter TypeDeclaration.isInterface := by
  have alike := isInterface_of_key unmarked
  have inOld := firstWith_filter TypeDeclaration.key fun declared mem other mem' =>
    alike declared (List.mem_append_left new mem) other (List.mem_append_left new mem')
  have inNew := firstByKey_filter TypeDeclaration.key fun declared mem other mem' =>
    alike declared (List.mem_append_right old mem) other (List.mem_append_right old mem')
  rw [onlyNew, onlyNew, inNew, List.filter_filter, List.filter_filter]
  apply List.filter_congr
  intro declared mem
  have memNew := List.mem_append_right old ((firstByKey_sublist new).subset mem)
  by_cases isInterface : declared.isInterface = true
  · rw [isInterface, Bool.and_true, Bool.true_and, Bool.eq_iff_iff, Bool.not_eq_true',
      Bool.not_eq_true', ← Bool.not_eq_true, ← Bool.not_eq_true, not_iff_not, any_firstByKey,
      any_firstByKey, inOld]
    cases found : firstWith TypeDeclaration.key old declared.key with
    | none => rfl
    | some other =>
        -- whatever has the key of an interface is one
        obtain ⟨memOld, same⟩ := firstWith_some found
        have alikeOther := alike other (List.mem_append_left new memOld) declared memNew same
        rw [Option.filter_some_pos (alikeOther.trans isInterface)]
  · rw [Bool.eq_false_iff.mpr isInterface, Bool.and_false, Bool.false_and]

theorem names_onlyNew :
    (onlyNew TypeDeclaration.key old new).map (fun declared => nameOfKey declared.key) =
      (onlyNew TypeDeclaration.key old new).map TypeDeclaration.name := by
  apply List.map_congr_left
  intro declared mem
  have memNew := (onlyNew_newIn unmarked).ordered.subset mem
  exact nameOfKey_key (unmarked declared (List.mem_append_right old memNew))

/-- Where names tell the types that changed apart, the interfaces among them are those that are found
to have changed by themselves. -/
theorem modified_interfaces (oneKind : OneKind old ∨ OneKind new) :
    (ChangeSet.between TypeDeclaration.key TypeDeclaration.differ
      (old.filter TypeDeclaration.isInterface)
      (new.filter TypeDeclaration.isInterface)).modified =
    (ChangeSet.between TypeDeclaration.key TypeDeclaration.differ old new).modified.filter
      (fun entry => entry.2.kind == .ofInterface) := by
  have alike := isInterface_of_key unmarked
  have unmarkedOld : Unmarked old := fun declared mem =>
    unmarked declared (List.mem_append_left new mem)
  have unmarkedNew : Unmarked new := fun declared mem =>
    unmarked declared (List.mem_append_right old mem)
  have apart : NamesApart TypeDeclaration.key old new := by
    rcases oneKind with oneKind | oneKind
    · exact oneKind.namesApart unmarkedOld new
    · exact (oneKind.namesApart unmarkedNew old).symm
  have apart' : NamesApart TypeDeclaration.key (old.filter TypeDeclaration.isInterface)
      (new.filter TypeDeclaration.isInterface) := by
    intro item mem other memOther item' mem' other' memOther'
    exact apart item (List.mem_of_mem_filter mem) other (List.mem_of_mem_filter memOther) item'
      (List.mem_of_mem_filter mem') other' (List.mem_of_mem_filter memOther')
  have inOld := firstWith_filter TypeDeclaration.key fun declared mem other mem' =>
    alike declared (List.mem_append_left new mem) other (List.mem_append_left new mem')
  have inNew := firstWith_filter TypeDeclaration.key fun declared mem other mem' =>
    alike declared (List.mem_append_right old mem) other (List.mem_append_right old mem')
  apply ChangeSet.between_ascending.ext
  · exact ChangeSet.between_ascending.filter _
  · intro entry
    rw [mem_modified_of_apart apart', List.mem_filter, mem_modified_of_apart apart, beq_iff_eq]
    constructor
    · intro ⟨wanted, item, other, here, there, differs, named⟩
      rw [inOld, Option.filter_eq_some_iff] at here
      rw [inNew, Option.filter_eq_some_iff] at there
      refine ⟨⟨wanted, item, other, here.1, there.1, differs, named⟩, ?_⟩
      exact (TypeDeclaration.differ_kind differs).trans (beq_iff_eq.mp there.2)
    · intro ⟨⟨wanted, item, other, here, there, differs, named⟩, kind⟩
      have isInterface : other.isInterface = true :=
        beq_iff_eq.mpr ((TypeDeclaration.differ_kind differs).symm.trans kind)
      obtain ⟨mem, same⟩ := firstWith_some here
      obtain ⟨mem', same'⟩ := firstWith_some there
      have alikeOther := alike item (List.mem_append_left new mem) other
        (List.mem_append_right old mem') (same.trans same'.symm)
      refine ⟨wanted, item, other, ?_, ?_, differs, named⟩
      · rw [inOld, here, Option.filter_some_pos (alikeOther.trans isInterface)]
      · rw [inNew, there, Option.filter_some_pos isInterface]

end Types

/-! ### The two change sets -/

namespace Delta

/-- The names of interfaces that came or went are, in the same order, those of the types that came or
went as interfaces. If on one side at least no name of a type is declared under two kinds, the
interfaces that changed are the types that changed and are interfaces. -/
theorem interfaces_among_types {old new : Summary} (unmarked : Unmarked (old.types ++ new.types)) :
    (∃ came, TypeDeclaration.NewIn old.types new.types came ∧
      (between old new).types.added = came.map TypeDeclaration.name ∧
      (between old new).interfaces.added =
        (came.filter TypeDeclaration.isInterface).map TypeDeclaration.name) ∧
    (∃ went, TypeDeclaration.NewIn new.types old.types went ∧
      (between old new).types.removed = went.map TypeDeclaration.name ∧
      (between old new).interfaces.removed =
        (went.filter TypeDeclaration.isInterface).map TypeDeclaration.name) ∧
    (OneKind old.types ∨ OneKind new.types →
      (between old new).interfaces.modified =
        (between old new).types.modified.filter (fun entry => entry.2.kind == .ofInterface)) := by
  have back : Unmarked (new.types ++ old.types) := fun declared mem =>
    unmarked declared (List.mem_append.mpr (List.mem_append.mp mem).symm)
  have names := names_onlyNew unmarked.interfaces
  have namesBack := names_onlyNew (Unmarked.interfaces back)
  refine ⟨⟨onlyNew _ old.types new.types, onlyNew_newIn unmarked, names_onlyNew unmarked, ?_⟩,
    ⟨onlyNew _ new.types old.types, onlyNew_newIn back, names_onlyNew back, ?_⟩,
    modified_interfaces unmarked⟩
  · rw [← onlyNew_interfaces unmarked]
    exact names
  · rw [← onlyNew_interfaces back]
    exact namesBack

/-- A class, an interface that is declared twice, and a trait. -/
def stable : Summary :=
  { Summary.empty with
    types := [marketType .ofClass "Box" none [] [], marketType .ofClass "Rack" none [] [],
      marketType .ofInterface "Lid" none [] [marketMember "lift" "()"],
      marketType .ofInterface "Lid" none [] [], marketType .ofTrait "Tape" none [] []] }

/-- The class is an interface now, the trait is gone, and there are a new class and a new interface. -/
def stableMoved : Summary :=
  { Summary.empty with
    types := [marketType .ofInterface "Hinge" none [] [],
      marketType .ofInterface "Lid" none [] [marketMember "lift" "($angle)"],
      marketType .ofClass "Shelf" none [] [], marketType .ofClass "Rack" (some "Shelf") [] [],
      marketType .ofInterface "Box" none [] [], marketType .ofInterface "Hinge" none [] []] }

/-- A class that becomes an interface goes as a class and comes as an interface, and of the two types
that changed one is an interface. -/
theorem interfaces_among_types_of_box :
    Unmarked (stable.types ++ stableMoved.types) ∧ OneKind stable.types ∧
    (∃ came, TypeDeclaration.NewIn stable.types stableMoved.types came ∧
      ["Hinge", "Shelf", "Box"] = came.map TypeDeclaration.name ∧
      ["Hinge", "Box"] = (came.filter TypeDeclaration.isInterface).map TypeDeclaration.name) ∧
    (between stable stableMoved).types.removed = ["Box", "Tape"] ∧
    (between stable stableMoved).interfaces.removed = [] ∧
    (between stable stableMoved).types.modified.names = ["Lid", "Rack"] ∧
    (between stable stableMoved).interfaces.modified =
      (between stable stableMoved).types.modified.filter
        (fun entry => entry.2.kind == .ofInterface) := by
  have unmarked : Unmarked (stable.types ++ stableMoved.types) := by decide
  have oneKind : OneKind stable.types := by decide
  have types : (between stable stableMoved).types.added = ["Hinge", "Shelf", "Box"] := by
    decide +kernel
  have interfaces : (between stable stableMoved).interfaces.added = ["Hinge", "Box"] := by
    decide +kernel
  obtain ⟨came, _went, modified⟩ := interfaces_among_types unmarked
  rw [types, interfaces] at came
  exact ⟨unmarked, oneKind, came, by decide +kernel, by decide +kernel, by decide +kernel,
    modified (.inl oneKind)⟩

/-- If both sides have a name under two kinds, the change of the class hides that of the interface
among the types, but not among the interfaces. -/
example :
    let old : Summary := { Summary.empty with
      types := [marketType .ofInterface "Box" none [] [], marketType .ofClass "Box" none [] []] }
    let new : Summary := { Summary.empty with
      types := [marketType .ofInterface "Box" none [] [marketMember "lift" "()"],
        marketType .ofClass "Box" (some "Rack") [] []] }
    (between old new).interfaces.modified.names = ["Box"] ∧
      (between old new).types.modified.filter (fun entry => entry.2.kind == .ofInterface) = [] := by
  decide +kernel

end Delta

end DocDrift
