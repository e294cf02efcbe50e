import DocDrift.Proofs.Change.Agreement
import DocDrift.Proofs.Change.Severity
import DocDrift.Proofs.Names
import DocDrift.Proofs.Tables
import DocDrift.Source.Program

/-!
What the severity of a comparison says about the two summaries. Types are matched by name and kind,
but their changes are kept by name alone: of several types of one name, each of another kind, the
one that comes last among those that changed hides the others. So a type that moves in the
hierarchy makes a change major only if no type of its name behind it changed as well.
-/

set_option autoImplicit false

namespace DocDrift

/-! ### What a change is -/

section Sides

variable {α κ : Type} [DecidableEq κ]

/-- Something with this key is on one side only. -/
def OneSided (key : α → κ) (old new : List α) : Prop :=
  (∃ item ∈ old, ∀ other ∈ new, key other ≠ key item) ∨
    ∃ item ∈ new, ∀ other ∈ old, key other ≠ key item

/-- Under some key both sides have something, and the first of each side are related. -/
def Paired (key : α → κ) (related : α → α → Prop) (old new : List α) : Prop :=
  ∃ wanted item other, firstWith key old wanted = some item ∧
    firstWith key new wanted = some other ∧ related item other

end Sides

namespace TypeDeclaration

/-- The parent or the set of interfaces is another one. -/
def Moves (old new : TypeDeclaration) : Prop :=
  old.parent ≠ new.parent ∨ ¬∀ name, name ∈ old.interfaces ↔ name ∈ new.interfaces

/-- The modifiers or the members are other ones. -/
def Reshapes (old new : TypeDeclaration) : Prop :=
  old.modifiers ≠ new.modifiers ∨
    ¬SameFirst Member.name Member.Agrees old.methods new.methods ∨
    ¬SameFirst Member.name Member.Agrees old.properties new.properties

/-- Some type moves, and no type of its name that comes after it changes. -/
def MovesLast (old new : List TypeDeclaration) : Prop :=
  ∃ before item after other, firstByKey key old = before ++ item :: after ∧
    firstWith identity new item.identity = some other ∧ item.Moves other ∧
    ∀ last ∈ after, last.name = item.name →
      ∀ other, firstWith identity new last.identity = some other → last.Agrees other

end TypeDeclaration

namespace Summary

/-- The namespace changes, a declaration comes or goes, or a type moves. -/
def Breaks (old new : Summary) : Prop :=
  old.space ≠ new.space ∨ OneSided TypeDeclaration.identity old.types new.types ∨
    OneSided Member.name old.functions new.functions ∨
    Paired TypeDeclaration.identity TypeDeclaration.Moves old.types new.types

/-- A declaration that stays changes. -/
def Alters (old new : Summary) : Prop :=
  Paired TypeDeclaration.identity TypeDeclaration.Reshapes old.types new.types ∨
    Paired Member.name (fun item other => ¬item.Agrees other) old.functions new.functions

/-- A break that the change between the summaries shows. -/
def ShowsBreak (old new : Summary) : Prop :=
  old.space ≠ new.space ∨ OneSided TypeDeclaration.identity old.types new.types ∨
    OneSided Member.name old.functions new.functions ∨
    TypeDeclaration.MovesLast old.types new.types

/-- Some declaration that stays changes or moves. -/
def Stirs (old new : Summary) : Prop :=
  Paired TypeDeclaration.identity TypeDeclaration.Moves old.types new.types ∨ old.Alters new

/-- The severity of the change between two summaries says how far it reaches. -/
structure SeverityTells (old new : Summary) : Prop where
  major : (Delta.between old new).severity = .major ↔ old.Breaks new
  minor : (Delta.between old new).severity = .minor ↔ ¬old.Breaks new ∧ old.Alters new
  minimal : (Delta.between old new).severity = .minimal ↔ ¬old.Breaks new ∧ ¬old.Alters new

end Summary

/-! ### What comparing finds -/

section Between

variable {α μ : Type} {key : α → String} {differ : α → α → Option μ} {old new : List α}

theorem exists_firstByKey {P : String → Prop} {items : List α} :
    (∃ item ∈ firstByKey key items, P (key item)) ↔ ∃ item ∈ items, P (key item) := by
  constructor
  · rintro ⟨item, kept, holds⟩
    exact ⟨item, (firstWith_some (mem_firstByKey.mp kept)).1, holds⟩
  · rintro ⟨item, mem, holds⟩
    have present : firstWith key items (key item) ≠ none :=
      fun absent => firstWith_none.mp absent item mem rfl
    obtain ⟨first, found⟩ := Option.ne_none_iff_exists'.mp present
    have same := (firstWith_some found).2
    rw [← same] at found holds
    exact ⟨first, mem_firstByKey.mpr found, holds⟩

theorem length_lacking {source items : List α} {name : α → String} :
    0 < (((firstByKey key items).filter (fun item =>
      !(firstByKey key source).any (fun other => key other == key item))).map name).length ↔
      ∃ item ∈ items, ∀ other ∈ source, key other ≠ key item := by
  rw [List.length_pos_iff, Ne, ← List.isEmpty_iff, isEmpty_lacking]
  simp only [not_forall, not_not, firstWith_none]
  simp only [exists_prop]
  exact exists_firstByKey (P := fun wanted => ∀ other ∈ source, key other ≠ wanted)

theorem churn_between : 0 < (ChangeSet.between key differ old new).churn ↔
    OneSided key old new := by
  rw [ChangeSet.churn, Nat.add_pos_iff_pos_or_pos, or_comm]
  exact or_congr length_lacking length_lacking

theorem filterMap_last {β : Type} {find : α → Option β} {items : List α} {found : β}
    {holds : β → Prop} :
    (∃ before after, items.filterMap find = before ++ found :: after ∧ ∀ other ∈ after, holds other) ↔
      ∃ before item after, items = before ++ item :: after ∧ find item = some found ∧
        ∀ last ∈ after, ∀ other, find last = some other → holds other := by
  constructor
  · rintro ⟨before, after, split, later⟩
    obtain ⟨start, rest, rfl, rfl, behindStart⟩ := List.filterMap_eq_append_iff.mp split
    obtain ⟨none, item, behind, rfl, _nothing, here, rfl⟩ :=
      List.filterMap_eq_cons_iff.mp behindStart
    refine ⟨start ++ none, item, behind, (List.append_assoc ..).symm, here, ?_⟩
    intro last mem other there
    exact later other (List.mem_filterMap.mpr ⟨last, mem, there⟩)
  · rintro ⟨before, item, after, rfl, here, later⟩
    refine ⟨before.filterMap find, after.filterMap find, ?_, ?_⟩
    · rw [List.filterMap_append, List.filterMap_cons_some here]
    · intro other mem
      obtain ⟨last, held, there⟩ := List.mem_filterMap.mp mem
      exact later last held other there

/-- The change of an item is kept if no item of its name that comes after it changes. -/
theorem mem_modified {entry : String × μ} :
    entry ∈ (ChangeSet.between key differ old new).modified ↔
      ∃ before item after, firstByKey key old = before ++ item :: after ∧
        (∃ other, firstWith key new (key item) = some other ∧ differ item other = some entry.2 ∧
          nameOfKey (key item) = entry.1) ∧
        ∀ last ∈ after, ∀ other, firstWith key new (key last) = some other →
          nameOfKey (key last) = entry.1 → differ last other = none := by
  have find_some : ∀ (item : α) (found : String × μ),
      (do
        let other ← (firstByKey key new).find? (fun other => key other == key item)
        let change ← differ item other
        return (nameOfKey (key item), change)) = some found ↔
      ∃ other, firstWith key new (key item) = some other ∧ differ item other = some found.2 ∧
        nameOfKey (key item) = found.1 := by
    intro item found
    rw [find?_firstByKey]
    simp only [bind, pure, Option.bind_eq_some_iff, Option.some.injEq, Prod.ext_iff]
    constructor
    · rintro ⟨other, there, change, differs, name, rfl⟩
      exact ⟨other, there, differs, name⟩
    · rintro ⟨other, there, differs, name⟩
      exact ⟨other, there, found.2, differs, name, rfl⟩
  unfold ChangeSet.between
  dsimp only
  rw [NameMap.mem_ofList, filterMap_last]
  simp only [find_some]
  constructor
  · rintro ⟨before, item, after, split, here, later⟩
    refine ⟨before, item, after, split, here, ?_⟩
    intro last mem other there name
    cases differs : differ last other with
    | none => rfl
    | some change =>
        exact absurd name (later last mem (nameOfKey (key last), change) ⟨other, there, differs, rfl⟩)
  · rintro ⟨before, item, after, split, here, later⟩
    refine ⟨before, item, after, split, here, ?_⟩
    rintro last mem found ⟨other, there, differs, named⟩ name
    have unchanged := later last mem other there (named.trans name)
    rw [unchanged] at differs
    cases differs

theorem modified_between : (ChangeSet.between key differ old new).modified ≠ [] ↔
    Paired key (fun item other => differ item other ≠ none) old new := by
  have unchanged : (ChangeSet.between key differ old new).modified.isEmpty = true ↔
      ∀ item ∈ firstByKey key old, ∀ other, firstWith key new (key item) = some other →
        differ item other = none := isEmpty_modified
  rw [Ne, ← List.isEmpty_iff, unchanged]
  constructor
  · intro changed
    simp only [not_forall] at changed
    obtain ⟨item, kept, other, there, differs⟩ := changed
    exact ⟨key item, item, other, mem_firstByKey.mp kept, there, differs⟩
  · rintro ⟨wanted, item, other, here, there, differs⟩ same
    obtain ⟨_mem, rfl⟩ := firstWith_some here
    exact differs (same item (mem_firstByKey.mpr here) other there)

end Between

section Keys

variable {α κ κ' : Type} {key : α → κ} {key' : α → κ'} {old new : List α}
  (alike : ∀ item ∈ old ++ new, ∀ other ∈ old ++ new,
    key other = key item ↔ key' other = key' item)

include alike

theorem OneSided.of_key (oneSided : OneSided key old new) : OneSided key' old new := by
  rcases oneSided with ⟨item, mem, alone⟩ | ⟨item, mem, alone⟩
  · refine .inl ⟨item, mem, fun other memOther same => alone other memOther ?_⟩
    exact (alike item (List.mem_append_left _ mem) other (List.mem_append_right _ memOther)).mpr same
  · refine .inr ⟨item, mem, fun other memOther same => alone other memOther ?_⟩
    exact (alike item (List.mem_append_right _ mem) other (List.mem_append_left _ memOther)).mpr same

variable [DecidableEq κ] [DecidableEq κ']

theorem Paired.of_key {related : α → α → Prop} (paired : Paired key related old new) :
    Paired key' related old new := by
  obtain ⟨wanted, item, other, here, there, related⟩ := paired
  obtain ⟨mem, rfl⟩ := firstWith_some here
  have inOld := firstWith_congr fun other memOld =>
    alike item (List.mem_append_left _ mem) other (List.mem_append_left _ memOld)
  have inNew := firstWith_congr fun other memNew =>
    alike item (List.mem_append_left _ mem) other (List.mem_append_right _ memNew)
  exact ⟨key' item, item, other, inOld ▸ here, inNew ▸ there, related⟩

end Keys

theorem paired_or {α κ : Type} [DecidableEq κ] {key : α → κ} {left right : α → α → Prop}
    {old new : List α} : Paired key (fun item other => left item other ∨ right item other) old new ↔
      Paired key left old new ∨ Paired key right old new := by
  constructor
  · rintro ⟨wanted, item, other, here, there, related | related⟩
    · exact .inl ⟨wanted, item, other, here, there, related⟩
    · exact .inr ⟨wanted, item, other, here, there, related⟩
  · rintro (⟨wanted, item, other, here, there, related⟩ | ⟨wanted, item, other, here, there, related⟩)
    · exact ⟨wanted, item, other, here, there, .inl related⟩
    · exact ⟨wanted, item, other, here, there, .inr related⟩

/-! ### What comparing types finds -/

theorem TypeDeclaration.differ_eq_some {old new : TypeDeclaration} {change : TypeDelta}
    (differs : TypeDeclaration.differ old new = some change) :
    change.changesHierarchy = true ↔ old.Moves new := by
  rw [TypeDeclaration.differ, Option.ite_none_right_eq_some] at differs
  cases differs.2
  rw [TypeDelta.changesHierarchy, Bool.or_eq_true, ← Bool.not_eq_false, between?_isSome,
    ← Bool.not_eq_false, listChange_hasChanges]
  rfl

theorem TypeDeclaration.agrees_iff {old new : TypeDeclaration} :
    old.Agrees new ↔ ¬old.Moves new ∧ ¬old.Reshapes new := by
  simp only [Moves, Reshapes, not_or, not_not]
  constructor
  · intro same
    exact ⟨⟨same.parent, same.interfaces⟩, same.modifiers, same.methods, same.properties⟩
  · rintro ⟨⟨parent, interfaces⟩, modifiers, methods, properties⟩
    exact ⟨parent, interfaces, modifiers, methods, properties⟩

section Types

variable {old new : List TypeDeclaration} (unmarked : Unmarked (old ++ new))

include unmarked

theorem alike_keys : ∀ item ∈ old ++ new, ∀ other ∈ old ++ new,
    other.key = item.key ↔ other.identity = item.identity :=
  fun item mem other memOther => key_inj (unmarked other memOther) (unmarked item mem)

theorem types_churn :
    0 < (ChangeSet.between TypeDeclaration.key TypeDeclaration.differ old new).churn ↔
      OneSided TypeDeclaration.identity old new := by
  have alike := alike_keys unmarked
  rw [churn_between]
  exact ⟨.of_key alike, .of_key fun item mem other memOther => (alike item mem other memOther).symm⟩

theorem types_modified :
    (ChangeSet.between TypeDeclaration.key TypeDeclaration.differ old new).modified ≠ [] ↔
      Paired TypeDeclaration.identity (fun item other => ¬item.Agrees other) old new := by
  have alike := alike_keys unmarked
  simp only [modified_between, Ne, TypeDeclaration.differ_eq_none]
  exact ⟨.of_key alike, .of_key fun item mem other memOther => (alike item mem other memOther).symm⟩

/-- The move of a type is seen just if it comes last among the types of its name that change. -/
theorem types_move :
    (∃ type ∈ (ChangeSet.between TypeDeclaration.key TypeDeclaration.differ old new).modified.values,
      type.changesHierarchy = true) ↔ TypeDeclaration.MovesLast old new := by
  -- Without marks in the names, the name of a key is that of the type, and equal keys are equal
  -- identities.
  have name : ∀ item ∈ firstByKey TypeDeclaration.key old, nameOfKey item.key = item.name := by
    intro item kept
    exact nameOfKey_key (unmarked item (List.mem_append_left _
      (firstWith_some (mem_firstByKey.mp kept)).1))
  have inNew : ∀ item ∈ firstByKey TypeDeclaration.key old,
      firstWith TypeDeclaration.key new item.key =
        firstWith TypeDeclaration.identity new item.identity := by
    intro item kept
    have mem := (firstWith_some (mem_firstByKey.mp kept)).1
    exact firstWith_congr fun other memNew =>
      alike_keys unmarked item (List.mem_append_left _ mem) other (List.mem_append_right _ memNew)
  constructor
  · rintro ⟨type, mem, moved⟩
    obtain ⟨entry, held, rfl⟩ := List.mem_map.mp mem
    obtain ⟨before, item, after, split, ⟨other, there, differs, named⟩, last⟩ := mem_modified.mp held
    have kept : item ∈ firstByKey TypeDeclaration.key old := by simp [split]
    refine ⟨before, item, after, other, split, ?_, ?_, ?_⟩
    · rw [← inNew item kept]
      exact there
    · exact (TypeDeclaration.differ_eq_some differs).mp moved
    · intro later memAfter same counterpart found
      have keptLater : later ∈ firstByKey TypeDeclaration.key old := by simp [split, memAfter]
      rw [← inNew later keptLater] at found
      apply TypeDeclaration.differ_eq_none.mp
      apply last later memAfter counterpart found
      rw [name later keptLater, same, ← name item kept, named]
  · rintro ⟨before, item, after, other, split, there, moves, last⟩
    have kept : item ∈ firstByKey TypeDeclaration.key old := by simp [split]
    cases differs : TypeDeclaration.differ item other with
    | none =>
        exact absurd moves (TypeDeclaration.agrees_iff.mp (TypeDeclaration.differ_eq_none.mp differs)).1
    | some change =>
        refine ⟨change, List.mem_map.mpr ⟨(item.name, change), mem_modified.mpr ?_, rfl⟩,
          (TypeDeclaration.differ_eq_some differs).mpr moves⟩
        refine ⟨before, item, after, split, ⟨other, ?_, differs, name item kept⟩, ?_⟩
        · rw [inNew item kept]
          exact there
        · intro later memAfter counterpart found same
          have keptLater : later ∈ firstByKey TypeDeclaration.key old := by simp [split, memAfter]
          rw [inNew later keptLater] at found
          rw [name later keptLater] at same
          exact TypeDeclaration.differ_eq_none.mpr (last later memAfter same counterpart found)

theorem TypeDeclaration.MovesLast.paired (moves : TypeDeclaration.MovesLast old new) :
    Paired TypeDeclaration.identity TypeDeclaration.Moves old new := by
  obtain ⟨before, item, after, other, split, there, moves, _last⟩ := moves
  have kept : item ∈ firstByKey TypeDeclaration.key old := by simp [split]
  have here := mem_firstByKey.mp kept
  have mem := List.mem_append_left new (firstWith_some here).1
  have inOld := firstWith_congr fun other memOld =>
    alike_keys unmarked item mem other (List.mem_append_left _ memOld)
  exact ⟨item.identity, item, other, inOld ▸ here, there, moves⟩

end Types

/-! ### Severity -/

section Severity

variable {old new : Summary} (unmarked : Unmarked (old.types ++ new.types))

theorem oneSided_interfaces
    (oneSided : OneSided TypeDeclaration.identity old.interfaces new.interfaces) :
    OneSided TypeDeclaration.identity old.types new.types := by
  have lift : ∀ {item : TypeDeclaration} {summary : Summary}, item.kind = .ofInterface →
      (∀ other ∈ summary.interfaces, other.identity ≠ item.identity) →
      ∀ other ∈ summary.types, other.identity ≠ item.identity := by
    intro item summary isInterface alone other mem same
    have kind : other.kind = .ofInterface := (congrArg Prod.snd same).trans isInterface
    exact alone other (List.mem_filter.mpr ⟨mem, beq_iff_eq.mpr kind⟩) same
  rcases oneSided with ⟨item, mem, alone⟩ | ⟨item, mem, alone⟩
  · obtain ⟨mem, isInterface⟩ := List.mem_filter.mp mem
    exact .inl ⟨item, mem, lift (beq_iff_eq.mp isInterface) alone⟩
  · obtain ⟨mem, isInterface⟩ := List.mem_filter.mp mem
    exact .inr ⟨item, mem, lift (beq_iff_eq.mp isInterface) alone⟩

include unmarked

theorem isMajor_between : (Delta.between old new).IsMajor ↔ old.ShowsBreak new := by
  rw [Delta.IsMajor, Delta.between]
  dsimp only
  rw [types_churn unmarked, types_churn unmarked.interfaces, types_move unmarked, churn_between,
    decide_eq_true_eq]
  constructor
  · rintro (space | types | interfaces | functions | moves)
    · exact .inl space
    · exact .inr (.inl types)
    · exact .inr (.inl (oneSided_interfaces interfaces))
    · exact .inr (.inr (.inl functions))
    · exact .inr (.inr (.inr moves))
  · rintro (space | types | functions | moves)
    · exact .inl space
    · exact .inr (.inl types)
    · exact .inr (.inr (.inr (.inl functions)))
    · exact .inr (.inr (.inr (.inr moves)))

theorem isMinor_between :
    ((Delta.between old new).types.modified ≠ [] ∨ (Delta.between old new).functions.modified ≠ []) ↔
      old.Stirs new := by
  have differs : (fun item other : TypeDeclaration => ¬item.Agrees other) =
      fun item other => item.Moves other ∨ item.Reshapes other := by
    funext item other
    rw [TypeDeclaration.agrees_iff, not_and_or, not_not, not_not]
  rw [Delta.between]
  dsimp only
  rw [types_modified unmarked, differs, paired_or, modified_between, Summary.Stirs, Summary.Alters,
    or_assoc]
  simp only [Ne, Member.differ_eq_none]

theorem Summary.ShowsBreak.breaks (shows : old.ShowsBreak new) : old.Breaks new := by
  rcases shows with space | types | functions | moves
  · exact .inl space
  · exact .inr (.inl types)
  · exact .inr (.inr (.inl functions))
  · exact .inr (.inr (.inr (moves.paired unmarked)))

/-- A comparison is major if it shows a break, minor if it shows none but a declaration that stays
changes or moves, and minimal otherwise. So its severity tells how far the change reaches just if a
type that moves is shown, or anything else that breaks. -/
theorem severity_between :
    ((Delta.between old new).severity = .major ↔ old.ShowsBreak new) ∧
    ((Delta.between old new).severity = .minor ↔ ¬old.ShowsBreak new ∧ old.Stirs new) ∧
    ((Delta.between old new).severity = .minimal ↔ ¬old.ShowsBreak new ∧ ¬old.Stirs new) ∧
    (old.SeverityTells new ↔
      (Paired TypeDeclaration.identity TypeDeclaration.Moves old.types new.types →
        old.ShowsBreak new)) := by
  have major : (Delta.between old new).severity = .major ↔ old.ShowsBreak new :=
    Delta.impliedSeverity_major.trans (isMajor_between unmarked)
  have minor : (Delta.between old new).severity = .minor ↔ ¬old.ShowsBreak new ∧ old.Stirs new := by
    rw [← isMajor_between unmarked, ← isMinor_between unmarked]
    exact Delta.impliedSeverity_minor
  have minimal :
      (Delta.between old new).severity = .minimal ↔ ¬old.ShowsBreak new ∧ ¬old.Stirs new := by
    rw [← isMajor_between unmarked, ← isMinor_between unmarked]
    exact Delta.impliedSeverity_minimal
  refine ⟨major, minor, minimal, ?_, ?_⟩
  · intro tells moves
    exact major.mp (tells.major.mpr (.inr (.inr (.inr moves))))
  · intro seen
    have breaks : old.ShowsBreak new ↔ old.Breaks new := by
      refine ⟨fun shows => shows.breaks unmarked, ?_⟩
      rintro (space | types | functions | moves)
      · exact .inl space
      · exact .inr (.inl types)
      · exact .inr (.inr (.inl functions))
      · exact seen moves
    have stirs (calm : ¬old.Breaks new) : old.Stirs new ↔ old.Alters new :=
      or_iff_right fun moves => calm (.inr (.inr (.inr moves)))
    refine ⟨?_, ?_, ?_⟩
    · rw [major, breaks]
    · rw [minor, breaks]
      exact and_congr_right stirs
    · rw [minimal, breaks]
      exact and_congr_right fun calm => not_congr (stirs calm)

end Severity

/-! ### A hidden type -/

def fooClass (parent : Option String) : TypeDeclaration :=
  ⟨.ofClass, "Foo", parent, [], ⟨false, false⟩, [], [], none⟩

def fooInterface (methods : List Member) : TypeDeclaration :=
  ⟨.ofInterface, "Foo", none, [], ⟨false, false⟩, methods, [], none⟩

def stillFoos : Summary :=
  ⟨none, [], [fooInterface [], fooClass none], []⟩

def movedFoos : Summary :=
  ⟨none, [], [fooInterface [⟨"a", .isPublic, "()", none⟩], fooClass (some "Base")], []⟩

/-- Behind an interface of its name a class shows that it moves. -/
theorem severity_of_class_last : stillFoos.SeverityTells movedFoos := by
  have unmarked : Unmarked (stillFoos.types ++ movedFoos.types) := by decide
  have shown : TypeDeclaration.MovesLast stillFoos.types movedFoos.types := by
    refine ⟨[fooInterface []], fooClass none, [], fooClass (some "Base"), ?_, rfl, .inl nofun, nofun⟩
    decide +kernel
  exact (severity_between unmarked).2.2.2.mpr fun _moves => .inr (.inr (.inr shown))

def oldFoos : String :=
  "<?php\nnamespace M \x7b class Foo \x7b\x7d \x7d\nnamespace C \x7b interface Foo \x7b\x7d \x7d\n"

def newFoos : String :=
  "<?php\nnamespace M \x7b class Foo extends B \x7b\x7d \x7d\n" ++
    "namespace C \x7b interface Foo \x7b function a(); \x7d \x7d\n"

/-- In front of an interface of its name a class is hidden, and its new parent does not count. -/
theorem hidden_class_moves :
    ∃ before after : Summary,
      Summary.ofSource oldFoos = .ok before ∧ Summary.ofSource newFoos = .ok after ∧
      Unmarked (before.types ++ after.types) ∧ ¬before.SeverityTells after := by
  refine ⟨⟨some "M", [], [fooClass none, fooInterface []], []⟩,
    ⟨some "M", [],
      [fooClass (some "B"), fooInterface [⟨"a", .isPublic, "()", none⟩]], []⟩, ?_, ?_, ?_, ?_⟩
  · exact ok_of_toOption (by decide +kernel)
  · exact ok_of_toOption (by decide +kernel)
  · decide
  · intro tells
    -- the severity is minor, though the class has a new parent
    have calm := (tells.minor.mp (by decide +kernel)).1
    exact calm (.inr (.inr (.inr ⟨("Foo", .ofClass), _, _, rfl, rfl, .inl nofun⟩)))

end DocDrift
