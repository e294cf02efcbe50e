import DocDrift.Proofs.Change.Agreement

/-!
Summaries between which nothing changed. They declare the same, and that is an equivalence: it holds
of a summary and itself, both ways, and from one summary over a second to a third. Documentation has
no part in it, nor has the order of declarations under different names, so neither makes or hides a
change. Of declarations under one name the first counts, so their order does matter.
-/

set_option autoImplicit false

namespace DocDrift

/-! ### Both ways, and over a third -/

section First

variable {α κ : Type} [DecidableEq κ] {key : α → κ} {same back : α → α → Prop}
  {old new next : List α}

theorem SameFirst.symm (both : ∀ item other, same item other → back other item)
    (agrees : SameFirst key same old new) : SameFirst key back new old := by
  intro wanted
  have related := agrees wanted
  generalize firstWith key old wanted = here at related ⊢
  generalize firstWith key new wanted = there at related ⊢
  cases related with
  | none => exact .none
  | some related => exact .some (both _ _ related)

theorem SameFirst.trans
    (through : ∀ item other third, same item other → same other third → same item third)
    (first : SameFirst key same old new) (second : SameFirst key same new next) :
    SameFirst key same old next := by
  intro wanted
  have related := first wanted
  have further := second wanted
  generalize firstWith key old wanted = here at related ⊢
  generalize firstWith key new wanted = there at related further
  generalize firstWith key next wanted = yonder at further ⊢
  cases related with
  | none =>
      cases further with
      | none => exact .none
  | some related =>
      cases further with
      | some further => exact .some (through _ _ _ related further)

end First

theorem Member.Agrees.symm {left right : Member} (same : left.Agrees right) : right.Agrees left :=
  ⟨same.1.symm, same.2.symm⟩

theorem Member.Agrees.trans {left middle right : Member} (first : left.Agrees middle)
    (second : middle.Agrees right) : left.Agrees right :=
  ⟨first.1.trans second.1, first.2.trans second.2⟩

theorem members_symm {left right : List Member}
    (same : SameFirst Member.name Member.Agrees left right) :
    SameFirst Member.name Member.Agrees right left :=
  same.symm fun _ _ => Member.Agrees.symm

theorem members_trans {left middle right : List Member}
    (first : SameFirst Member.name Member.Agrees left middle)
    (second : SameFirst Member.name Member.Agrees middle right) :
    SameFirst Member.name Member.Agrees left right :=
  first.trans (fun _ _ _ => Member.Agrees.trans) second

theorem TypeDeclaration.Agrees.symm {left right : TypeDeclaration} (same : left.Agrees right) :
    right.Agrees left where
  parent := same.parent.symm
  interfaces name := (same.interfaces name).symm
  modifiers := same.modifiers.symm
  methods := members_symm same.methods
  properties := members_symm same.properties

theorem TypeDeclaration.Agrees.trans {left middle right : TypeDeclaration}
    (first : left.Agrees middle) (second : middle.Agrees right) : left.Agrees right where
  parent := first.parent.trans second.parent
  interfaces name := (first.interfaces name).trans (second.interfaces name)
  modifiers := first.modifiers.trans second.modifiers
  methods := members_trans first.methods second.methods
  properties := members_trans first.properties second.properties

theorem Summary.Agrees.symm {left right : Summary} (same : left.Agrees right) :
    right.Agrees left where
  space := same.space.symm
  imports := same.imports.symm fun _ _ => Eq.symm
  types := same.types.symm fun _ _ => TypeDeclaration.Agrees.symm
  functions := members_symm same.functions

theorem Summary.Agrees.trans {left middle right : Summary} (first : left.Agrees middle)
    (second : middle.Agrees right) : left.Agrees right where
  space := first.space.trans second.space
  imports := first.imports.trans (fun _ _ _ => Eq.trans) second.imports
  types := first.types.trans (fun _ _ _ => TypeDeclaration.Agrees.trans) second.types
  functions := members_trans first.functions second.functions

/-! ### Another order and other documentation -/

/-- Lists that differ in the order of items with different keys, and otherwise item by item only in
what does not count. -/
inductive Reordered {α κ : Type} (key : α → κ) (like : α → α → Prop) : List α → List α → Prop
  | nil : Reordered key like [] []
  | cons {item other : α} {rest others : List α} (same : like item other)
      (reordered : Reordered key like rest others) :
      Reordered key like (item :: rest) (other :: others)
  | swap (first second : α) (rest : List α) (different : key first ≠ key second) :
      Reordered key like (first :: second :: rest) (second :: first :: rest)
  | trans {left middle right : List α} (first : Reordered key like left middle)
      (second : Reordered key like middle right) : Reordered key like left right

/-- Members that differ in their documentation at most. -/
structure Member.Redocumented (left right : Member) : Prop where
  name : left.name = right.name
  visibility : left.visibility = right.visibility
  signature : left.signature = right.signature

/-- Types that differ at most in documentation, in the order of their interfaces and in that of
members with different names. -/
structure TypeDeclaration.Rearranged (left right : TypeDeclaration) : Prop where
  identity : left.identity = right.identity
  parent : left.parent = right.parent
  interfaces : left.interfaces.Perm right.interfaces
  modifiers : left.modifiers = right.modifiers
  methods : Reordered Member.name Member.Redocumented left.methods right.methods
  properties : Reordered Member.name Member.Redocumented left.properties right.properties

/-- Summaries that differ at most in documentation and in the order of what has different names. -/
structure Summary.Rearranged (left right : Summary) : Prop where
  space : left.space = right.space
  imports : Reordered Import.name Eq left.imports right.imports
  types : Reordered TypeDeclaration.identity TypeDeclaration.Rearranged left.types right.types
  functions : Reordered Member.name Member.Redocumented left.functions right.functions

namespace Reordered

variable {α κ : Type} {key : α → κ} {like : α → α → Prop} {left right : List α}

/-- What holds of every item, whatever does not count, holds of every item in another order. -/
theorem forall_mem {holds : α → Prop}
    (keeps : ∀ item other, like item other → holds item → holds other)
    (reordered : Reordered key like left right) (every : ∀ item ∈ left, holds item) :
    ∀ item ∈ right, holds item := by
  induction reordered with
  | nil => exact every
  | cons same _ ih =>
      obtain ⟨first, later⟩ := List.forall_mem_cons.mp every
      exact List.forall_mem_cons.mpr ⟨keeps _ _ same first, ih later⟩
  | swap first second rest _ =>
      intro item mem
      exact every item ((List.Perm.swap first second rest).mem_iff.mp mem)
  | trans _ _ ih ih' => exact ih' (ih every)

/-- The first item with a key stays the first, for none with the same key takes its place. -/
theorem sameFirst [DecidableEq κ] {same : α → α → Prop} (itself : ∀ item, same item item)
    (through : ∀ item other third, same item other → same other third → same item third)
    (keyed : ∀ item other, like item other → key item = key other)
    (counts : ∀ item other, like item other → same item other)
    (reordered : Reordered key like left right) : SameFirst key same left right := by
  induction reordered with
  | nil => exact .refl itself []
  | @cons item other rest others similar _ ih =>
      intro wanted
      rw [firstWith_cons, firstWith_cons, keyed item other similar]
      split
      · exact .some (counts item other similar)
      · exact ih wanted
  | swap first second rest different =>
      intro wanted
      have moved : firstWith key (first :: second :: rest) wanted =
          firstWith key (second :: first :: rest) wanted := by
        simp only [firstWith_cons]
        by_cases here : key first = wanted
        · rw [if_pos here, if_neg (fun there => different (here.trans there.symm)), if_pos here]
        · rw [if_neg here, if_neg here]
      rw [moved]
      exact SameFirst.refl itself _ wanted
  | trans _ _ ih ih' => exact ih.trans through ih'

end Reordered

theorem Member.Redocumented.agrees {left right : Member} (same : left.Redocumented right) :
    left.Agrees right :=
  ⟨same.signature, same.visibility⟩

theorem members_reordered {left right : List Member}
    (reordered : Reordered Member.name Member.Redocumented left right) :
    SameFirst Member.name Member.Agrees left right :=
  reordered.sameFirst Member.agrees_refl (fun _ _ _ => Member.Agrees.trans)
    (fun _ _ => Member.Redocumented.name) (fun _ _ => Member.Redocumented.agrees)

theorem TypeDeclaration.Rearranged.agrees {left right : TypeDeclaration}
    (same : left.Rearranged right) : left.Agrees right where
  parent := same.parent
  interfaces _ := same.interfaces.mem_iff
  modifiers := same.modifiers
  methods := members_reordered same.methods
  properties := members_reordered same.properties

theorem Summary.Rearranged.agrees {left right : Summary} (same : left.Rearranged right) :
    left.Agrees right where
  space := same.space
  imports := same.imports.sameFirst Import.agrees_refl (fun _ _ _ => Eq.trans)
    (fun _ _ => congrArg Import.name) (fun _ _ => congrArg Import.renamed)
  types := same.types.sameFirst TypeDeclaration.agrees_refl
    (fun _ _ _ => TypeDeclaration.Agrees.trans) (fun _ _ => TypeDeclaration.Rearranged.identity)
    (fun _ _ => TypeDeclaration.Rearranged.agrees)
  functions := members_reordered same.functions

theorem Summary.Rearranged.unmarked {left right : Summary} (same : left.Rearranged right)
    (unmarked : Unmarked left.types) : Unmarked right.types := by
  have keeps : ∀ item other : TypeDeclaration, item.Rearranged other →
      '#' ∉ item.name.toList → '#' ∉ other.name.toList := by
    intro item other similar plain
    have named : item.name = other.name := congrArg Prod.fst similar.identity
    exact named ▸ plain
  exact same.types.forall_mem keeps unmarked

/-! ### No change -/

/-- Summaries in whose types no name has the mark that a key puts behind a name. -/
abbrev Summary.Plain : Type := { summary : Summary // Unmarked summary.types }

/-- Nothing changed from one summary to another. -/
def Summary.Plain.Unchanged (old new : Summary.Plain) : Prop :=
  (Delta.between old.1 new.1).hasChanges = false

theorem Summary.Plain.unchanged_iff (old new : Summary.Plain) :
    old.Unchanged new ↔ old.1.Agrees new.1 :=
  Delta.hasChanges_eq_false fun declared mem =>
    (List.mem_append.mp mem).elim (old.2 declared) (new.2 declared)

/-- Nothing changed just if the first declarations of every name are the same on both sides. So
summaries without a change between them are alike in the sense of an equivalence, and a change is
found between two summaries just if it is found between them with other documentation and with
declarations of different names in another order. -/
theorem unchanged_iff_agrees :
    (∀ old new : Summary.Plain,
      (Delta.between old.1 new.1).hasChanges = false ↔ old.1.Agrees new.1) ∧
    Equivalence Summary.Plain.Unchanged ∧
    ∀ (old new : Summary.Plain) (old' new' : Summary),
      old.1.Rearranged old' → new.1.Rearranged new' →
      (Delta.between old' new').hasChanges = (Delta.between old.1 new.1).hasChanges := by
  refine ⟨Summary.Plain.unchanged_iff, ⟨?_, ?_, ?_⟩, ?_⟩
  · intro summary
    exact (summary.unchanged_iff summary).mpr summary.1.agrees_refl
  · intro old new same
    exact (new.unchanged_iff old).mpr ((old.unchanged_iff new).mp same).symm
  · intro old middle new first second
    have further := (middle.unchanged_iff new).mp second
    exact (old.unchanged_iff new).mpr (((old.unchanged_iff middle).mp first).trans further)
  · intro old new old' new' oldMoved newMoved
    have before := Summary.Plain.unchanged_iff ⟨old', oldMoved.unmarked old.2⟩
      ⟨new', newMoved.unmarked new.2⟩
    have after := Summary.Plain.unchanged_iff old new
    have moves : old'.Agrees new' ↔ old.1.Agrees new.1 := by
      constructor
      · intro same
        exact oldMoved.agrees.trans (same.trans newMoved.agrees.symm)
      · intro same
        exact oldMoved.agrees.symm.trans (same.trans newMoved.agrees)
    rw [Bool.eq_iff_iff, ← not_iff_not, Bool.not_eq_true, Bool.not_eq_true]
    exact before.trans (moves.trans after.symm)

/-! ### Types that change places -/

def cartClass (docblock : Option String) : TypeDeclaration :=
  ⟨.ofClass, "Cart", none, ["Countable", "Iterator"], ⟨false, true⟩,
    [⟨"add", .isPublic, "($item)", none⟩, ⟨"clear", .isPublic, "()", none⟩], [], docblock⟩

def cartInterface : TypeDeclaration :=
  ⟨.ofInterface, "Cart", none, [], ⟨false, false⟩, [], [], none⟩

def cartAgain : TypeDeclaration :=
  ⟨.ofClass, "Cart", some "Basket", [], ⟨false, false⟩, [], [], none⟩

/-- The class with its members, its interfaces and its documentation in another form. -/
def cartRewritten : TypeDeclaration :=
  ⟨.ofClass, "Cart", none, ["Iterator", "Countable"], ⟨false, true⟩,
    [⟨"clear", .isPublic, "()", none⟩, ⟨"add", .isPublic, "($item)", some "/** Adds. */"⟩], [],
    some "/** A cart. */"⟩

def carts : Summary.Plain :=
  ⟨⟨none, [], [cartClass none, cartAgain, cartInterface], []⟩, by decide⟩

def cartsRearranged : Summary :=
  ⟨none, [], [cartRewritten, cartInterface, cartAgain], []⟩

theorem cartsRearranged_rearranged : carts.1.Rearranged cartsRearranged := by
  have methods : Reordered Member.name Member.Redocumented (cartClass none).methods
      cartRewritten.methods :=
    .trans (.swap _ _ [] (by decide)) (.cons ⟨rfl, rfl, rfl⟩ (.cons ⟨rfl, rfl, rfl⟩ .nil))
  have cart : (cartClass none).Rearranged cartRewritten :=
    ⟨rfl, rfl, .swap _ _ [], rfl, methods, .nil⟩
  exact ⟨rfl, .nil, .cons cart (.swap _ _ [] (by decide)), .nil⟩

/-- A class that is declared twice, next to an interface of its name, is unchanged with other
documentation and in another order, and that it goes is seen of both. -/
theorem unchanged_iff_agrees_of_carts :
    carts.1.Rearranged cartsRearranged ∧ carts.1.Agrees cartsRearranged ∧
      (Delta.between carts.1 .empty).hasChanges = true ∧
      (Delta.between cartsRearranged .empty).hasChanges =
        (Delta.between carts.1 .empty).hasChanges := by
  refine ⟨cartsRearranged_rearranged, cartsRearranged_rearranged.agrees, by decide, ?_⟩
  exact unchanged_iff_agrees.2.2 carts ⟨.empty, nofun⟩ cartsRearranged .empty
    cartsRearranged_rearranged ⟨rfl, .nil, .nil, .nil⟩

end DocDrift
