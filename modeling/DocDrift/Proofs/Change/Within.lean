import DocDrift.Proofs.Change.Severity
import DocDrift.Proofs.Names
import Mathlib.Data.List.Perm.Subperm

/-!
When one structural change contains another: every name that comes or goes in the smaller one comes
or goes in the larger one, as often at least, and what changes under a name that stays changes
there too. A change contained in another reaches no further than it.
-/

set_option autoImplicit false

namespace DocDrift

/-! ### Containment -/

/-- One set of changes contains another, where the changes under each name are related. -/
structure ChangeSet.Within {μ : Type} (related : μ → μ → Prop) (small large : ChangeSet μ) :
    Prop where
  added : small.added.Subperm large.added
  removed : small.removed.Subperm large.removed
  modified : ∀ entry ∈ small.modified,
    ∃ change, (entry.1, change) ∈ large.modified ∧ related entry.2 change

structure TypeDelta.Within (small large : TypeDelta) : Prop where
  parent : small.parent.isSome = true → large.parent.isSome = true
  interfaces : small.interfaces.hasChanges = true → large.interfaces.hasChanges = true
  modifiers : small.modifiers.isSome = true → large.modifiers.isSome = true
  methods : small.methods.Within (fun _ _ => True) large.methods
  properties : small.properties.Within (fun _ _ => True) large.properties

/-- One structural change contains another. -/
structure Delta.Within (small large : Delta) : Prop where
  space : small.spaceChanged = true → large.spaceChanged = true
  types : small.types.Within TypeDelta.Within large.types
  interfaces : small.interfaces.Within TypeDelta.Within large.interfaces
  functions : small.functions.Within (fun _ _ => True) large.functions
  imports : small.imports.Within (fun _ _ => True) large.imports

/-- No name stands twice in the map of the types that changed or in the maps of their members. -/
structure Delta.Distinct (delta : Delta) : Prop where
  types : delta.types.modified.names.Nodup
  methods : ∀ change ∈ delta.types.modified.values, change.methods.modified.names.Nodup
  properties : ∀ change ∈ delta.types.modified.values, change.properties.modified.names.Nodup

/-! ### Differences between summaries -/

section Between

variable {α μ : Type} (key : α → String) (differ : α → α → Option μ) (old new : List α)

theorem ChangeSet.between_nodup : (ChangeSet.between key differ old new).modified.names.Nodup :=
  (NameMap.ascending_ofList _).nodup

theorem ChangeSet.between_values {change : μ}
    (mem : change ∈ (ChangeSet.between key differ old new).modified.values) :
    ∃ item other, differ item other = some change := by
  obtain ⟨entry, held, rfl⟩ := List.mem_map.mp mem
  have listed := NameMap.mem_of_mem_ofList held
  simp only [List.mem_filterMap, bind, Option.bind_eq_some_iff, pure, Option.some.injEq] at listed
  obtain ⟨item, _, other, _, change, differs, rfl⟩ := listed
  exact ⟨item, other, differs⟩

end Between

theorem TypeDeclaration.differ_members {old new : TypeDeclaration} {change : TypeDelta}
    (differs : TypeDeclaration.differ old new = some change) :
    change.methods = ChangeSet.between Member.name Member.differ old.methods new.methods ∧
      change.properties =
        ChangeSet.between Member.name Member.differ old.properties new.properties := by
  rw [TypeDeclaration.differ, Option.ite_none_right_eq_some] at differs
  cases differs.2
  exact ⟨rfl, rfl⟩

theorem Delta.between_distinct (old new : Summary) : (Delta.between old new).Distinct := by
  refine ⟨ChangeSet.between_nodup .., ?_, ?_⟩
  · intro change mem
    obtain ⟨item, other, differs⟩ := ChangeSet.between_values _ _ _ _ mem
    rw [(TypeDeclaration.differ_members differs).1]
    exact ChangeSet.between_nodup ..
  · intro change mem
    obtain ⟨item, other, differs⟩ := ChangeSet.between_values _ _ _ _ mem
    rw [(TypeDeclaration.differ_members differs).2]
    exact ChangeSet.between_nodup ..

/-! ### Sets of changes -/

namespace ChangeSet

variable {μ : Type} {related : μ → μ → Prop} {small large : ChangeSet μ}

theorem Within.churn (within : small.Within related large) : small.churn ≤ large.churn :=
  Nat.add_le_add within.added.length_le within.removed.length_le

theorem Within.modified_ne_nil (within : small.Within related large)
    (some : small.modified ≠ []) : large.modified ≠ [] := by
  obtain ⟨entry, mem⟩ := List.exists_mem_of_ne_nil _ some
  obtain ⟨change, found, _related⟩ := within.modified entry mem
  exact List.ne_nil_of_mem found

theorem Within.hasChanges (within : small.Within related large)
    (changed : small.hasChanges = true) : large.hasChanges = true := by
  apply hasChanges_iff.mpr
  rcases hasChanges_iff.mp changed with churned | modified
  · exact .inl (Nat.lt_of_lt_of_le churned within.churn)
  · exact .inr (within.modified_ne_nil modified)

theorem Within.modified_length (within : small.Within related large)
    (distinct : small.modified.names.Nodup) : small.modified.length ≤ large.modified.length := by
  have contained : small.modified.names ⊆ large.modified.names := by
    intro name mem
    obtain ⟨entry, held, rfl⟩ := List.mem_map.mp mem
    obtain ⟨change, found, _related⟩ := within.modified entry held
    exact List.mem_map.mpr ⟨_, found, rfl⟩
  have shorter := (List.subperm_of_subset distinct contained).length_le
  rwa [NameMap.names, NameMap.names, List.length_map, List.length_map] at shorter

theorem Within.values (within : small.Within related large) {change : μ}
    (mem : change ∈ small.modified.values) :
    ∃ other ∈ large.modified.values, related change other := by
  obtain ⟨entry, held, rfl⟩ := List.mem_map.mp mem
  obtain ⟨other, found, related⟩ := within.modified entry held
  exact ⟨other, List.mem_map.mpr ⟨_, found, rfl⟩, related⟩

end ChangeSet

/-! ### Reach -/

theorem TypeDelta.Within.changesHierarchy {small large : TypeDelta} (within : small.Within large)
    (moved : small.changesHierarchy = true) : large.changesHierarchy = true := by
  rw [TypeDelta.changesHierarchy, Bool.or_eq_true] at moved ⊢
  exact moved.imp within.parent within.interfaces

theorem TypeDelta.Within.hasChanges {small large : TypeDelta} (within : small.Within large)
    (changed : small.hasChanges = true) : large.hasChanges = true := by
  rw [TypeDelta.hasChanges, Bool.or_eq_true, Bool.or_eq_true, Bool.or_eq_true] at changed ⊢
  exact changed.imp (Or.imp (Or.imp within.changesHierarchy within.modifiers)
    within.methods.hasChanges) within.properties.hasChanges

namespace Delta

variable {small large : Delta}

theorem Within.isMajor (within : small.Within large) (major : small.IsMajor) : large.IsMajor := by
  rcases major with space | types | interfaces | functions | ⟨type, mem, moved⟩
  · exact .inl (within.space space)
  · exact .inr (.inl (Nat.lt_of_lt_of_le types within.types.churn))
  · exact .inr (.inr (.inl (Nat.lt_of_lt_of_le interfaces within.interfaces.churn)))
  · exact .inr (.inr (.inr (.inl (Nat.lt_of_lt_of_le functions within.functions.churn))))
  · obtain ⟨other, found, within⟩ := within.types.values mem
    exact .inr (.inr (.inr (.inr ⟨other, found, within.changesHierarchy moved⟩)))

end Delta

end DocDrift
