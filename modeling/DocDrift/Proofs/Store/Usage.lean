import DocDrift.Proofs.Store.Ledger

/-!
The usage ledger over a history. A recording whose cost is a number adds one row behind those that
are there, under the next number; no other operation touches the ledger.
-/

set_option autoImplicit false

namespace DocDrift.Store

/-! ### Recordings -/

/-- The usage that an operation records, and when; a cost that is not a number is refused. -/
def Operation.spending? : Operation → Option (Usage × String)
  | .wrote now (.spent usage) =>
      if usage.cost.isNaN then none else some ({ usage with cost := keptCost usage.cost }, now)
  | _ => none

theorem spends_iff (operation : Operation) :
    operation.spending?.isSome = true ↔
      ∃ now usage, operation = .wrote now (.spent usage) ∧ usage.cost.isNaN = false := by
  constructor
  · intro spends
    unfold Operation.spending? at spends
    split at spends
    case h_1 now usage =>
      refine ⟨now, usage, rfl, Bool.eq_false_iff.mpr fun undefined => ?_⟩
      rw [if_pos undefined] at spends
      cases spends
    case h_2 => cases spends
  · rintro ⟨now, usage, rfl, defined⟩
    rw [Operation.spending?, if_neg (Bool.eq_false_iff.mp defined)]
    rfl

/-- The row of a recording behind some others. -/
def usageRow (before : Nat) (spending : Usage × String) : UsageRow :=
  ⟨before + 1, spending.1, spending.2⟩

/-- The rows of all recordings of a history. -/
def recorded (operations : List Operation) : List UsageRow :=
  (operations.filterMap Operation.spending?).mapIdx usageRow

section Recordings

variable (operations : List Operation)

theorem recorded_concat (operation : Operation) :
    recorded (operations ++ [operation]) =
      recorded operations ++
        (operation.spending?.map (usageRow (recorded operations).length)).toList := by
  unfold recorded
  cases spends : operation.spending? with
  | none => simp [spends]
  | some spending => simp [spends, List.mapIdx_append]

theorem recorded_prefix (more : List Operation) :
    recorded operations <+: recorded (operations ++ more) := by
  unfold recorded
  rw [List.filterMap_append, List.mapIdx_append]
  exact List.prefix_append _ _

theorem length_recorded :
    (recorded operations).length = operations.countP (·.spending?.isSome) := by
  rw [recorded, List.length_mapIdx, List.length_filterMap_eq_countP]

/-- The rows are numbered from one on, without gaps. -/
theorem recorded_numbers :
    (recorded operations).map (·.number) = List.range' 1 (recorded operations).length := by
  apply List.ext_getElem
  · simp
  · intro place inside within
    simp [recorded, usageRow]
    omega

theorem recorded_ascending :
    (recorded operations).Pairwise (fun row later => row.number < later.number) := by
  have numbers := recorded_numbers operations
  rw [← List.pairwise_map (f := UsageRow.number), numbers]
  exact List.pairwise_lt_range'

end Recordings

/-! ### Stores -/

section Stores

variable {store next : Store} {now : String}

theorem usage_wrote_of_ne {write : Write} (other : ∀ usage, write ≠ .spent usage) :
    (Operation.on store (.wrote now write)).usage = store.usage := by
  rcases done : store.write now write with failure | next
  · rw [on_wrote_of_error done]
  · rw [on_wrote done, usage_write_of_ne other done]

/-- A recording fails if and only if its cost is not a number. -/
theorem write_spent_cases {rows : List UsageRow} (held : store.usage = some rows) (now : String)
    (usage : Usage) :
    (usage.cost.isNaN = true ∧ store.write now (.spent usage) = .error .store) ∨
      (usage.cost.isNaN = false ∧ store.write now (.spent usage) = .ok { store with
        usage := some (rows ++
          [usageRow rows.length ({ usage with cost := keptCost usage.cost }, now)]) }) := by
  cases number : usage.cost.isNaN with
  | true =>
      refine .inl ⟨rfl, ?_⟩
      rw [write, held]
      exact if_pos number
  | false => exact .inr ⟨rfl, write_spent.mpr ⟨rows, held, number, rfl⟩⟩

theorem usage_on {rows : List UsageRow} (whole : store.Whole) (held : store.usage = some rows)
    (operation : Operation) :
    (operation.on store).usage =
      some (rows ++ (operation.spending?.map (usageRow rows.length)).toList) := by
  have unspent : rows ++ (Option.map (usageRow rows.length) none).toList = rows := List.append_nil _
  cases operation with
  | wrote now write =>
      cases write with
      | spent usage =>
          rcases write_spent_cases held now usage with ⟨number, failed⟩ | ⟨number, done⟩
          · rw [on_wrote_of_error failed, held, Operation.spending?, if_pos number, unspent]
          · rw [on_wrote done, Operation.spending?, if_neg (Bool.eq_false_iff.mp number)]
            rfl
      | _ =>
          rw [usage_wrote_of_ne (by simp), held]
          exact congrArg some unspent.symm
  | cleaned files =>
      obtain ⟨next, count, cleaned, _whole, _ledger⟩ :=
        cleanup_whole whole (fun path => !files.exists? path)
      obtain ⟨ledger, _held, ⟨_none, rfl⟩ | ⟨symbols, _listed, rfl⟩⟩ := cleanup_cases cleaned
      · rw [on_cleaned cleaned, held]
        exact congrArg some unspent.symm
      · rw [on_cleaned cleaned]
        exact held.trans (congrArg some unspent.symm)
  | reopened =>
      rw [Operation.on, prepared, held]
      exact congrArg some unspent.symm

end Stores

theorem usage_after (operations : List Operation) :
    (after operations).usage = some (recorded operations) := by
  induction operations using List.reverseRecOn with
  | nil => rfl
  | append_singleton operations operation ih =>
      rw [after_concat, usage_on (ledger_after operations).1 ih, recorded_concat]

end DocDrift.Store
