import DocDrift.Proofs.Decimal.Order
import DocDrift.Proofs.Store.Usage
import Mathlib

/-!
What the cost report says of the usage ledger. There is a report as long as the sums of each model
stay in their range, every part of them included, and its cost is a number. It lists each model once,
by falling cost and then by name, with the sums over the rows of the model. The totals are over all
rows, and exact where they stay in the range as the models are added up.
-/

set_option autoImplicit false

namespace DocDrift.Store

/-! ### Sums in sixty-four bits -/

/-- No part of a sum, from its start on, leaves the range. -/
def StaysInRange (items : List Int) : Prop :=
  ∀ part, part <+: items → InRange part.sum

theorem boundedSum?_eq_some {start : Int} (inside : InRange start) (items : List Int)
    (total : Int) :
    boundedSum? start items = some total ↔
      total = start + items.sum ∧ ∀ part, part <+: items → InRange (start + part.sum) := by
  induction items generalizing start with
  | nil =>
      simp only [boundedSum?, Option.some.injEq, List.sum_nil, Int.add_zero, List.prefix_nil,
        forall_eq, inside, and_true, eq_comm]
  | cons item rest ih =>
      have parts : (∀ part, part <+: item :: rest → InRange (start + part.sum)) ↔
          ∀ part, part <+: rest → InRange (start + item + part.sum) := by
        constructor
        · intro all part more
          have within := all (item :: part) (List.cons_prefix_cons.mpr ⟨rfl, more⟩)
          rwa [List.sum_cons, ← Int.add_assoc] at within
        · intro all part more
          rcases List.prefix_cons_iff.mp more with rfl | ⟨others, rfl, within⟩
          · rwa [List.sum_nil, Int.add_zero]
          · rw [List.sum_cons, ← Int.add_assoc]
            exact all others within
      rw [boundedSum?, parts, List.sum_cons, ← Int.add_assoc]
      split
      case isTrue within => exact ih within
      case isFalse outside =>
        refine iff_of_false (by simp) fun ⟨_total, all⟩ => outside ?_
        have first := all [] List.nil_prefix
        rwa [List.sum_nil, Int.add_zero] at first

theorem boundedSum?_zero (items : List Int) (total : Int) :
    boundedSum? 0 items = some total ↔ total = items.sum ∧ StaysInRange items := by
  have inside : InRange 0 := ⟨by decide, by decide⟩
  rw [boundedSum?_eq_some inside]
  simp only [Int.zero_add, StaysInRange]

theorem foldl_wrapping (items : List Int) (start : Int64) :
    items.foldl (fun total item => total + Int64.ofInt item) start =
      start + Int64.ofInt items.sum := by
  induction items generalizing start with
  | nil => exact (Int64.add_zero start).symm
  | cons item rest ih =>
      rw [List.foldl_cons, ih, List.sum_cons, Int64.ofInt_add, Int64.add_assoc]

/-- A sum that wraps around on the way is the sum of all items, wrapped around at its end. -/
theorem wrappingSum_eq (items : List Int) : wrappingSum items = Int64.ofInt items.sum :=
  (foldl_wrapping items 0).trans (Int64.zero_add _)

example : wrappingSum [9223372036854775807, 9223372036854775807] = -2 := by decide

/-! ### The sums of a model -/

def rowsOf (model : String) (rows : List UsageRow) : List UsageRow :=
  rows.filter (fun row => row.usage.model == model)

/-- The sums over the rows of a model. -/
def costOf (rows : List UsageRow) (model : String) : ModelCost :=
  { model := model
    calls := (rowsOf model rows).length
    input := ((rowsOf model rows).map (·.usage.input)).sum
    output := ((rowsOf model rows).map (·.usage.output)).sum
    cost := correctedSum ((rowsOf model rows).map (·.usage.cost)) }

/-- The sums over the rows of a model can be kept. -/
structure Summable (rows : List UsageRow) (model : String) : Prop where
  input : StaysInRange ((rowsOf model rows).map (·.usage.input))
  output : StaysInRange ((rowsOf model rows).map (·.usage.output))
  cost : (costOf rows model).cost.isNaN = false

section Sums

variable {rows : List UsageRow} {model : String}

theorem ofRows?_of_summable (summable : Summable rows model) :
    ModelCost.ofRows? model rows = some (costOf rows model) := by
  have input : boundedSum? 0 ((rowsOf model rows).map (·.usage.input)) =
      some (costOf rows model).input := (boundedSum?_zero _ _).mpr ⟨rfl, summable.input⟩
  have output : boundedSum? 0 ((rowsOf model rows).map (·.usage.output)) =
      some (costOf rows model).output := (boundedSum?_zero _ _).mpr ⟨rfl, summable.output⟩
  rw [rowsOf] at input output
  unfold ModelCost.ofRows?
  refine (if_neg (Bool.eq_false_iff.mp summable.cost)).trans ?_
  rw [input, output]
  rfl

theorem ofRows?_of_not_summable (unsummable : ¬Summable rows model) :
    ModelCost.ofRows? model rows = none := by
  by_contra some
  obtain ⟨cost, found⟩ := Option.ne_none_iff_exists'.mp some
  refine unsummable ?_
  unfold ModelCost.ofRows? at found
  dsimp only at found
  split at found
  case isTrue undefined => cases found
  case isFalse defined =>
    obtain ⟨input, inputFound, found⟩ := Option.bind_eq_some_iff.mp found
    obtain ⟨output, outputFound, _found⟩ := Option.bind_eq_some_iff.mp found
    exact ⟨((boundedSum?_zero _ _).mp inputFound).2, ((boundedSum?_zero _ _).mp outputFound).2,
      Bool.eq_false_iff.mpr defined⟩

/-- Each row belongs to one model, so that the sums of all models are those of all rows. -/
theorem sum_rowsOf {M : Type} [AddCommMonoid M] {names : List String} (distinct : names.Nodup)
    (all : ∀ row ∈ rows, row.usage.model ∈ names) (amount : UsageRow → M) :
    (names.map fun name => ((rowsOf name rows).map amount).sum).sum = (rows.map amount).sum := by
  induction rows with
  | nil => simp [rowsOf]
  | cons row rest ih =>
      obtain ⟨known, others⟩ := List.forall_mem_cons.mp all
      have split : ∀ name, ((rowsOf name (row :: rest)).map amount).sum =
          (if row.usage.model = name then amount row else 0) +
            ((rowsOf name rest).map amount).sum := by
        intro name
        by_cases own : row.usage.model = name
        · simp [rowsOf, own]
        · simp [rowsOf, own]
      have once : (names.map fun name => if row.usage.model = name then amount row else 0).sum =
          amount row := by
        rw [List.sum_map_eq_nsmul_single row.usage.model _ fun other different _mem =>
          if_neg different.symm, List.count_eq_one_of_mem distinct known, one_nsmul, if_pos rfl]
      simp only [split]
      rw [List.sum_map_add, once, ih others, List.map_cons, List.sum_cons]

end Sums

/-! ### The order of the models -/

namespace ModelCost

section Order

variable {left between right : ModelCost}

open Decimal (rank)

theorem before_iff (defined : left.cost.isNaN = false) (otherDefined : right.cost.isNaN = false) :
    left.before right = true ↔
      rank right.cost < rank left.cost ∨
        (rank right.cost = rank left.cost ∧ left.model < right.model) := by
  rw [before, Bool.or_eq_true, Bool.and_eq_true, decide_eq_true_iff, decide_eq_true_iff,
    Decimal.lt_iff_rank otherDefined defined, Decimal.beq_iff_rank otherDefined defined]

theorem before_trans (defined : left.cost.isNaN = false) (middle : between.cost.isNaN = false)
    (otherDefined : right.cost.isNaN = false) (first : left.before between = true)
    (second : between.before right = true) : left.before right = true := by
  rw [before_iff defined middle] at first
  rw [before_iff middle otherDefined] at second
  rw [before_iff defined otherDefined]
  rcases first with more | ⟨same, earlier⟩ <;> rcases second with more' | ⟨same', earlier'⟩
  · exact .inl (more'.trans more)
  · exact .inl (same' ▸ more)
  · exact .inl (same ▸ more')
  · exact .inr ⟨same'.trans same, String.lt_trans earlier earlier'⟩

theorem before_of_not_before (defined : left.cost.isNaN = false)
    (otherDefined : right.cost.isNaN = false) (different : left.model ≠ right.model)
    (later : ¬left.before right = true) : right.before left = true := by
  rw [before_iff defined otherDefined, not_or, not_and] at later
  rw [before_iff otherDefined defined]
  rcases (not_lt.mp later.1).lt_or_eq with more | same
  · exact .inl more
  · refine .inr ⟨same, ?_⟩
    apply String.not_le.mp
    intro least
    exact different (String.le_antisymm least (String.not_lt.mp (later.2 same.symm)))

end Order

section Sorting

variable {item : ModelCost} {items done : List ModelCost}

theorem insert_perm (item : ModelCost) (items : List ModelCost) :
    (insert item items).Perm (item :: items) := by
  induction items with
  | nil => exact List.Perm.refl _
  | cons other rest ih =>
      rw [insert]
      split
      · exact List.Perm.refl _
      · exact (ih.cons other).trans (List.Perm.swap item other rest)

theorem insert_pairwise (defined : ∀ other ∈ item :: items, other.cost.isNaN = false)
    (distinct : ∀ other ∈ items, item.model ≠ other.model)
    (sorted : items.Pairwise fun left right => left.before right = true) :
    (insert item items).Pairwise fun left right => left.before right = true := by
  induction items with
  | nil => exact List.pairwise_singleton ..
  | cons other rest ih =>
      obtain ⟨own, both⟩ := List.forall_mem_cons.mp defined
      obtain ⟨first, others⟩ := List.forall_mem_cons.mp both
      obtain ⟨later, rising⟩ := List.pairwise_cons.mp sorted
      obtain ⟨different, apart⟩ := List.forall_mem_cons.mp distinct
      rw [insert]
      split
      case isTrue before =>
        refine List.pairwise_cons.mpr ⟨List.forall_mem_cons.mpr ⟨before, ?_⟩, sorted⟩
        intro last mem
        exact before_trans own first (others last mem) before (later last mem)
      case isFalse notBefore =>
        refine List.pairwise_cons.mpr ⟨?_, ih (List.forall_mem_cons.mpr ⟨own, others⟩) apart rising⟩
        intro last mem
        rcases List.mem_cons.mp ((insert_perm item rest).mem_iff.mp mem) with rfl | mem
        · exact before_of_not_before own first different notBefore
        · exact later last mem

theorem foldl_insert_perm (items done : List ModelCost) :
    (items.foldl (fun done item => insert item done) done).Perm (done ++ items) := by
  induction items generalizing done with
  | nil => rw [List.append_nil, List.foldl_nil]
  | cons item rest ih =>
      rw [List.foldl_cons]
      refine (ih (insert item done)).trans ?_
      exact ((insert_perm item done).append_right rest).trans List.perm_middle.symm

theorem sorted_perm (items : List ModelCost) : (sorted items).Perm items :=
  foldl_insert_perm items []

theorem foldl_insert_pairwise (defined : ∀ item ∈ done ++ items, item.cost.isNaN = false)
    (distinct : ((done ++ items).map (·.model)).Nodup)
    (sorted : done.Pairwise fun left right => left.before right = true) :
    (items.foldl (fun done item => insert item done) done).Pairwise
      fun left right => left.before right = true := by
  induction items generalizing done with
  | nil => exact sorted
  | cons item rest ih =>
      rw [List.foldl_cons]
      have moved : (insert item done ++ rest).Perm (done ++ item :: rest) :=
        ((insert_perm item done).append_right rest).trans List.perm_middle.symm
      refine ih ?_ ((moved.map _).nodup_iff.mpr distinct) (insert_pairwise ?_ ?_ sorted)
      · intro other mem
        exact defined other (moved.mem_iff.mp mem)
      · intro other mem
        refine defined other (moved.mem_iff.mp (List.mem_append_left rest ?_))
        exact (insert_perm item done).mem_iff.mpr mem
      · intro other mem same
        rw [List.map_append, List.map_cons, List.nodup_append] at distinct
        exact distinct.2.2 _ (List.mem_map.mpr ⟨other, mem, rfl⟩) _ List.mem_cons_self same.symm

theorem sorted_pairwise (defined : ∀ item ∈ items, item.cost.isNaN = false)
    (distinct : (items.map (·.model)).Nodup) :
    (sorted items).Pairwise fun left right => left.before right = true :=
  foldl_insert_pairwise defined distinct .nil

end Sorting

end ModelCost

/-! ### Reports -/

/-- A total is added up from parts in sixty-four bits. It is that of some amounts as long as no part
of the sum leaves the range, and wraps around otherwise. -/
structure Totals (parts amounts : List Int) (total : Int) : Prop where
  exact : StaysInRange parts → total = amounts.sum
  wrapped : total = Int64.ofInt amounts.sum

/-- A report says what the rows of the ledger add up to. Each model that has a row is listed once,
the costlier one first and models of the same cost by name, with the sums over its rows; the totals
are over all rows, added up from those of the models in their order. -/
structure Reports (rows : List UsageRow) (report : CostReport) : Prop where
  once : (report.models.map (·.model)).Nodup
  model : ∀ model, model ∈ report.models.map (·.model) ↔ ∃ row ∈ rows, row.usage.model = model
  order : report.models.Pairwise fun left right =>
    right.cost < left.cost ∨ ((right.cost == left.cost) = true ∧ left.model < right.model)
  sums : ∀ item ∈ report.models, item = costOf rows item.model
  calls : report.calls = rows.length
  input : Totals (report.models.map (·.input)) (rows.map (·.usage.input)) report.input
  output : Totals (report.models.map (·.output)) (rows.map (·.usage.output)) report.output
  cost : report.cost = (report.models.map (·.cost)).foldl (· + ·) 0.0

section Reports

variable {rows : List UsageRow}

theorem sum_eq_of_listed {M : Type} [AddCommMonoid M] {names : List String}
    {models : List ModelCost} (listed : models.Perm (names.map (costOf rows)))
    (distinct : names.Nodup) (all : ∀ row ∈ rows, row.usage.model ∈ names) (part : ModelCost → M)
    (amount : UsageRow → M)
    (sums : ∀ name, part (costOf rows name) = ((rowsOf name rows).map amount).sum) :
    (models.map part).sum = (rows.map amount).sum := by
  rw [(listed.map part).sum_eq, List.map_map, ← sum_rowsOf distinct all amount]
  exact congrArg List.sum (List.map_congr_left fun name _mem => sums name)

theorem totals_of_sum {parts amounts : List Int} (same : parts.sum = amounts.sum) :
    Totals parts amounts (wrappingSum parts) where
  exact stays := by
    have inside : InRange amounts.sum := same ▸ stays parts List.prefix_rfl
    rw [wrappingSum_eq, same, toInt_ofInt inside]
  wrapped := by rw [wrappingSum_eq, same]

theorem report_of_summable (summable : ∀ row ∈ rows, Summable rows row.usage.model) :
    ∃ report, CostReport.ofRows? rows = some report ∧ Reports rows report := by
  set names := sortedSet (rows.map (·.usage.model)) with names_eq
  have distinct : names.Nodup := (NameMap.ascending_ofList _).nodup
  have among : ∀ name, name ∈ names ↔ ∃ row ∈ rows, row.usage.model = name := by
    intro name
    rw [names_eq, mem_sortedSet, List.mem_map]
  have known : ∀ row ∈ rows, row.usage.model ∈ names := fun row mem => (among _).mpr ⟨row, mem, rfl⟩
  have own : ∀ name ∈ names, Summable rows name := by
    intro name mem
    obtain ⟨row, present, rfl⟩ := (among name).mp mem
    exact summable row present
  have models : names.mapM (fun name => ModelCost.ofRows? name rows) =
      some (names.map (costOf rows)) :=
    mapM_eq_some_map fun name mem => ofRows?_of_summable (own name mem)
  have listed := ModelCost.sorted_perm (names.map (costOf rows))
  have named : (names.map (costOf rows)).map (·.model) = names := by
    rw [List.map_map]
    exact List.map_id' names
  have order : (ModelCost.sorted (names.map (costOf rows))).Pairwise
      fun left right => left.before right = true := by
    refine ModelCost.sorted_pairwise ?_ (named.symm ▸ distinct)
    intro item mem
    obtain ⟨name, present, rfl⟩ := List.mem_map.mp mem
    exact (own name present).cost
  rw [CostReport.ofRows?, ← names_eq, models]
  refine ⟨_, rfl, ?_⟩
  constructor
  case once =>
    rw [(listed.map _).nodup_iff, named]
    exact distinct
  case model =>
    intro model
    rw [(listed.map _).mem_iff, named, among]
  case order =>
    refine order.imp fun before => ?_
    simpa [ModelCost.before] using before
  case sums =>
    intro item mem
    obtain ⟨name, _mem, rfl⟩ := List.mem_map.mp (listed.mem_iff.mp mem)
    rfl
  case calls =>
    have total := sum_eq_of_listed listed distinct known (·.calls) (fun _row => 1) fun name => by
      simp [costOf]
    rw [List.sum_eq_foldr, List.foldr_map] at total
    exact total.trans (by simp)
  case input =>
    exact totals_of_sum (sum_eq_of_listed listed distinct known (·.input) (·.usage.input)
      fun _name => rfl)
  case output =>
    exact totals_of_sum (sum_eq_of_listed listed distinct known (·.output) (·.usage.output)
      fun _name => rfl)
  case cost => exact List.foldl_map.symm

theorem report_of_not_summable {row : UsageRow} (mem : row ∈ rows)
    (unsummable : ¬Summable rows row.usage.model) : CostReport.ofRows? rows = none := by
  have among : row.usage.model ∈ sortedSet (rows.map (·.usage.model)) :=
    (mem_sortedSet _ _).mpr (List.mem_map.mpr ⟨row, mem, rfl⟩)
  rw [CostReport.ofRows?, mapM_eq_none among (ofRows?_of_not_summable unsummable)]
  rfl

end Reports

/-! ### Histories -/

theorem costs_held {store : Store} {rows : List UsageRow} (held : store.usage = some rows) :
    store.costs = found (CostReport.ofRows? rows) := by
  rw [costs, held]
  rfl

/-- After every history the usage ledger has one row for each recording whose cost is a number, in
their order and numbered from one on, and whatever comes later only adds to it. There is a cost
report just when the sums of each model can be kept, and it says what the ledger adds up to. -/
theorem ledger_reported (operations : List Operation) :
    (after operations).usageRows = .ok (recorded operations) ∧
      (∀ more, recorded operations <+: recorded (operations ++ more)) ∧
      (recorded operations).Pairwise (fun row later => row.number < later.number) ∧
      (recorded operations).map (·.number) = List.range' 1 (recorded operations).length ∧
      (recorded operations).length = operations.countP (·.spending?.isSome) ∧
      (∀ operation : Operation, operation.spending?.isSome = true ↔
        ∃ now usage, operation = .wrote now (.spent usage) ∧ usage.cost.isNaN = false) ∧
      (∀ now usage, usage.cost.isNaN = true →
        (after operations).write now (.spent usage) = .error .store) ∧
      ((∀ row ∈ recorded operations, Summable (recorded operations) row.usage.model) →
        ∃ report, (after operations).costs = .ok report ∧ Reports (recorded operations) report) ∧
      ((∃ row ∈ recorded operations, ¬Summable (recorded operations) row.usage.model) →
        (after operations).costs = .error .store) := by
  have held := usage_after operations
  refine ⟨?_, recorded_prefix operations, recorded_ascending operations,
    recorded_numbers operations, length_recorded operations, spends_iff, ?_, ?_, ?_⟩
  · rw [usageRows, held]
    rfl
  · intro now usage undefined
    rcases write_spent_cases held now usage with ⟨_undefined, failed⟩ | ⟨defined, _done⟩
    · exact failed
    · rw [undefined] at defined
      cases defined
  · intro summable
    obtain ⟨report, reported, reports⟩ := report_of_summable summable
    rw [costs_held held, reported]
    exact ⟨report, rfl, reports⟩
  · rintro ⟨row, mem, unsummable⟩
    rw [costs_held held, report_of_not_summable mem unsummable]
    rfl

def recordings (amounts : List (Int × Float)) : List Operation :=
  amounts.map fun amount => .wrote "monday" (.spent ⟨"m", amount.1, 0, amount.2, none⟩)

/-- There is no report if part of a sum leaves its range, though the sum is in it again, or if costs
add up to no number; and a cost that is not a number is not recorded. -/
theorem unreported_of_overflow :
    (InRange ((recorded (recordings [(9223372036854775807, 0), (1, 0), (-1, 0)])).map
        (·.usage.input)).sum ∧
      (after (recordings [(9223372036854775807, 0), (1, 0), (-1, 0)])).costs = .error .store) ∧
      (after (recordings [(0, 1 / 0), (0, -1 / 0)])).costs = .error .store ∧
      (after (recordings [(0, 0 / 0)])).usageRows = .ok [] :=
  ⟨⟨⟨by decide, by decide⟩, rfl⟩, rfl, rfl⟩

end DocDrift.Store
