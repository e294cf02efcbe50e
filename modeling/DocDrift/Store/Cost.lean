import DocDrift.Store.Row
import DocDrift.Whole

/-!
What the usage ledger adds up to, model by model. Costs are added with a running correction, so
that a sum of many small costs is as exact as the last addition. The whole numbers of a model must
stay in the range of sixty-four bits; the totals of all models wrap around.
-/

set_option autoImplicit false

namespace DocDrift.Store

/-- A sum of floating-point numbers and what rounding has taken off it so far. -/
structure CorrectedSum where
  sum : Float
  correction : Float

namespace CorrectedSum

def zero : CorrectedSum := ⟨0.0, 0.0⟩

/-- Adds a number. What the addition loses of the smaller of the two goes to the correction. -/
def add (total : CorrectedSum) (x : Float) : CorrectedSum :=
  let sum := total.sum + x
  let lost :=
    if x.abs < total.sum.abs then (total.sum - sum) + x else (x - sum) + total.sum
  ⟨sum, total.correction + lost⟩

/-- The sum, corrected if the correction is a finite number. -/
def value (total : CorrectedSum) : Float :=
  if total.correction.isNaN || total.correction.isInf then total.sum
  else total.sum + total.correction

end CorrectedSum

def correctedSum (items : List Float) : Float :=
  (items.foldl CorrectedSum.add .zero).value

/-- A sum whose parts all stay in the range of sixty-four bits. -/
def boundedSum? (start : Int) : List Int → Option Int
  | [] => some start
  | item :: rest =>
      let sum := start + item
      if InRange sum then boundedSum? sum rest else none

structure ModelCost where
  model : String
  calls : Nat
  input : Int
  output : Int
  cost : Float
  deriving Inhabited

structure CostReport where
  calls : Nat
  input : Int
  output : Int
  cost : Float
  models : List ModelCost
  deriving Inhabited

namespace ModelCost

/-- The sums over the rows of a model; there are none if a sum leaves its range. -/
def ofRows? (model : String) (rows : List UsageRow) : Option ModelCost := do
  let own := rows.filter (fun row => row.usage.model == model)
  let cost := correctedSum (own.map (·.usage.cost))
  if cost.isNaN then none
  else
    return {
      model := model
      calls := own.length
      input := ← boundedSum? 0 (own.map (·.usage.input))
      output := ← boundedSum? 0 (own.map (·.usage.output))
      cost := cost }

/-- Whether a model is listed before another: a higher cost comes first, and models of the same
cost are in the order of their names. -/
def before (left right : ModelCost) : Bool :=
  right.cost < left.cost || (right.cost == left.cost && left.model < right.model)

/-- Puts a model into its place in a list. -/
def insert (item : ModelCost) : List ModelCost → List ModelCost
  | [] => [item]
  | other :: rest =>
      if item.before other then item :: other :: rest else other :: insert item rest

def sorted (items : List ModelCost) : List ModelCost :=
  items.foldl (fun done item => insert item done) []

end ModelCost

namespace CostReport

def ofRows? (rows : List UsageRow) : Option CostReport := do
  let names := sortedSet (rows.map (·.usage.model))
  let models := ModelCost.sorted (← names.mapM (fun name => ModelCost.ofRows? name rows))
  return {
    calls := models.foldr (fun model total => model.calls + total) 0
    input := wrappingSum (models.map (·.input))
    output := wrappingSum (models.map (·.output))
    cost := models.foldl (fun total model => total + model.cost) 0.0
    models := models }

end CostReport

end DocDrift.Store
