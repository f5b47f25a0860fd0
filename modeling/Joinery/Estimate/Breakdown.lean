import Joinery.Product

/-!
Tables over a product: one row for each operation with its time and cost, and one row for each component
with its totals. The amounts are those that the totals are summed from.
-/
namespace Joinery.Estimate
open Number

structure OperationRow where
  component : String
  code : String
  name : String
  strategy : Strategy
  equipment : Datum
  minutes : Float
  hours : Float
  rate : Float
  cost : Float
  status : Progress
  isOk : Bool

structure ComponentRow where
  component : String
  name : String
  material : String
  quantity : Nat
  perProduct : Nat
  operations : Nat
  totals : ComponentTotals
  completion : Float

def operationRow (rates : RateTable) (c : Component) (p : Operation) : Outcome OperationRow := do
  let duration := Duration.compute p.template p.parameters c
  let rate ← rates.equipmentRate p.usedEquipment
  let cost ← processCost rates c p
  return {
    component := c.id
    code := p.template.code
    name := p.template.name
    strategy := (Duration.Rule.ofTemplate p.template).strategy
    equipment := if p.usedEquipment.isGiven then p.usedEquipment else .text ""
    minutes := duration.minutes
    hours := roundHundredths (duration.minutes / Duration.minutesPerHour)
    rate
    cost
    status := p.status
    isOk := duration.isOk }

def componentRows (rates : RateTable) (c : Component) : Outcome (List OperationRow) :=
  c.operations.mapM (operationRow rates c)

def operationRows (rates : RateTable) (p : Product) : Outcome (List OperationRow) :=
  (p.components.mapM (componentRows rates)).map List.flatten

def componentRow (rates : RateTable) (entry : Placement) : Outcome ComponentRow := do
  let totals ← componentTotals rates entry.component
  return {
    component := entry.component.id
    name := entry.component.name
    material := entry.component.material
    quantity := entry.component.quantity
    perProduct := entry.quantity
    operations := entry.component.operations.length
    totals
    completion := entry.component.completion }

def componentSummary (rates : RateTable) (p : Product) : Outcome (List ComponentRow) :=
  p.placements.mapM (componentRow rates)

structure Table where
  columns : List String
  rows : List (List Datum)

def OperationRow.cells (r : OperationRow) : List Datum :=
  [.text r.component, .text r.code, .text r.name, .ofChoice r.strategy, r.equipment, .real r.minutes,
    .real r.hours, .real r.rate, .real r.cost, .ofChoice r.status, .bool r.isOk]

def ComponentRow.cells (r : ComponentRow) : List Datum :=
  [.text r.component, .text r.name, .text r.material, .nat r.quantity, .nat r.perProduct,
    .nat r.operations, .real r.totals.totalTime, .real r.totals.materialCost,
    .real r.totals.processCost, .real r.totals.totalCost, .real r.completion]

def operationTable (rows : List OperationRow) : Table :=
  ⟨["component", "code", "process", "strategy", "equipment", "minutes", "hours", "rate", "cost",
    "status", "ok"], rows.map OperationRow.cells⟩

def componentTable (rows : List ComponentRow) : Table :=
  ⟨["component", "name", "material", "quantity", "per_product", "processes", "total_time",
    "material_cost", "process_cost", "total_cost", "completion"], rows.map ComponentRow.cells⟩

end Joinery.Estimate
