import Joinery.Component.Calculation
import Joinery.Estimate.Defaults
import Joinery.Estimate.Sum
import Joinery.Rates

/-!
Costs of components and of products, each taken from sizes, features, templates and rates alone.
-/
namespace Joinery
open Number

structure ComponentTotals where
  totalTime : Float
  materialCost : Float
  processCost : Float
  totalCost : Float

structure ProductTotals where
  totalComponents : Nat
  totalTime : Float
  materialCost : Float
  processCost : Float
  totalCost : Float
  laborCost : Float
  estimatedCost : Float

namespace Estimate

def minutes (c : Component) (p : Operation) : Float :=
  (Duration.compute p.template p.parameters c).minutes

def costOfMinutes (rate minutes : Float) : Float :=
  roundHundredths (rate * minutes / Duration.minutesPerHour)

def costOf (rates : RateTable) (equipment : Datum) (minutes : Float) : Outcome Float :=
  (rates.equipmentRate equipment).map fun rate => costOfMinutes rate minutes

def processCost (rates : RateTable) (c : Component) (p : Operation) : Outcome Float :=
  costOf rates p.usedEquipment (minutes c p)

def thickBoardCostFactor : Float := 1.5

def boardCost (rates : RateTable) (material : String) (size : Size) : Outcome Float :=
  (rates.materialPrice (.text material)).map fun price =>
    let cost := size.squareMetres * price
    roundHundredths (if Duration.thickBoard < size.thickness then cost * thickBoardCostFactor else cost)

def materialCost (rates : RateTable) (c : Component) : Outcome Float := boardCost rates c.material c.size

def totalsOf (costs : Outcome (List Float)) (materialCost : Outcome Float) (minutes : List Float) :
    Outcome ComponentTotals := do
  let processCost ← sum (← costs)
  let materialCost ← materialCost
  let totalTime ← total minutes
  return {
    totalTime
    materialCost
    processCost := roundHundredths processCost
    totalCost := roundHundredths (materialCost + processCost) }

def componentTotals (rates : RateTable) (c : Component) : Outcome ComponentTotals :=
  totalsOf (c.operations.mapM (processCost rates c)) (materialCost rates c) (c.operations.map (minutes c))

def labor (params : EstimateParameters) (totalTime materialCost : Float) : Outcome (Float × Float) := do
  let hourlyRate ← params.hourlyRate.toFloat
  let overheadRate ← params.overheadRate.toFloat
  let labor := totalTime / Duration.minutesPerHour * hourlyRate
  let estimated := (materialCost + labor) * (1 + overheadRate)
  return (roundHundredths labor, roundHundredths estimated)

def sumUp (params : EstimateParameters) (parts : List ComponentTotals) : Outcome ProductTotals := do
  let totalTime ← total (parts.map ComponentTotals.totalTime)
  let materialCost ← total (parts.map ComponentTotals.materialCost)
  let (laborCost, estimatedCost) ← labor params totalTime materialCost
  let processCost ← total (parts.map ComponentTotals.processCost)
  let totalCost ← total (parts.map ComponentTotals.totalCost)
  return {
    totalComponents := parts.length
    totalTime
    materialCost
    processCost
    totalCost
    laborCost
    estimatedCost }

def productTotals (rates : RateTable) (params : EstimateParameters) (components : List Component) :
    Outcome ProductTotals := do
  sumUp params (← components.mapM (componentTotals rates))

/-- What the costs of components, each taken alone and then as totals, and the totals over all of them
leave in the log. Rates that are not given are loaded before the first cost, parameters before the totals
over all. -/
def costsLog (defaults : Defaults) (loading : Log) (rates : Option RateTable)
    (params : Option EstimateParameters) (components : List Component) : Log :=
  let each := components.flatMap fun c => c.durationLog ++ c.durationLog
  let all :=
    if (defaults.paramsOr params).isOk then components.flatMap Component.durationLog else []
  match rates with
  | some _ => each ++ loading ++ all
  | none => loading ++ if defaults.rates.isOk then each ++ all else []

end Estimate

namespace Component

def totalTime (c : Component) : Outcome Float :=
  Estimate.total (c.operations.map Operation.minutes)

end Component
end Joinery
