import Joinery.Product

/-!
The summary of a project: counts and totals over its products.
-/
namespace Joinery.Estimate

structure ProjectSummary where
  totalProducts : Nat
  totalComponents : Nat
  totalOperations : Nat
  totalCost : Float
  totalTime : Float

def operationCount (p : Product) : Nat := (p.components.map fun c => c.operations.length).sum

def summarize (rates : RateTable) (params : EstimateParameters) (products : List Product) :
    Outcome ProjectSummary := do
  let parts ← products.mapM fun p => productTotals rates params p.components
  let totalCost ← total (parts.map ProductTotals.totalCost)
  let totalTime ← total (parts.map ProductTotals.totalTime)
  return {
    totalProducts := products.length
    totalComponents := (parts.map ProductTotals.totalComponents).sum
    totalOperations := (products.map operationCount).sum
    totalCost
    totalTime }

end Joinery.Estimate
