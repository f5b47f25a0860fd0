import Joinery.Estimate.Completion
import Joinery.Estimate.Cost
import Joinery.Estimate.Defaults

/-!
Products: components put together by steps of assembly. A product keeps the rates and parameters that
were chosen for it, and its totals are taken from its components each time that they are asked for.
-/
namespace Joinery

inductive ProductStatus where
  | designing
  | inProduction
  | completed
  deriving DecidableEq, Repr

instance : Choice ProductStatus where
  field := "product status"
  options := [.designing, .inProduction, .completed]
  label
    | .designing => "designing"
    | .inProduction => "in-production"
    | .completed => "completed"

/-- A component in its place. The quantity says how often it is fitted and has no part in any total. -/
structure Placement where
  component : Component
  quantity : Nat
  position : Datum
  order : Nat
  deriving BEq

namespace Placement

def make (component : Component) (quantity position order : Datum) : Outcome Placement := do
  let quantity ← Component.readQuantity quantity
  let order ← order.count 0 "assembly_order"
  return { component, quantity, position, order }

end Placement

/-- A step that joins components. Its time is estimated by hand. -/
structure AssemblyStep where
  id : String
  name : String
  description : String
  componentIds : List String
  estimatedTime : Float
  status : Progress
  notes : String
  deriving BEq

namespace AssemblyStep

def make (id name description : String) (componentIds : List String) (estimatedTime status : Datum)
    (notes : String) : Outcome AssemblyStep := do
  let estimatedTime ← estimatedTime.nonNegative "estimated_time"
  let status ← Choice.read status
  return { id, name, description, componentIds, estimatedTime, status, notes }

end AssemblyStep

structure Product where
  id : String
  name : String
  code : String
  description : String
  placements : List Placement
  steps : List AssemblyStep
  status : ProductStatus
  createdAt : Moment
  updatedAt : Moment
  rates : Option RateTable
  params : Option EstimateParameters

structure ProductDraft where
  id : String
  name : String
  code : String
  description : String
  placements : List Placement
  steps : List AssemblyStep
  status : Datum
  createdAt : Moment
  updatedAt : Moment

/-- Products agree in all that they hold, whatever rates and parameters were chosen for them. -/
def Product.agrees (p q : Product) : Bool :=
  p.id == q.id && p.name == q.name && p.code == q.code && p.description == q.description &&
    p.placements == q.placements && p.steps == q.steps && p.status == q.status &&
    p.createdAt == q.createdAt && p.updatedAt == q.updatedAt

instance : BEq Product := ⟨Product.agrees⟩

namespace Placement

def refresh (p : Placement) : Placement := { p with component := p.component.refresh }

def holds (id : String) (p : Placement) : Bool := p.component.id == id

end Placement

namespace Product

def components (p : Product) : List Component := p.placements.map Placement.component

def totals (defaults : Defaults) (p : Product) : Outcome ProductTotals := do
  let rates ← defaults.ratesOr p.rates
  let params ← defaults.paramsOr p.params
  Estimate.productTotals rates params p.components

def statuses (p : Product) : List Progress :=
  p.components.flatMap Component.statuses ++ p.steps.map AssemblyStep.status

def completion (p : Product) : Float := Estimate.completion p.statuses

def refresh (p : Product) : Product := { p with placements := p.placements.map Placement.refresh }

/-- A product exists only if its totals can be taken. -/
def make (defaults : Defaults) (draft : ProductDraft) : Outcome Product := do
  let status ← Choice.read draft.status
  let product := refresh {
    id := draft.id
    name := draft.name
    code := draft.code
    description := draft.description
    placements := draft.placements
    steps := draft.steps
    status
    createdAt := draft.createdAt
    updatedAt := draft.updatedAt
    rates := none
    params := none }
  discard (product.totals defaults)
  return product

def placement? (p : Product) (id : String) : Outcome Placement :=
  match p.placements.find? (Placement.holds id) with
  | some entry => .ok entry
  | none => .error (.noComponent p.id id)

end Product
end Joinery
