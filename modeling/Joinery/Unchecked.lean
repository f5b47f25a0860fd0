import Joinery.Product.Edit

/-!
Components and products as they may be while someone sets their fields past all checks: a label may be
any text, a count any whole number, and times and diagnostics may be left over from an earlier state. An
operation may also be put on several components, and is then still one operation with one time: a component
knows its operations by their places among all that there are. Operations are timed all the same. What the
rules make of a label or a count that no check would have let through is a duration with a fault, or a share
of nothing. However work on a product ends and whatever it leaves, the product is stamped then, and all its
operations are timed anew.
-/
namespace Joinery.Unchecked

structure Feature where
  id : String
  type : String
  count : Int
  size : Option Float
  position : Datum
  name : String
  description : String

structure Operation where
  id : String
  template : Template
  minutes : Float
  actualTime : Option Float
  status : String
  notes : String
  parameters : List Parameter
  equipment : Datum
  diagnostic : Option String

/-- What stands for an operation is its place, or the operation itself. -/
structure Component (ρ : Type) where
  id : String
  name : String
  size : Size
  material : String
  quantity : Int
  complexity : String
  features : List Feature
  operations : List ρ
  code : String
  edgeCount : Int
  notes : String

structure Placement (ρ : Type) where
  component : Component ρ
  quantity : Int
  position : Datum
  order : Int

structure AssemblyStep where
  id : String
  name : String
  description : String
  componentIds : List String
  estimatedTime : Float
  status : String
  notes : String

structure Product (ρ : Type) where
  id : String
  name : String
  code : String
  description : String
  placements : List (Placement ρ)
  steps : List AssemblyStep
  status : String
  createdAt : Moment
  updatedAt : Moment
  rates : Option RateTable
  params : Option EstimateParameters

abbrev Store := List Operation

/-- A product that knows its operations by their places in a store. -/
structure State where
  product : Product Nat
  store : Store

namespace Feature

def knownType? (f : Feature) : Option FeatureType :=
  Choice.options.find? fun type => Choice.label type == f.type

/-- An unknown type weighs nothing. -/
def weight (f : Feature) : Float := f.knownType?.elim 0 Joinery.Feature.weight

def countOf (type : FeatureType) (features : List Feature) : Int :=
  ((features.filter fun f => f.knownType? = some type).map Feature.count).sum

def share (f : Feature) : Outcome Float := Joinery.Feature.shareOf f.weight f.count

def factor (features : List Feature) : Outcome Float := Joinery.Feature.factorOf (features.mapM share)

end Feature

namespace Component

def subject (c : Component ρ) : Subject where
  size := c.size
  material := c.material
  complexity := complexityFactor (.text c.complexity)
  featureFactor := Feature.factor c.features
  quantity := c.quantity
  count type := Feature.countOf type c.features
  edgeCount := c.edgeCount

end Component

def Operation.timed (s : Subject) (p : Operation) : Operation :=
  let d := Duration.compute p.template p.parameters s
  { p with minutes := d.minutes, diagnostic := d.diagnostic }

namespace Component

/-- The operations of a component are timed one after the other, each where it stands. -/
def time (c : Component Nat) (store : Store) : Store :=
  c.operations.foldl (fun store place => store.modify place (Operation.timed c.subject)) store

def seen (store : Store) (c : Component Nat) : Component Operation :=
  { c with operations := c.operations.filterMap fun place => store[place]? }

def minutes (c : Component ρ) (p : Operation) : Float :=
  (Duration.compute p.template p.parameters c.subject).minutes

def processCost (rates : RateTable) (c : Component ρ) (p : Operation) : Outcome Float :=
  Estimate.costOf rates (p.template.equipmentOr p.equipment) (c.minutes p)

def totals (rates : RateTable) (c : Component Operation) : Outcome ComponentTotals :=
  Estimate.totalsOf (c.operations.mapM (c.processCost rates)) (Estimate.boardCost rates c.material c.size)
    (c.operations.map c.minutes)

end Component

namespace Placement

def seen (store : Store) (p : Placement Nat) : Placement Operation :=
  { p with component := p.component.seen store }

def holds (id : String) (p : Placement ρ) : Bool := p.component.id == id

end Placement

namespace Product

def components (p : Product ρ) : List (Component ρ) := p.placements.map Placement.component

def placement? (p : Product ρ) (id : String) : Outcome (Placement ρ) :=
  match p.placements.find? (Placement.holds id) with
  | some entry => .ok entry
  | none => .error (.noComponent p.id id)

def totals (defaults : Defaults) (p : Product Operation) : Outcome ProductTotals := do
  let rates ← defaults.ratesOr p.rates
  let params ← defaults.paramsOr p.params
  Estimate.sumUp params (← p.components.mapM (Component.totals rates))

end Product

namespace State

def seen (s : State) : Product Operation :=
  { s.product with placements := s.product.placements.map (Placement.seen s.store) }

def stamp (now : Moment) (s : State) : State :=
  { s with product := { s.product with updatedAt := now } }

/-- One component after the other, so that an operation on several has the time of the last. -/
def refresh (s : State) : State :=
  { s with store := s.product.components.foldl (fun store c => c.time store) s.store }

def recalculate (defaults : Defaults) (rates : Option RateTable) (params : Option EstimateParameters)
    (s : State) : State × Outcome ProductTotals :=
  let product :=
    { s.product with rates := rates.or s.product.rates, params := params.or s.product.params }
  let s := refresh { s with product }
  (s, s.seen.totals defaults)

end State
end Joinery.Unchecked
