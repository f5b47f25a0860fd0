import Joinery.Duration

/-!
Making components, and keeping the times of their operations in step with everything else in them.
-/
namespace Joinery

def Operation.timed (c : Component) (p : Operation) : Operation :=
  let d := Duration.compute p.template p.parameters c
  { p with minutes := d.minutes, diagnostic := d.diagnostic }

structure ComponentDraft where
  id : String
  name : String
  size : Size
  material : String
  quantity : Datum
  complexity : Datum
  features : List Feature
  operations : List Operation
  code : String
  edgeCount : Datum
  notes : String

namespace Component

def refresh (c : Component) : Component :=
  { c with operations := c.operations.map (Operation.timed c) }

def durationLog (c : Component) : Log :=
  c.operations.flatMap fun p => Duration.computeLog p.template p.parameters c

def readQuantity (d : Datum) : Outcome Nat := d.count 1 "quantity"

def readEdgeCount (d : Datum) : Outcome Nat := d.count 0 "edge_count"

def make (draft : ComponentDraft) : Outcome Component := do
  let quantity ← readQuantity draft.quantity
  let edgeCount ← readEdgeCount draft.edgeCount
  let complexity ← Choice.read draft.complexity
  return refresh {
    id := draft.id
    name := draft.name
    size := draft.size
    material := draft.material
    quantity
    complexity
    features := draft.features
    operations := draft.operations
    code := draft.code
    edgeCount
    notes := draft.notes }

end Component
end Joinery
