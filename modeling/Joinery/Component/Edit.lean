import Joinery.Component.Calculation
import Joinery.Identity

/-!
Edits of a component. Every edit but that of an operation's progress ends with all times calculated
anew. A refused edit changes nothing, except that the update of an operation keeps what it had changed
before it came to a bad actual time.
-/
namespace Joinery

def settle (before : σ) (give : α → β) : Outcome (σ × α) → σ × Outcome β
  | .ok (after, a) => (after, .ok (give a))
  | .error f => (before, .error f)

def settleQuietly (before : σ) (nothing : β) : Outcome σ → σ × Outcome β
  | .ok after => (after, .ok nothing)
  | .error f => (before, .error f)

namespace Component

inductive Edit where
  | resize (length width thickness : Datum)
  | setMaterial (material : String)
  | setComplexity (label : Datum)
  | setQuantity (quantity : Datum)
  | setEdgeCount (edgeCount : Datum)
  | addFeature (id : String) (type count size position : Datum) (name : String)
  | setFeatureCount (id : String) (count : Datum)
  | removeFeature (id : String)
  | addOperation (id : String) (template : Template) (parameters : List Parameter)
      (equipment status : Datum) (notes : String)
  | updateOperation (id : String) (template : Option Template) (parameters : Option (List Parameter))
      (equipment actualTime : Datum)
  | removeOperation (id : String)
  | setProgress (id : String) (status : Datum)
  | recalculate

inductive Edited where
  | nothing
  | feature (f : Feature)
  | operation (p : Operation)

def hasId (id : String) (p : Operation) : Bool := p.id == id

def featureHasId (id : String) (f : Feature) : Bool := f.id == id

def orKept (d : Datum) (x : Float) : Datum :=
  match d with
  | .null => .real x
  | d => d

def resize (length width thickness : Datum) (c : Component) : Outcome Component := do
  let size ← Size.make (orKept length c.size.length) (orKept width c.size.width)
    (orKept thickness c.size.thickness)
  return refresh { c with size }

def setMaterial (material : String) (c : Component) : Component := refresh { c with material }

def setComplexity (label : Datum) (c : Component) : Outcome Component := do
  let complexity ← Choice.read label
  return refresh { c with complexity }

def setQuantity (quantity : Datum) (c : Component) : Outcome Component := do
  let quantity ← readQuantity quantity
  return refresh { c with quantity }

def setEdgeCount (edgeCount : Datum) (c : Component) : Outcome Component := do
  let edgeCount ← readEdgeCount edgeCount
  return refresh { c with edgeCount }

def addFeature (id : String) (type count size position : Datum) (name : String) (c : Component) :
    Outcome (Component × Feature) := do
  let f ← Feature.make (idOrFresh id "feature" (c.features.map Feature.id)) type count size position
    name ""
  return (refresh { c with features := c.features ++ [f] }, f)

def setFeatureCount (id : String) (count : Datum) (c : Component) : Outcome Component := do
  let count ← Feature.readCount count
  discard (c.feature? id)
  let features := changeFirst (featureHasId id) (fun f => { f with count }) c.features
  return refresh { c with features }

def removeFeature (id : String) (c : Component) : Outcome (Component × Feature) := do
  let f ← c.feature? id
  return (refresh { c with features := c.features.eraseP (featureHasId id) }, f)

def addOperation (id : String) (template : Template) (parameters : List Parameter)
    (equipment status : Datum) (notes : String) (c : Component) : Outcome (Component × Operation) := do
  let id := idOrFresh id (Text.lower template.code) (c.operations.map Operation.id)
  let p ← Operation.make id template .null status notes parameters equipment
  return (refresh { c with operations := c.operations ++ [p] }, p.timed c)

def removeOperation (id : String) (c : Component) : Outcome (Component × Operation) := do
  let p ← c.operation? id
  return (refresh { c with operations := c.operations.eraseP (hasId id) }, p)

def changeOperation (id : String) (f : Operation → Operation) (c : Component) : Component :=
  { c with operations := changeFirst (hasId id) f c.operations }

def setProgress (id : String) (status : Datum) (c : Component) : Outcome Component := do
  discard (c.operation? id)
  let status ← Choice.read status
  return c.changeOperation id fun p => { p with status }

/-- Equipment that is given but empty takes away what was there. -/
def updatedEquipment (old : Datum) : Datum → Datum
  | .null => old
  | d => if d.isGiven then d else .null

def updated (template : Option Template) (parameters : Option (List Parameter)) (equipment : Datum)
    (p : Operation) : Operation :=
  { p with
    template := template.getD p.template
    parameters := parameters.getD p.parameters
    equipment := updatedEquipment p.equipment equipment }

def withActualTime (time : Option Float) (p : Operation) : Operation :=
  { p with actualTime := time.or p.actualTime }

/-- The actual time is read when the rest is already changed. -/
def updateOperation (id : String) (template : Option Template) (parameters : Option (List Parameter))
    (equipment actualTime : Datum) (c : Component) : Component × Outcome Operation :=
  match c.operation? id with
  | .error f => (c, .error f)
  | .ok p =>
    let p := updated template parameters equipment p
    match Operation.readActualTime actualTime with
    | .error f => (c.changeOperation id fun _ => p, .error f)
    | .ok time =>
      let p := withActualTime time p
      (refresh (c.changeOperation id fun _ => p), .ok (p.timed c))

namespace Edit

def apply (c : Component) : Edit → Component × Outcome Edited
  | .resize length width thickness => settleQuietly c .nothing (c.resize length width thickness)
  | .setMaterial material => (c.setMaterial material, .ok .nothing)
  | .setComplexity label => settleQuietly c .nothing (c.setComplexity label)
  | .setQuantity quantity => settleQuietly c .nothing (c.setQuantity quantity)
  | .setEdgeCount edgeCount => settleQuietly c .nothing (c.setEdgeCount edgeCount)
  | .addFeature id type count size position name =>
    settle c .feature (c.addFeature id type count size position name)
  | .setFeatureCount id count => settleQuietly c .nothing (c.setFeatureCount id count)
  | .removeFeature id => settle c .feature (c.removeFeature id)
  | .addOperation id template parameters equipment status notes =>
    settle c .operation (c.addOperation id template parameters equipment status notes)
  | .updateOperation id template parameters equipment actualTime =>
    match c.updateOperation id template parameters equipment actualTime with
    | (changed, outcome) => (changed, outcome.map .operation)
  | .removeOperation id => settle c .operation (c.removeOperation id)
  | .setProgress id status => settleQuietly c .nothing (c.setProgress id status)
  | .recalculate => (c.refresh, .ok .nothing)

end Edit
end Component
end Joinery
