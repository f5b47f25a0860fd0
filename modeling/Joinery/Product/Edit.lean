import Joinery.Component.Edit
import Joinery.Product

/-!
Edits of a product. Whatever changes which components there are, or one of them from within the product,
stamps the product, calculates all times anew and takes the totals once, so that totals which cannot be
taken are reported by the edit that made them so. The edit itself stays.
-/
namespace Joinery

/-- Work on one component: it may fail and may still have changed the component. -/
abbrev Component.Work (α : Type) := Component → Component × Outcome α

namespace Product

inductive Edit (α : Type) where
  | addComponent (component : Component) (quantity position order : Datum)
  | removeComponent (id : String)
  /-- Work within the product, which is stamped however the work ends. -/
  | within (id : String) (work : Component.Work α)
  /-- Work past the product, which is not stamped and not calculated anew. -/
  | past (id : String) (work : Component.Work α)
  | addStep (id name description : String) (componentIds : List String) (estimatedTime : Datum)
  | setStepProgress (id : String) (status : Datum)
  | setStatus (status : Datum)
  | recalculate (rates : Option RateTable) (params : Option EstimateParameters)

inductive Edited (α : Type) where
  | nothing
  | placement (p : Placement)
  | component (c : Component)
  | work (a : α)
  | step (s : AssemblyStep)
  | totals (t : ProductTotals)

def stamp (now : Moment) (p : Product) : Product := { p with updatedAt := now }

/-- Ends an edit: the product timed afresh, and the result of the edit unless the totals cannot be taken. -/
def settle (defaults : Defaults) (p : Product) (result : Outcome α) : Product × Outcome α :=
  (p.refresh, (p.refresh.totals defaults).bind fun _ => result)

def orderOrNext (p : Product) : Datum → Datum
  | .null => .nat (p.placements.length + 1)
  | d => d

def place (p : Product) (component : Component) (quantity position order : Datum) :
    Outcome Placement :=
  if p.placements.any (Placement.holds component.id) then
    .error (.repeatedComponent p.id component.id)
  else Placement.make component quantity position (p.orderOrNext order)

def addComponent (defaults : Defaults) (now : Moment) (component : Component)
    (quantity position order : Datum) (p : Product) : Product × Outcome Placement :=
  match p.place component quantity position order with
  | .error f => (p, .error f)
  | .ok entry =>
    settle defaults (stamp now { p with placements := p.placements ++ [entry] }) (.ok entry)

def removeComponent (defaults : Defaults) (now : Moment) (id : String) (p : Product) :
    Product × Outcome Component :=
  match p.placement? id with
  | .error f => (p, .error f)
  | .ok entry =>
    settle defaults (stamp now { p with placements := p.placements.eraseP (Placement.holds id) })
      (.ok entry.component)

def replaceComponent (id : String) (component : Component) (p : Product) : Product :=
  { p with
    placements := changeFirst (Placement.holds id) (fun entry => { entry with component }) p.placements }

def workPast (id : String) (work : Component.Work α) (p : Product) : Product × Outcome α :=
  match p.placement? id with
  | .error f => (p, .error f)
  | .ok entry =>
    let (component, result) := work entry.component
    (p.replaceComponent id component, result)

def workWithin (defaults : Defaults) (now : Moment) (id : String) (work : Component.Work α)
    (p : Product) : Product × Outcome α :=
  match p.placement? id with
  | .error f => (p, .error f)
  | .ok entry =>
    let (component, result) := work entry.component
    settle defaults (stamp now (p.replaceComponent id component)) result

def addStep (now : Moment) (id name description : String) (componentIds : List String)
    (estimatedTime : Datum) (p : Product) : Outcome (Product × AssemblyStep) := do
  let id := idOrFresh id "assembly" (p.steps.map AssemblyStep.id)
  let step ← AssemblyStep.make id name description componentIds estimatedTime (.text "pending") ""
  return (stamp now { p with steps := p.steps ++ [step] }, step)

def setStepProgress (id : String) (status : Datum) (p : Product) : Outcome Product := do
  let status ← Choice.read status
  return { p with steps := changeFirst (fun s => s.id == id) (fun s => { s with status }) p.steps }

def setStatus (now : Moment) (status : Datum) (p : Product) : Outcome Product := do
  let status ← Choice.read status
  return stamp now { p with status }

/-- Keeps the rates and parameters that are given, for this and all later totals. -/
def recalculate (defaults : Defaults) (rates : Option RateTable) (params : Option EstimateParameters)
    (p : Product) : Product × Outcome ProductTotals :=
  let p := refresh { p with rates := rates.or p.rates, params := params.or p.params }
  (p, p.totals defaults)

namespace Edit

def give (f : β → Edited α) : Product × Outcome β → Product × Outcome (Edited α)
  | (p, result) => (p, result.map f)

def apply (defaults : Defaults) (now : Moment) (p : Product) : Edit α → Product × Outcome (Edited α)
  | .addComponent component quantity position order =>
    give .placement (p.addComponent defaults now component quantity position order)
  | .removeComponent id => give .component (p.removeComponent defaults now id)
  | .within id work => give .work (p.workWithin defaults now id work)
  | .past id work => give .work (p.workPast id work)
  | .addStep id name description componentIds estimatedTime =>
    Joinery.settle p .step (p.addStep now id name description componentIds estimatedTime)
  | .setStepProgress id status => settleQuietly p .nothing (p.setStepProgress id status)
  | .setStatus status => settleQuietly p .nothing (p.setStatus now status)
  | .recalculate rates params => give .totals (p.recalculate defaults rates params)

end Edit
end Product
end Joinery
