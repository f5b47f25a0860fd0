import Joinery.Estimate.Cost
import Joinery.Record.Reference

/-!
Records of components and of what they hold. Areas, volumes, times and diagnostics are written for
the reader of a record; whoever reads it back calculates them anew.
-/
namespace Joinery

namespace Feature

def record (f : Feature) : Datum := .object [
  ("id", .text f.id),
  ("type", .ofChoice f.type),
  ("count", .nat f.count),
  ("size", .orNull .real f.size),
  ("position", f.position),
  ("name", .text f.name),
  ("description", .text f.description)]

def ofRecord (d : Datum) : Outcome Feature := do
  let r ← d.asRecord "feature"
  let id ← r.needText "feature" "id"
  let type ← r.need "feature" "type"
  let name ← r.text "name"
  let description ← r.text "description"
  make id type (r.valueOr "count" (.int 0)) (r.value "size") (r.value "position") name description

end Feature

namespace Parameter

def record (p : Parameter) : Datum := .object [
  ("name", .text p.name),
  ("value", p.value),
  ("unit", p.unit),
  ("description", p.description)]

def ofRecord (d : Datum) : Outcome Parameter := do
  let r ← d.asRecord "process parameter"
  let name ← r.needText "process parameter" "name"
  let value ← r.need "process parameter" "value"
  return { name, value, unit := r.value "unit", description := r.value "description" }

end Parameter

namespace Operation

def record (p : Operation) : Datum := .object [
  ("id", .text p.id),
  ("template", p.template.record),
  ("calculatedTime", .real p.minutes),
  ("actualTime", .orNull .real p.actualTime),
  ("status", .ofChoice p.status),
  ("notes", .text p.notes),
  ("parameters", .list (p.parameters.map Parameter.record)),
  ("equipment", p.equipment),
  ("diagnostic", .orNull .text p.diagnostic)]

def ofRecord (known : Keyed Template) (d : Datum) : Outcome (Operation × Keyed Template) := do
  let r ← d.asRecord "process"
  let id ← r.needText "process" "id"
  let (template, known) ← Template.ofRecord known (← r.need "process" "template")
  let notes ← r.text "notes"
  let parameters ← (← r.items "parameters").mapM Parameter.ofRecord
  let equipment := (r.part? "equipment").getD .null
  let operation ← make id template (r.value "actualTime") (r.valueOr "status" (.text "pending"))
    notes parameters equipment
  return (operation, known)

end Operation

namespace Size

def record (s : Size) : Datum := .object [
  ("length", .real s.length),
  ("width", .real s.width),
  ("thickness", .real s.thickness)]

def ofRecord (d : Datum) : Outcome Size := do
  let r ← d.asRecord "component size"
  let length ← r.need "component size" "length"
  let width ← r.need "component size" "width"
  let thickness ← r.need "component size" "thickness"
  make length width thickness

end Size

namespace Component

def record (c : Component) : Outcome Datum := do
  let totalTime ← c.totalTime
  return .object [
    ("id", .text c.id),
    ("name", .text c.name),
    ("code", .text c.code),
    ("size", c.size.record),
    ("area", .real c.size.area),
    ("volume", .real c.size.volume),
    ("material", .text c.material),
    ("quantity", .nat c.quantity),
    ("complexity", .ofChoice c.complexity),
    ("features", .list (c.features.map Feature.record)),
    ("processes", .list (c.operations.map Operation.record)),
    ("edgeCount", .nat c.edgeCount),
    ("notes", .text c.notes),
    ("totalTime", .real totalTime)]

def ofFields (known : Keyed Template) (id : Datum) (r : Record) :
    Outcome (Component × Keyed Template) := do
  let size ← r.need "component" "size"
  let id ← id.asText
  let name ← r.text "name"
  let code ← r.text "code"
  let size ← Size.ofRecord size
  let material ← r.needText "component" "material"
  let features ← (← r.items "features").mapM Feature.ofRecord
  let (operations, known) ← readEach Operation.ofRecord known (← r.items "processes")
  let notes ← r.text "notes"
  let component ← make {
    id
    name
    size
    material
    quantity := r.valueOr "quantity" (.int 1)
    complexity := r.valueOr "complexity" (.text "simple")
    features
    operations
    code
    edgeCount := r.valueOr "edgeCount" (.int 0)
    notes }
  return (component, known)

/-- Reads a component beside the templates that are known so far. -/
def ofRecord (known : Keyed Template) (d : Datum) : Outcome (Component × Keyed Template) := do
  let r ← d.asRecord "component"
  let id ← r.need "component" "id"
  (ofFields known id r).within (.badComponentRecord id)

end Component
end Joinery
