import Joinery.Catalog.Template
import Joinery.Keyed
import Joinery.Record.Field

/-!
Records of the reference data: variables, logics, efficiencies and templates. What is written is read
back as it was. A template is read once for each id: later records with an id that is already known
stand for the known template, whatever else they hold.
-/
namespace Joinery

def spellZone (cs : List Char) : List Char :=
  if cs.getLast? = some 'Z' then cs.dropLast ++ "+00:00".toList else cs

/-- ISO 8601, where a final `Z` stands for universal time. -/
def Datum.moment (field : String) (d : Datum) : Outcome Moment := do
  match Moment.read? (.ofList (spellZone (Text.trim (← d.givenText)).toList)) with
  | some m => return m
  | none => .error (.notADate field d)

def Moment.record (m : Moment) : Datum := .text m.text

namespace Variable

def record (v : Variable) : Datum := .object [
  ("name", .text v.name),
  ("kind", .ofChoice v.kind),
  ("unit", .text v.unit),
  ("description", .text v.description),
  ("defaultValue", .orNull .number v.fallback),
  ("minValue", .orNull .number v.least),
  ("maxValue", .orNull .number v.most)]

def ofRecord (d : Datum) : Outcome Variable := do
  let r ← d.asRecord "variable"
  let name ← r.needText "variable" "name"
  let unit ← r.text "unit"
  let description ← r.text "description"
  let fallback ← r.amount? "defaultValue"
  let least ← r.amount? "minValue"
  let most ← r.amount? "maxValue"
  make name (r.valueOr "kind" (.text "custom")) unit description fallback least most

end Variable

namespace Logic

def record (l : Logic) : Datum := .object [
  ("id", .text l.id),
  ("name", .text l.name),
  ("formula", .text l.formula),
  ("variables", .list (l.used.map Variable.record)),
  ("description", .text l.description),
  ("isDefault", .bool l.isDefault)]

def ofRecord (d : Datum) : Outcome Logic := do
  let r ← d.asRecord "calculation logic"
  let id ← r.needText "calculation logic" "id"
  let name ← r.text "name"
  let formula ← r.needText "calculation logic" "formula"
  let used ← (← r.items "variables").mapM Variable.ofRecord
  let description ← r.text "description"
  return { id, name, formula, used, description, isDefault := (r.value "isDefault").isGiven }

end Logic

namespace Efficiency

def record (e : Efficiency) : Datum := .object [
  ("id", .text e.id),
  ("processName", .text e.processName),
  ("baseTime", .number e.baseTime),
  ("sizeFactor", .number e.sizeFactor),
  ("complexityFactor", .number e.complexityFactor),
  ("unit", .ofChoice e.unit),
  ("description", .text e.description)]

def ofRecord (d : Datum) : Outcome Efficiency := do
  let r ← d.asRecord "efficiency config"
  let id ← r.needText "efficiency config" "id"
  let processName ← r.text "processName"
  let baseTime ← (← r.need "efficiency config" "baseTime").toFloat
  let sizeFactor ← (← r.need "efficiency config" "sizeFactor").toFloat
  let complexityFactor ← (r.valueOr "complexityFactor" (.real 1)).toFloat
  let description ← r.text "description"
  make id processName (.real baseTime) (.real sizeFactor) (.real complexityFactor)
    (r.valueOr "unit" (.text "minute")) description

end Efficiency

namespace Template

def record (t : Template) : Datum := .object [
  ("id", .text t.id),
  ("code", .text t.code),
  ("name", .text t.name),
  ("category", .ofChoice t.category),
  ("calculationLogic", .orNull Logic.record t.logic),
  ("strategy", .ofChoice t.strategy),
  ("efficiency", .orNull Efficiency.record t.efficiency),
  ("requiredEquipment", .texts t.equipment),
  ("requiredMaterials", .texts t.materials),
  ("isActive", .bool t.isActive),
  ("description", .text t.description),
  ("createdAt", t.createdAt.record),
  ("updatedAt", t.updatedAt.record)]

def ofNewRecord (id : String) (r : Record) : Outcome Template := do
  let code ← r.needText "process template" "code"
  let name ← r.text "name"
  let category ← r.need "process template" "category"
  let logic ← (r.part? "calculationLogic").mapM Logic.ofRecord
  let efficiency ← (r.part? "efficiency").mapM Efficiency.ofRecord
  let equipment ← r.items "requiredEquipment"
  let materials ← r.items "requiredMaterials"
  let description ← r.text "description"
  let createdAt ← (← r.need "process template" "createdAt").moment "createdAt"
  let updatedAt ← (← r.need "process template" "updatedAt").moment "updatedAt"
  make {
    id
    code
    name
    category
    logic
    strategy := r.valueOr "strategy" (.text "formula")
    efficiency
    equipment := .list equipment
    materials := .list materials
    isActive := (r.valueOr "isActive" (.bool true)).isGiven
    description
    createdAt
    updatedAt }

/-- Reads a record beside the templates that are known so far, and adds to them what it reads. -/
def ofRecord (known : Keyed Template) (d : Datum) : Outcome (Template × Keyed Template) := do
  let r ← d.asRecord "process template"
  let id ← r.needText "process template" "id"
  match known.get? id with
  | some t => return (t, known)
  | none =>
    let t ← ofNewRecord id r
    return (t, known.set id t)

end Template
end Joinery
