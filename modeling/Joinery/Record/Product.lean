import Joinery.Json.Reader
import Joinery.Json.Writer
import Joinery.Product
import Joinery.Record.Component

/-!
Records of products. A record states its version, of which there is one. The totals and the completion
are written for the reader of a record and are calculated anew when it is read back.
-/
namespace Joinery

namespace AssemblyStep

def record (s : AssemblyStep) : Datum := .object [
  ("id", .text s.id),
  ("name", .text s.name),
  ("description", .text s.description),
  ("componentIds", .texts s.componentIds),
  ("estimatedTime", .real s.estimatedTime),
  ("status", .ofChoice s.status),
  ("notes", .text s.notes)]

def ofRecord (d : Datum) : Outcome AssemblyStep := do
  let r ← d.asRecord "assembly process"
  let id ← r.needText "assembly process" "id"
  let name ← r.text "name"
  let description ← r.text "description"
  let componentIds ← (← r.items "componentIds").mapM Datum.asText
  let notes ← r.text "notes"
  make id name description componentIds (r.valueOr "estimatedTime" (.real 0))
    (r.valueOr "status" (.text "pending")) notes

end AssemblyStep

namespace ProductTotals

def record (t : ProductTotals) : Datum := .object [
  ("totalComponents", .nat t.totalComponents),
  ("totalTime", .real t.totalTime),
  ("materialCost", .real t.materialCost),
  ("processCost", .real t.processCost),
  ("totalCost", .real t.totalCost),
  ("laborCost", .real t.laborCost),
  ("estimatedCost", .real t.estimatedCost)]

end ProductTotals

namespace Placement

def record (p : Placement) : Outcome Datum := do
  let component ← p.component.record
  return .object [
    ("component", component),
    ("quantity", .nat p.quantity),
    ("position", p.position),
    ("assemblyOrder", .nat p.order)]

def ofRecord (known : Keyed Template) (d : Datum) : Outcome (Placement × Keyed Template) := do
  let r ← d.asRecord "product component"
  let (component, known) ← Component.ofRecord known (← r.need "product component" "component")
  let entry ← make component (r.valueOr "quantity" (.int 1)) (r.value "position")
    (r.valueOr "assemblyOrder" (.int 0))
  return (entry, known)

end Placement

namespace Product

def recordVersion : Int := 1

/-- The version may be written as any number of that size; true counts as one. -/
def isRecordVersion : Datum → Bool
  | .bool b => b
  | .int n => n == recordVersion
  | .real x => x == 1
  | _ => false

def record (defaults : Defaults) (p : Product) : Outcome Datum := do
  let totals ← p.totals defaults
  let components ← p.placements.mapM Placement.record
  return .object [
    ("version", .int recordVersion),
    ("id", .text p.id),
    ("name", .text p.name),
    ("code", .text p.code),
    ("description", .text p.description),
    ("status", .ofChoice p.status),
    ("components", .list components),
    ("assemblyProcesses", .list (p.steps.map AssemblyStep.record)),
    ("createdAt", p.createdAt.record),
    ("updatedAt", p.updatedAt.record),
    ("totals", totals.record),
    ("completion", .real p.completion)]

def ofFields (defaults : Defaults) (id : Datum) (r : Record) : Outcome Product := do
  let (placements, _) ← readEach Placement.ofRecord [] (← r.items "components")
  let id ← id.asText
  let name ← r.text "name"
  let code ← r.text "code"
  let description ← r.text "description"
  let steps ← (← r.items "assemblyProcesses").mapM AssemblyStep.ofRecord
  let createdAt ← (← r.need "product" "createdAt").moment "createdAt"
  let updatedAt ← (← r.need "product" "updatedAt").moment "updatedAt"
  make defaults {
    id
    name
    code
    description
    placements
    steps
    status := r.valueOr "status" (.text "designing")
    createdAt
    updatedAt }

def ofRecord (defaults : Defaults) (d : Datum) : Outcome Product := do
  let r ← d.asRecord "product"
  let id ← r.need "product" "id"
  let version := r.valueOr "version" (.int recordVersion)
  if isRecordVersion version then (ofFields defaults id r).within (.badProductRecord id)
  else refuse (.badRecordVersion version id)

/-! Products as JSON texts. -/

/-- Without an indent the text is one line. -/
def write (defaults : Defaults) (indent : Option Nat) (p : Product) : Outcome String :=
  (p.record defaults).map (Json.write (Json.recordLayout indent))

def read (defaults : Defaults) (text : String) : Outcome Product :=
  (Json.read .malformedProduct text).bind (ofRecord defaults)

def usualIndent : Nat := 2

end Product
end Joinery
