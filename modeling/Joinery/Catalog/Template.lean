import Joinery.Catalog.Logic
import Joinery.Moment
import Joinery.Text.Casing.Upper

/-!
Process templates: reusable steps of manufacture, and the rule that times each of them.
-/
namespace Joinery

inductive TimeUnit where
  | minute
  | hour
  deriving DecidableEq, Repr

instance : Choice TimeUnit where
  field := "time unit"
  options := [.minute, .hour]
  label
    | .minute => "minute"
    | .hour => "hour"

/-- A base time and a time per square metre, where the latter grows with the complexity. -/
structure Efficiency where
  id : String
  processName : String
  baseTime : Numeral
  sizeFactor : Numeral
  complexityFactor : Numeral
  unit : TimeUnit
  description : String
  deriving BEq

def Efficiency.make (id processName : String) (baseTime sizeFactor complexityFactor : Numeral)
    (unit : Datum) (description : String) : Outcome Efficiency := do
  let unit ← Choice.read unit
  return { id, processName, baseTime, sizeFactor, complexityFactor, unit, description }

inductive Category where
  | cutting
  | drilling
  | edging
  | sanding
  | assembly
  | finishing
  | inspection
  deriving DecidableEq, Repr

instance : Choice Category where
  field := "process category"
  options := [.cutting, .drilling, .edging, .sanding, .assembly, .finishing, .inspection]
  label
    | .cutting => "cutting"
    | .drilling => "drilling"
    | .edging => "edging"
    | .sanding => "sanding"
    | .assembly => "assembly"
    | .finishing => "finishing"
    | .inspection => "inspection"

inductive Strategy where
  | formula
  | heuristic
  | efficiency
  deriving DecidableEq, Repr

instance : Choice Strategy where
  field := "duration strategy"
  options := [.formula, .heuristic, .efficiency]
  label
    | .formula => "formula"
    | .heuristic => "heuristic"
    | .efficiency => "efficiency"

structure Template where
  id : String
  code : String
  name : String
  category : Category
  logic : Option Logic
  strategy : Strategy
  efficiency : Option Efficiency
  equipment : List String
  materials : List String
  isActive : Bool
  description : String
  createdAt : Moment
  updatedAt : Moment
  deriving BEq

/-- A template as it is asked for, before its labels and lists are read. -/
structure TemplateDraft where
  id : String
  code : String
  name : String
  category : Datum
  logic : Option Logic
  strategy : Datum
  efficiency : Option Efficiency
  equipment : Datum
  materials : Datum
  isActive : Bool
  description : String
  createdAt : Moment
  updatedAt : Moment

/-- The names in a list, trimmed, each once; blank ones do not count. -/
def distinctNames (items : List Datum) : Outcome (List String) :=
  (items.mapM Datum.asText).map fun names => ((names.map Text.trim).filter (· != "")).eraseDups

namespace Template

def make (draft : TemplateDraft) : Outcome Template := do
  let category ← Choice.read draft.category
  let strategy ← Choice.read draft.strategy
  let equipment ← distinctNames (← draft.equipment.elements)
  let materials ← distinctNames (← draft.materials.elements)
  if Text.trim draft.code = "" then .error (.noTemplateCode draft.name)
  return {
    id := draft.id
    code := draft.code
    name := draft.name
    category
    logic := draft.logic
    strategy
    efficiency := draft.efficiency
    equipment
    materials
    isActive := draft.isActive
    description := draft.description
    createdAt := draft.createdAt
    updatedAt := draft.updatedAt }

def draft (t : Template) : TemplateDraft where
  id := t.id
  code := t.code
  name := t.name
  category := .text (Choice.label t.category)
  logic := t.logic
  strategy := .text (Choice.label t.strategy)
  efficiency := t.efficiency
  equipment := .list (t.equipment.map .text)
  materials := .list (t.materials.map .text)
  isActive := t.isActive
  description := t.description
  createdAt := t.createdAt
  updatedAt := t.updatedAt

/-- A template with changes, as of now unless they say otherwise. -/
def revise (now : Moment) (change : TemplateDraft → TemplateDraft) (t : Template) : Outcome Template :=
  make (change { t.draft with updatedAt := now })

def primaryEquipment (t : Template) : Option String := t.equipment.head?

/-- The equipment that an operation names itself, or else the first that its template requires. -/
def equipmentOr (t : Template) (own : Datum) : Datum :=
  if own.isGiven then own
  else match t.primaryEquipment with
    | some name => .text name
    | none => .null

def byCode (templates : List Template) (code : Datum) : Outcome Template := do
  let wanted := Text.upper (Text.trim (← code.givenText))
  match templates.find? fun t => Text.upper t.code == wanted with
  | some t => return t
  | none => .error (.unknownTemplate code)

def defaultLogic (templates : List Template) (category : Datum) : Outcome (Option Logic) := do
  let wanted ← (Choice.read category : Outcome Category)
  let logics := (templates.filter fun t => t.category = wanted).filterMap Template.logic
  return (logics.find? Logic.isDefault).or logics.head?

end Template
end Joinery
