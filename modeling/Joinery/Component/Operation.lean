import Joinery.Catalog.Template

/-!
Operations: a process template at work on one component, with its own parameters, equipment and
progress.
-/
namespace Joinery

inductive Progress where
  | pending
  | inProgress
  | completed
  deriving DecidableEq, Repr

instance : Choice Progress where
  field := "process status"
  options := [.pending, .inProgress, .completed]
  label
    | .pending => "pending"
    | .inProgress => "in-progress"
    | .completed => "completed"

/-- An input of one operation. Whatever reads as a finite number is seen by formulas. -/
structure Parameter where
  name : String
  value : Datum
  unit : Datum
  description : Datum
  deriving BEq

/-- The minutes and the diagnostic are those of the latest calculation. -/
structure Operation where
  id : String
  template : Template
  minutes : Float
  actualTime : Option Float
  status : Progress
  notes : String
  parameters : List Parameter
  equipment : Datum
  diagnostic : Option String
  deriving BEq

namespace Operation

def readActualTime : Datum → Outcome (Option Float)
  | .null => .ok none
  | d => (d.nonNegative "actual_time").map some

def make (id : String) (template : Template) (actualTime status : Datum) (notes : String)
    (parameters : List Parameter) (equipment : Datum) : Outcome Operation := do
  let status ← Choice.read status
  let actualTime ← readActualTime actualTime
  return { id, template, minutes := 0, actualTime, status, notes, parameters, equipment,
           diagnostic := none }

def usedEquipment (p : Operation) : Datum := p.template.equipmentOr p.equipment

end Operation
end Joinery
