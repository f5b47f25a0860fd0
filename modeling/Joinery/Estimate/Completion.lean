import Joinery.Component
import Joinery.Number.Hundredths

/-!
Progress: the completed share of a list of steps in percent, and the status that follows from it.
-/
namespace Joinery.Estimate
open Number

def ratio (part whole : Nat) : Float := nearest part 0 / nearest whole 0

def completion (statuses : List Progress) : Float :=
  if statuses.isEmpty then 0
  else roundHundredths (ratio (statuses.count .completed) statuses.length * 100)

end Joinery.Estimate

namespace Joinery.Component

def statuses (c : Component) : List Progress := c.operations.map Operation.status

def completion (c : Component) : Float := Estimate.completion c.statuses

def status (c : Component) : Progress :=
  if 100 ≤ c.completion then .completed
  else if 0 < c.completion then .inProgress
  else .pending

end Joinery.Component
