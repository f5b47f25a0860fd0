import Joinery.Fault
import Joinery.Number.Hundredths

/-!
Exact sums, which fail only past the largest double, and their rounding to hundredths.
-/
namespace Joinery.Estimate
open Number

def sum (xs : List Float) : Outcome Float :=
  match sum? xs with
  | some x => .ok x
  | none => .error .sumTooLarge

def total (xs : List Float) : Outcome Float := (sum xs).map roundHundredths

end Joinery.Estimate
