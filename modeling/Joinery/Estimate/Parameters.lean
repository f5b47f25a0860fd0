import Joinery.Datum.Measure

/-!
The price of an hour of labour, and the share that overheads add to all costs.
-/
namespace Joinery

structure EstimateParameters where
  hourlyRate : Numeral
  overheadRate : Numeral

namespace EstimateParameters

def checkRate (name : String) (n : Numeral) : Outcome Unit :=
  if n.below (.whole 0) then refuse (.negativeParameter name n) else .ok ()

def make (hourlyRate overheadRate : Numeral) : Outcome EstimateParameters := do
  checkRate "hourly_rate" hourlyRate
  checkRate "overhead_rate" overheadRate
  return { hourlyRate, overheadRate }

def usualHourlyRate : Float := 50
def usualOverheadRate : Float := 0.2

def standard : EstimateParameters where
  hourlyRate := .real usualHourlyRate
  overheadRate := .real usualOverheadRate

end EstimateParameters
end Joinery
