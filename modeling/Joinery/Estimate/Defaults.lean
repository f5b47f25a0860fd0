import Joinery.Estimate.Parameters
import Joinery.Rates

/-!
The rates and parameters that apply where none are given. They come from settings, which may be
unusable; that shows only where a default is needed.
-/
namespace Joinery

structure Defaults where
  rates : Outcome RateTable
  params : Outcome EstimateParameters

namespace Defaults

def standard : Defaults := ⟨.ok .standard, .ok .standard⟩

def ratesOr (defaults : Defaults) : Option RateTable → Outcome RateTable
  | some rates => .ok rates
  | none => defaults.rates

def paramsOr (defaults : Defaults) : Option EstimateParameters → Outcome EstimateParameters
  | some params => .ok params
  | none => defaults.params

end Defaults
end Joinery
