import Joinery.Proofs.Product.Reach
import Joinery.Proofs.Product.Totals
import Joinery.Proofs.Record.Reading
import Joinery.Settings

/-!
Rates and parameters out of settings. Whenever settings lead to some, their fallbacks are doubles
and so can be used for any product.
-/
namespace Joinery

theorem RateTable.override_usable {t changed : RateTable} {materials equipment : Keyed Datum}
    (usable : t.Usable) (same : t.override materials equipment = .ok changed) : changed.Usable := by
  obtain ⟨_, _, made⟩ := made_of_override same
  obtain ⟨_, _, -, -, rfl⟩ := parts_of_make made
  exact ⟨usable.material, usable.equipment⟩

theorem RateTable.standard_usable : RateTable.standard.Usable := ⟨⟨_, rfl⟩, ⟨_, rfl⟩⟩

theorem EstimateParameters.standard_usable : EstimateParameters.standard.Usable :=
  ⟨⟨_, rfl⟩, ⟨_, rfl⟩⟩

namespace Settings

theorem rates_cases {settings : Record} {t : RateTable} (read : rates settings = .ok t) :
    t = .standard ∨ ∃ materials equipment, RateTable.standard.override materials equipment = .ok t := by
  unfold rates at read
  split at read
  · obtain ⟨materials, -, rest⟩ := bind_ok.mp (within_ok read)
    obtain ⟨_, -, rest⟩ := bind_ok.mp rest
    obtain ⟨equipment, -, overridden⟩ := bind_ok.mp rest
    exact Or.inr ⟨materials, equipment, overridden⟩
  · split at read
    · cases read
    · exact Or.inl (Except.ok.inj read).symm

theorem rates_usable {settings : Record} {t : RateTable} (read : rates settings = .ok t) :
    t.Usable := by
  rcases rates_cases read with rfl | ⟨_, _, overridden⟩
  · exact RateTable.standard_usable
  · exact RateTable.override_usable RateTable.standard_usable overridden

theorem params_made {settings : Record} {p : EstimateParameters} (read : params settings = .ok p) :
    ∃ x y, EstimateParameters.make (.real x) (.real y) = .ok p := by
  obtain ⟨fields, -, rest⟩ := bind_ok.mp read
  obtain ⟨⟨hourly, overhead⟩, readBoth, made⟩ := bind_ok.mp rest
  obtain ⟨n, readHourly, rest⟩ := bind_ok.mp (within_ok readBoth)
  obtain ⟨k, readOverhead, same⟩ := bind_ok.mp rest
  obtain ⟨rfl, rfl⟩ := Prod.mk.inj (Except.ok.inj same)
  obtain ⟨x, -, rfl⟩ := map_ok.mp readHourly
  obtain ⟨y, -, rfl⟩ := map_ok.mp readOverhead
  exact ⟨x, y, made⟩

theorem params_usable {settings : Record} {t : EstimateParameters} (read : params settings = .ok t) :
    t.Usable := by
  obtain ⟨x, y, made⟩ := params_made read
  obtain ⟨-, -, rfl⟩ := EstimateParameters.parts_of_make made
  exact ⟨⟨x, rfl⟩, ⟨y, rfl⟩⟩

theorem defaults_usable {settings : Outcome Record} {rates : RateTable} {params : EstimateParameters}
    (readRates : (defaults settings).rates = .ok rates)
    (readParams : (defaults settings).params = .ok params) : (defaults settings).Usable := by
  obtain ⟨_, -, fromRates⟩ := bind_ok.mp readRates
  obtain ⟨_, -, fromParams⟩ := bind_ok.mp readParams
  exact ⟨⟨rates, readRates, rates_usable fromRates⟩, ⟨params, readParams, params_usable fromParams⟩⟩

end Settings

/-! Settings for a shelf: the packaged ones without any rates of their own. -/
namespace Shelf

def settings : Outcome Record :=
  .ok (Settings.mergeFields Settings.packaged [("rate_overrides", .null)])

theorem settings_usable : (Settings.defaults settings).Usable :=
  Settings.defaults_usable (Outcome.eq_value (by decide +kernel)) (Outcome.eq_value (by decide +kernel))

end Shelf

theorem Product.defaults_of_totals {defaults : Defaults} {p : Product} {totals : ProductTotals}
    (taken : p.totals defaults = .ok totals) (rates : p.rates = none) (params : p.params = none) :
    (∃ rates, defaults.rates = .ok rates) ∧ ∃ params, defaults.params = .ok params := by
  obtain ⟨usedRates, usedParams, foundRates, foundParams, -⟩ := totals_parts taken
  rw [rates] at foundRates
  rw [params] at foundParams
  exact ⟨⟨usedRates, foundRates⟩, ⟨usedParams, foundParams⟩⟩

theorem Product.Reachable.defaults_usable {settings : Outcome Record} {p : Product}
    (reachable : p.Reachable (Settings.defaults settings)) : (Settings.defaults settings).Usable := by
  induction reachable with
  | made _ made =>
    obtain ⟨_, totals, -, rfl, taken⟩ := Product.parts_of_make made
    obtain ⟨⟨rates, readRates⟩, params, readParams⟩ := Product.defaults_of_totals taken rfl rfl
    exact Settings.defaults_usable readRates readParams
  | edited _ _ _ _ ih => exact ih
  | worked _ _ _ ih => exact ih
  | progressed _ _ _ ih => exact ih

end Joinery
