import Joinery.Proofs.Duration.Unbound
import Joinery.Proofs.Number.Hundredths

/-!
Durations of no minutes for formulas that have a value. Minutes are rounded to hundredths, so that small
values vanish, and so do those that have too many hundredths. The duration does not say so: its note is
that of the formula.
-/
namespace Joinery
open Number Formula

namespace Duration

/-- No minutes, and nothing that tells why. -/
structure SilentZero (d : Duration) : Prop where
  none : (d.minutes == 0) = true
  isOk : d.isOk = true
  unnoted : d.diagnostic = Option.none

theorem finite_of_evaluateFormula {catalog : Catalog} {formula : String} {parameters : List Parameter}
    {c : Component} {v : Float} {n : Nat}
    (evaluated : evaluateFormula catalog formula parameters c = .ok (.value v n)) :
    v.isFinite = true := by
  obtain ⟨values, -, evaluated⟩ := bind_ok.mp evaluated
  exact (run_of_value evaluated).2.2

theorem ofEvaluation_minutes {v : Float} (finite : v.isFinite = true) (n : Nat) :
    ((ofEvaluation (.value v n)).minutes == 0) = true ↔ v.abs < leastRounded ∨ leastUnheld ≤ v.abs :=
  roundHundredths_beq_zero_iff finite

theorem ofEvaluation_silent {v : Float} (finite : v.isFinite = true) (n : Nat) :
    (ofEvaluation (.value v n)).SilentZero ↔
      (v.abs < leastRounded ∨ leastUnheld ≤ v.abs) ∧ n = 0 := by
  rw [← ofEvaluation_minutes finite n]
  constructor
  · rintro ⟨none, -, unnoted⟩
    cases n with
    | zero => exact ⟨none, rfl⟩
    | succ n => cases unnoted
  · rintro ⟨none, rfl⟩
    exact ⟨none, rfl, rfl⟩

end Duration

/-- A formula with a value of half a hundredth or more is timed with some minutes or a note, as long as
the value is below 10^26. From there on it is timed with no minutes, and without a note unless the
formula has divided by zero. -/
theorem large_values_vanish {catalog : Catalog} {formula : String} {parameters : List Parameter}
    {c : Component} {v : Float} {n : Nat}
    (evaluated : Duration.evaluateFormula catalog formula parameters c = .ok (.value v n)) :
    ∃ d, Duration.byFormula catalog formula parameters c = .ok d ∧
      ((d.minutes == 0) = true ↔ v.abs < 0.005 ∨ 1e26 ≤ v.abs) ∧
      (0.005 ≤ v.abs → (d.SilentZero ↔ 1e26 ≤ v.abs ∧ n = 0)) ∧
      ∀ t logic, t.strategy = .formula → t.logic = some logic → logic.formula = formula →
        catalog = Standard.catalog → Duration.compute t parameters c = d := by
  have finite := Duration.finite_of_evaluateFormula evaluated
  have timed : Duration.byFormula catalog formula parameters c =
      .ok (Duration.ofEvaluation (.value v n)) := map_ok.mpr ⟨_, evaluated, rfl⟩
  refine ⟨_, timed, Duration.ofEvaluation_minutes finite n, ?_, ?_⟩
  · intro large
    have notSmall : ¬ v.abs < leastRounded := by
      rw [leastRounded_threshold.abs_lt_iff finite, Nat.not_le]
      exact (leastRounded_threshold.le_abs_iff finite).mp large
    rw [Duration.ofEvaluation_silent finite n, or_iff_right notSmall]
    rfl
  · rintro t logic strategy given rfl rfl
    rw [Duration.compute_of_logic strategy given, timed]
    rfl

namespace Shelf

def fifthPower : Logic := ⟨"3", "Fifth power", "area * area * area * area * area", [], "", false⟩

def fifthPowerTemplate : Template := { template with logic := some fifthPower }

end Shelf

/-- The fifth power of a shelf's area in square millimetres is a number of 30 digits. -/
theorem fifth_power_vanishes :
    ∃ v, Duration.evaluateFormula Standard.catalog Shelf.fifthPower.formula [] Shelf.side =
        .ok (.value v 0) ∧ 1e26 ≤ v.abs ∧
      (Duration.compute Shelf.fifthPowerTemplate [] Shelf.side).SilentZero := by
  have returns : (Duration.evaluateFormula Standard.catalog Shelf.fifthPower.formula []
      Shelf.side).isOk = true := by decide +kernel
  have ⟨ok, plain, large, atLeast⟩ : (Outcome.value _ returns).isOk = true ∧
      (Outcome.value _ returns).diagnostic = none ∧
      1e26 ≤ (Outcome.value _ returns).amount.abs ∧
      0.005 ≤ (Outcome.value _ returns).amount.abs := by decide +revert +kernel
  have evaluated := Outcome.eq_value returns
  rw [Evaluation.value_of_plain ok plain] at evaluated
  obtain ⟨d, -, -, silent, times⟩ := large_values_vanish evaluated
  have formula : Shelf.fifthPowerTemplate.strategy = .formula := by decide +kernel
  rw [times Shelf.fifthPowerTemplate Shelf.fifthPower formula rfl rfl rfl]
  exact ⟨_, evaluated, large, (silent atLeast).mpr ⟨large, rfl⟩⟩

end Joinery
