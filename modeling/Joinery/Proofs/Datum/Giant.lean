import Joinery.Datum.Measure
import Joinery.Proofs.Number.Monotone
import Joinery.Proofs.Outcome

/-!
Whole numbers past the largest double. Halfway from the largest double to the next power of two
rounding goes up, to where no double is, and a whole number from there on has no double. Reading one
as a number fails in a way of its own, which is neither a wrong value nor a wrong type.
-/
namespace Joinery.Number
open Float.Model
open Float.Model.UnpackedFloat (Sign)

def giantSize : Nat := 2 ^ 1024 - 2 ^ 970

theorem roundedUnits_below_giant : roundedUnits ((giantSize - 1) * 2 ^ 1074) < 2 ^ 2098 := by
  decide +kernel

theorem roundedUnits_giant : roundedUnits (giantSize * 2 ^ 1074) = 2 ^ 2098 := by
  decide +kernel

theorem nearest_eq_pack {z : Int} (some : z ≠ 0) :
    ∃ s m positive, nearest z 0 = .ofModel (.pack (.finite s m
      (((roundedUnits (z.natAbs * 2 ^ 1074)).log2 - 52 : Nat) - 1074 : Int) positive)) := by
  have enough : 0 < z.natAbs := Int.natAbs_pos.mpr some
  have unscaled : z.natAbs * 2 ^ 1074 = z.natAbs * 2 ^ (0 + 1074 : Int).toNat := by
    rw [show (0 + 1074 : Int).toNat = 1074 from rfl]
  obtain ⟨positive, rounded⟩ :=
    round_units (if z < 0 then .negative else .positive) enough (by decide) unscaled
  have packed : nearest z 0 = .ofModel (.pack (UnpackedFloat.round .binary64
      (if z < 0 then .negative else .positive) z.natAbs 0)) := by
    rw [nearest, normalize_eq, if_neg some]
  rw [rounded] at packed
  exact ⟨_, _, positive, packed⟩

theorem nearest_isFinite_iff (z : Int) :
    (nearest z 0).isFinite = true ↔ z.natAbs < giantSize := by
  by_cases zero : z = 0
  · subst zero
    exact ⟨fun _ => by decide +kernel, fun _ => by decide +kernel⟩
  obtain ⟨s, m, positive, packed⟩ := nearest_eq_pack zero
  constructor
  · intro finite
    by_contra giant
    have large : 2 ^ 2098 ≤ roundedUnits (z.natAbs * 2 ^ 1074) := by
      rw [← roundedUnits_giant]
      exact roundedUnits_le (Nat.mul_le_mul_right _ (Nat.not_lt.mp giant))
    have places : 2098 ≤ (roundedUnits (z.natAbs * 2 ^ 1074)).log2 :=
      Nat.log2_two_pow (n := 2098) ▸ log2_le_of_le large
    rw [packed, not_finite_of_overflow (by omega)] at finite
    cases finite
  · intro small
    have bounded : roundedUnits (z.natAbs * 2 ^ 1074) < 2 ^ 2098 :=
      Nat.lt_of_le_of_lt (roundedUnits_le (Nat.mul_le_mul_right _ (by omega)))
        roundedUnits_below_giant
    have filled : roundedUnits (z.natAbs * 2 ^ 1074) ≠ 0 := by
      have some : 0 < z.natAbs * 2 ^ 1074 :=
        Nat.mul_pos (Int.natAbs_pos.mpr zero) (Nat.two_pow_pos 1074)
      exact Nat.ne_of_gt (Nat.mul_pos (leading_pos some) (Nat.two_pow_pos _))
    have places := (Nat.log2_lt filled).mpr bounded
    rw [packed]
    exact isFinite_unpack_pack positive (by omega)

theorem ofInt?_eq_none_iff (z : Int) : ofInt? z = none ↔ giantSize ≤ z.natAbs := by
  have finite := nearest_isFinite_iff z
  simp only [ofInt?]
  split <;> simp_all

end Joinery.Number

namespace Joinery
open Number

def Numeral.Giant : Numeral → Prop
  | .whole n => giantSize ≤ n.natAbs
  | .real _ => False

/-- A whole number past the largest double. -/
def Datum.Giant : Datum → Prop
  | .number n => n.Giant
  | _ => False

instance : DecidablePred Numeral.Giant
  | .whole n => inferInstanceAs (Decidable (giantSize ≤ n.natAbs))
  | .real _ => isFalse id

instance : DecidablePred Datum.Giant
  | .number n => inferInstanceAs (Decidable n.Giant)
  | .null | .bool _ | .text _ | .list _ | .object _ => isFalse id

theorem Numeral.toFloat_error_iff {n : Numeral} {f : Fault} :
    n.toFloat = .error f ↔ f = .integerTooLarge ∧ n.Giant := by
  cases n with
  | whole z =>
    simp only [toFloat, Giant, ← ofInt?_eq_none_iff]
    cases ofInt? z <;> simp [eq_comm]
  | real x => simp [toFloat, Giant]

namespace Datum

/-- A number that is not read as a double is a giant, and anything else is a value or a type that
stands for no number. -/
theorem toFloat_fault {d : Datum} {f : Fault} (fails : d.toFloat = .error f) :
    (f = .integerTooLarge ∧ d.Giant) ∨ (f ≠ .integerTooLarge ∧ ¬ d.Giant) := by
  cases d with
  | number n => exact Or.inl (Numeral.toFloat_error_iff.mp fails)
  | text s =>
    simp only [toFloat] at fails
    split at fails <;> cases fails
    exact Or.inr ⟨by simp, id⟩
  | bool b => cases fails
  | null | list _ | object _ =>
    cases fails
    exact Or.inr ⟨by simp, id⟩

theorem toFloat_of_giant {d : Datum} (giant : d.Giant) : d.toFloat = .error .integerTooLarge := by
  cases d with
  | number n => exact Numeral.toFloat_error_iff.mpr ⟨rfl, giant⟩
  | _ => exact giant.elim

theorem finite?_of_giant {d : Datum} (giant : d.Giant) : d.finite? = .error .integerTooLarge := by
  cases d with
  | number n => exact map_error.mpr (Numeral.toFloat_error_iff.mpr ⟨rfl, giant⟩)
  | _ => exact giant.elim

theorem finite?_of_small {d : Datum} (small : ¬ d.Giant) : ∃ found, d.finite? = .ok found := by
  cases d with
  | number n =>
    cases read : n.toFloat with
    | ok x => exact ⟨_, map_ok.mpr ⟨x, read, rfl⟩⟩
    | error f => exact absurd (Numeral.toFloat_error_iff.mp read).2 small
  | text s => exact ⟨_, rfl⟩
  | null | bool _ | list _ | object _ => exact ⟨none, rfl⟩

end Datum
end Joinery
