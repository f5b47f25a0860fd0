import Joinery.Proofs.Number.Correct
import Joinery.Proofs.Number.Overflow
import Joinery.Proofs.Number.Sum
import Joinery.Proofs.Number.Unsigned

/-!
Arithmetic rounds once. A sum, product or quotient of doubles that are not below zero is the exact one,
rounded to the nearest double, however small it is, and infinite only if it is rounded past the largest
double. So it does not shrink when an operand grows, and a result that is finite bounds the results of
all smaller operands.
-/
namespace Joinery.Number
open Float.Model
open Float.Model.UnpackedFloat (Sign Accuracy ExtendedMantissa accuracyOfFraction
  shiftToTargetExponent roundWithAccuracy decreaseExponent)

/-! Doubles of a size. -/

/-- A finite double that is not below zero, with its exact size in units. -/
structure Sized (x : Float) (u : Nat) : Prop where
  finite : x.isFinite = true
  size : units x = u

/-- A double that a size is rounded to: it is finite as long as the size is not too large. -/
structure Rounded (x : Float) (u : Nat) : Prop where
  finite_iff : x.isFinite = true ↔ u.log2 ≤ 2097
  size : x.isFinite = true → units x = u

theorem unit_places : ∃ j, unitsPerOne.natAbs = 2 ^ j ∧ j = 1074 := ⟨1074, natAbs_unitsPerOne, rfl⟩

theorem roundedQuotient_whole (n : Nat) {k : Nat} (some : 0 < k) :
    roundedQuotient (n * k) k = roundedUnits n := by
  have scaled := roundedQuotient_scaled n 1 some
  rwa [Nat.one_mul, ← roundedUnits_eq] at scaled

theorem roundedQuotient_zero (den : Nat) : roundedQuotient 0 den = 0 := by
  simp [roundedQuotient, roundHalfEven, eq_comm]

section
variable {x y : Float} {u v : Nat}

theorem rounded_of_zero {s : Sign} (shape : x.toModel.unpack = .zero s) : Rounded x 0 := by
  have finite : x.isFinite = true := by
    change x.toModel.unpack.isFinite = true
    rw [shape]
    rfl
  exact ⟨by simp [finite], fun _ => units_of_zero shape⟩

theorem rounded_of_packed (kept : u / 2 ^ (u.log2 - 52) * 2 ^ (u.log2 - 52) = u)
    (packed : x = .ofModel (.pack (sized .positive u))) : Rounded x u := by
  unfold sized at packed
  split at packed
  · rcases Nat.lt_or_ge 2097 u.log2 with large | most
    · have unbounded : x.isFinite = false := by
        rw [packed]
        exact not_finite_of_overflow (by omega)
      exact ⟨by simp [unbounded]; omega, by simp [unbounded]⟩
    · obtain ⟨finite, size⟩ := units_of_packed (by omega) kept packed
      exact ⟨by simp [finite, most], fun _ => size⟩
  · rename_i none
    obtain rfl : u = 0 := by
      rw [Nat.eq_zero_of_not_pos none, Nat.zero_mul] at kept
      exact kept.symm
    exact rounded_of_zero (s := .positive) (packed ▸ rfl)

theorem product_wide {m n : Nat} {e k : Int} (positive : 0 < m) (filled : 0 < n) (first : Fits m e)
    (second : Fits n k) : e + k ≤ aim (m * n) (e + k) := by
  unfold aim
  have long {a b : Nat} (full : 2 ^ 52 ≤ a) (some : 0 < b) : 52 ≤ (a * b).log2 :=
    (Nat.le_log2 (Nat.ne_of_gt (Nat.mul_pos (by omega) some))).mpr
      (Nat.le_trans full (Nat.le_mul_of_pos_right a some))
  rcases first.full with full | lowest
  · have := long full filled
    omega
  · rcases second.full with full | lowestToo
    · have := long full positive
      rw [Nat.mul_comm n m] at this
      omega
    · omega

theorem quotient_wide {m n : Nat} {e k t : Int} (positive : 0 < m) (filled : 0 < n)
    (place : Format.binary64.targetExponent (totalExponent m e - totalExponent n k) = t) :
    min (e - k) t ≤ aim (m * 2 ^ (e - k - min (e - k) t).toNat / n) (min (e - k) t) := by
  have target : t = max ((m.log2 : Int) + e - (n.log2 + k) - 53) (-1074) := by
    rw [← place]
    simp only [Format.targetExponent, totalExponent, Format.mantissaBits, Format.minExponent]
    simp
    omega
  by_cases low : t ≤ -1074
  · unfold aim
    omega
  have long := le_log2_quotient (k := 52) positive filled (j := (e - k - min (e - k) t).toNat) (by omega)
  unfold aim
  omega

/-- A whole number of steps of any size is rounded once. -/
theorem nearest_rounded {m : Nat} {e : Int} (least : -1074 ≤ e) :
    Rounded (nearest m e) (roundedUnits (m * 2 ^ (e + 1074).toNat)) := by
  rcases Nat.eq_zero_or_pos m with rfl | some
  · rw [Nat.zero_mul, show roundedUnits 0 = 0 from rfl]
    refine rounded_of_zero (s := .positive) ?_
    rw [nearest, normalize_eq, if_pos Int.natCast_zero]
    rfl
  · obtain ⟨positive, rounded⟩ := round_units .positive some least rfl
    refine rounded_of_packed (mantissa_roundedUnits (Nat.mul_pos some (Nat.two_pow_pos _))) ?_
    rw [nearest, normalize_eq, if_neg (by omega), if_neg (by omega), Int.natAbs_natCast, rounded, sized,
      dif_pos positive]

namespace Sized

theorem shape (sized : Sized x u) :
    (∃ s, x.toModel.unpack = .zero s ∧ u = 0) ∨
      ∃ m e, ∃ positive : 0 < m, x.toModel.unpack = .finite .positive m e positive ∧ Fits m e ∧
        u = m * 2 ^ (e + 1074).toNat := by
  have size := sized.size
  rcases shape_of_finite sized.finite with ⟨s, shape⟩ | ⟨s, m, e, positive, shape⟩
  · rw [units_of_zero shape] at size
    exact Or.inl ⟨s, shape, by omega⟩
  · have some : 0 < m * 2 ^ (e + 1074).toNat := Nat.mul_pos positive (Nat.two_pow_pos _)
    rw [units_of_finite shape] at size
    cases s with
    | positive => exact Or.inr ⟨m, e, positive, shape, fits_of_unpack shape, Int.ofNat.inj size.symm⟩
    | negative =>
      have below : -((m * 2 ^ (e + 1074).toNat : Nat) : Int) = u := size
      omega

theorem mul (first : Sized x u) (second : Sized y v) :
    Rounded (x * y) (roundedQuotient (u * v) unitsPerOne.natAbs) := by
  have packed : x * y = .ofModel (.pack (UnpackedFloat.mul .binary64
      x.toModel.unpack y.toModel.unpack)) := rfl
  have zero {s : Sign} (shape : UnpackedFloat.mul .binary64 x.toModel.unpack y.toModel.unpack = .zero s)
      (none : u * v = 0) : Rounded (x * y) (roundedQuotient (u * v) unitsPerOne.natAbs) := by
    rw [none, roundedQuotient_zero, packed, shape]
    exact rounded_of_zero (s := s) (by cases s <;> rfl)
  rcases first.shape with ⟨s, shape, none⟩ | ⟨m, e, positive, shape, fits, size⟩
  · rcases second.shape with ⟨t, other, -⟩ | ⟨n, k, filled, other, -, -⟩
    · exact zero (s := s * t) (by rw [shape, other]; rfl) (by rw [none, Nat.zero_mul])
    · exact zero (s := s * .positive) (by rw [shape, other]; rfl) (by rw [none, Nat.zero_mul])
  · rcases second.shape with ⟨t, other, none⟩ | ⟨n, k, filled, other, fitsToo, sizeToo⟩
    · exact zero (s := .positive * t) (by rw [shape, other]; rfl) (by rw [none, Nat.mul_zero])
    · have wide : e + k ≤ aim (m * n) (e + k) := product_wide positive filled fits fitsToo
      have least := fits.least
      have leastToo := fitsToo.least
      have exact : u * v =
          m * n * 2 ^ ((e + 1074).toNat + (k + 1074).toNat) := by
        rw [size, sizeToo, Nat.pow_add]
        ac_rfl
      refine rounded_of_packed (roundedQuotient_kept _ _) ?_
      obtain ⟨j, one, places⟩ := unit_places
      have rounded := roundWithAccuracy_eq .positive (a := .exact) (j := j) Nat.one_pos
        (represents_whole (m * n)) wide
        (i := (e + 1074).toNat + (k + 1074).toNat) (by omega)
      rw [Nat.one_mul, ← exact, ← one] at rounded
      rw [packed, shape, other, ← rounded]
      rfl

theorem div (first : Sized x u) (second : Sized y v) (some : 0 < v) :
    Rounded (x / y) (roundedQuotient (u * unitsPerOne.natAbs) v) := by
  have packed : x / y = .ofModel (.pack (UnpackedFloat.div .binary64
      x.toModel.unpack y.toModel.unpack)) := rfl
  rcases second.shape with ⟨t, other, none⟩ | ⟨n, k, filled, other, fitsToo, sizeToo⟩
  · omega
  rcases first.shape with ⟨s, shape, none⟩ | ⟨m, e, positive, shape, fits, size⟩
  · have zero : x / y = .ofModel (.pack (.zero (s / .positive))) := by
      rw [packed, shape, other]
      rfl
    rw [none, Nat.zero_mul, roundedQuotient_zero, zero]
    exact rounded_of_zero (s := s / .positive) (by cases s <;> rfl)
  · have least := fits.least
    have leastToo := fitsToo.least
    refine rounded_of_packed (roundedQuotient_kept _ _) ?_
    rw [packed, shape, other]
    simp only [UnpackedFloat.div, UnpackedFloat.divCore, Nat.shiftLeft_eq]
    generalize place : Format.binary64.targetExponent (totalExponent m e - totalExponent n k) = t
    have wide := quotient_wide positive filled place
    have below : min (e - k) t ≤ e - k := Int.min_le_left ..
    generalize min (e - k) t = t' at *
    obtain ⟨j, one, places⟩ := unit_places
    have rounded := roundWithAccuracy_eq (.positive / .positive) filled
      (represents_quotient (m * 2 ^ (e - k - t').toNat) filled) wide
      (i := (e + 1074).toNat + j) (j := (k + 1074).toNat + (e - k - t').toNat) (by omega)
    have num : m * 2 ^ (e - k - t').toNat * 2 ^ ((e + 1074).toNat + j) =
        u * unitsPerOne.natAbs * 2 ^ (e - k - t').toNat := by
      rw [size, one, Nat.pow_add]
      ac_rfl
    have den : n * 2 ^ ((k + 1074).toNat + (e - k - t').toNat) = v * 2 ^ (e - k - t').toNat := by
      rw [sizeToo, Nat.pow_add, Nat.mul_assoc]
    rw [num, den, roundedQuotient_scaled _ _ (Nat.two_pow_pos _)] at rounded
    rw [rounded]
    rfl

theorem exact (sized : Sized x u) : Rounded x (roundedUnits u) := by
  obtain ⟨finite, same⟩ := nearest_exact (m := (u : Int)) (e := -1074) sized.finite (by decide) (by
    rw [sized.size]
    exact Int.mul_one _)
  have rounded := nearest_rounded (m := u) (e := -1074) (by decide)
  rw [show (-1074 + 1074 : Int).toNat = 0 from rfl, Nat.pow_zero, Nat.mul_one] at rounded
  exact ⟨iff_of_true sized.finite (rounded.finite_iff.mp finite), fun _ => same ▸ rounded.size finite⟩

theorem add (first : Sized x u) (second : Sized y v) : Rounded (x + y) (roundedUnits (u + v)) := by
  obtain ⟨m, e, least, same, finite, size⟩ := add_nearest first.finite second.finite
  rw [first.size, second.size] at same
  obtain ⟨n, rfl⟩ : ∃ n : Nat, m = n := by
    have weight : (0 : Int) < 2 ^ (e + 1074).toNat := Int.pow_pos (by decide)
    exact Int.eq_ofNat_of_zero_le (Int.nonneg_of_mul_nonneg_left (by omega) weight)
  have rounded := nearest_rounded (m := n) least
  rw [show n * 2 ^ (e + 1074).toNat = u + v by exact_mod_cast same] at rounded
  exact ⟨finite ▸ rounded.finite_iff, fun held => size.trans (rounded.size (finite ▸ held))⟩

end Sized
end

/-! Rounding keeps the order. -/

theorem roundHalfEven_mono {a b : Nat} (le : a ≤ b) (den : Nat) :
    roundHalfEven a den ≤ roundHalfEven b den := by
  have quotient : a / den ≤ b / den := Nat.div_le_div_right le
  rcases Nat.lt_or_eq_of_le quotient with less | same
  · calc
      roundHalfEven a den ≤ a / den + 1 := roundHalfEven_le a den
      _ ≤ b / den := less
      _ ≤ roundHalfEven b den := le_roundHalfEven b den
  · have rest : a % den ≤ b % den := by
      have first := Nat.div_add_mod a den
      have second := Nat.div_add_mod b den
      rw [← same] at second
      omega
    simp only [roundHalfEven, same]
    split_ifs <;> omega

theorem roundedQuotient_mono {a b : Nat} (le : a ≤ b) (den : Nat) :
    roundedQuotient a den ≤ roundedQuotient b den := by
  have places : (a / den).log2 ≤ (b / den).log2 := log2_le_of_le (Nat.div_le_div_right le)
  by_cases level : (a / den).log2 - 52 = (b / den).log2 - 52
  · rw [roundedQuotient, roundedQuotient, level]
    exact Nat.mul_le_mul_right _ (roundHalfEven_mono le _)
  · calc
      roundedQuotient a den ≤ 2 ^ 53 * 2 ^ ((a / den).log2 - 52) :=
        Nat.mul_le_mul_right _ (leading_quotient_le a den)
      _ = 2 ^ (53 + ((a / den).log2 - 52)) := (Nat.pow_add ..).symm
      _ ≤ 2 ^ (52 + ((b / den).log2 - 52)) := Nat.pow_le_pow_right (by decide) (by omega)
      _ = 2 ^ 52 * 2 ^ ((b / den).log2 - 52) := Nat.pow_add ..
      _ ≤ roundedQuotient b den := Nat.mul_le_mul_right _ (leading_quotient (by omega))

def Under (x y : Float) : Prop := ∃ u v, Sized x u ∧ Sized y v ∧ u ≤ v

section
variable {x y z w : Float} {u v : Nat}

theorem Rounded.under (first : Rounded x u) (second : Rounded y v) (le : u ≤ v)
    (finite : y.isFinite = true) : Under x y := by
  have bits := second.finite_iff.mp finite
  have fewer := log2_le_of_le le
  have small := first.finite_iff.mpr (by omega)
  exact ⟨u, v, ⟨small, first.size small⟩, ⟨finite, second.size finite⟩, le⟩

theorem under_of_units (finite : x.isFinite = true) (finiteToo : y.isFinite = true)
    (above : 0 ≤ units x) (le : units x ≤ units y) : Under x y :=
  ⟨(units x).toNat, (units y).toNat, ⟨finite, (Int.toNat_of_nonneg above).symm⟩,
    ⟨finiteToo, (Int.toNat_of_nonneg (above.trans le)).symm⟩, Int.toNat_le_toNat le⟩

theorem under_self (finite : x.isFinite = true) (above : ¬ x < 0) : Under x x :=
  under_of_units finite finite (units_nonneg above) le_rfl

namespace Under

theorem finite (under : Under x y) : x.isFinite = true := by
  obtain ⟨u, v, first, -, -⟩ := under
  exact first.finite

theorem le (under : Under x y) : x ≤ y := by
  obtain ⟨u, v, first, second, le⟩ := under
  rw [le_iff_units first.finite second.finite, first.size, second.size]
  exact Int.ofNat_le.mpr le

theorem trans (under : Under x y) (other : Under y z) : Under x z := by
  obtain ⟨u, v, first, second, le⟩ := under
  obtain ⟨v', t, second', third, le'⟩ := other
  have same : v = v' := Int.ofNat.inj (second.size.symm.trans second'.size)
  exact ⟨u, t, first, third, le.trans (same ▸ le')⟩

theorem add (under : Under x y) (other : Under z w) (finite : (y + w).isFinite = true) :
    Under (x + z) (y + w) := by
  obtain ⟨u, v, first, second, le⟩ := under
  obtain ⟨u', v', first', second', le'⟩ := other
  exact (first.add first').under (second.add second') (roundedUnits_le (Nat.add_le_add le le')) finite

theorem mul (under : Under x y) (other : Under z w) (finite : (y * w).isFinite = true) :
    Under (x * z) (y * w) := by
  obtain ⟨u, v, first, second, le⟩ := under
  obtain ⟨u', v', first', second', le'⟩ := other
  exact (first.mul first').under (second.mul second') (roundedQuotient_mono (Nat.mul_le_mul le le') _)
    finite

/-- No factor from one on shrinks. -/
theorem stretch (under : Under x y) (factor : z.isFinite = true) (one : unitsPerOne ≤ units z)
    (finite : (y * z).isFinite = true) : Under x (y * z) := by
  obtain ⟨u, v, first, second, le⟩ := under
  have above := unitsPerOne_pos
  have sized : Sized z (units z).toNat := ⟨factor, (Int.toNat_of_nonneg (by omega)).symm⟩
  refine first.exact.under (second.mul sized) ?_ finite
  rw [← roundedQuotient_whole u (Int.natAbs_pos.mpr above.ne')]
  exact roundedQuotient_mono (Nat.mul_le_mul le (by omega)) _

theorem div (under : Under x y) (divisor : z.isFinite = true) (some : 0 < units z)
    (finite : (y / z).isFinite = true) : Under (x / z) (y / z) := by
  obtain ⟨u, v, first, second, le⟩ := under
  have sized : Sized z (units z).toNat := ⟨divisor, (Int.toNat_of_nonneg some.le).symm⟩
  have filled : 0 < (units z).toNat := Int.lt_toNat.mpr some
  exact (first.div sized filled).under (second.div sized filled)
    (roundedQuotient_mono (Nat.mul_le_mul_right _ le) _) finite

theorem roundHundredths_le (under : Under x y) (below : y < leastUnheld) :
    roundHundredths x ≤ roundHundredths y := by
  have order := under.le
  obtain ⟨u, v, first, second, le⟩ := under
  have limit := (lt_iff_units second.finite leastUnheld_threshold.finite).mp below
  rw [leastUnheld_threshold.value, second.size, Int.ofNat_lt] at limit
  have inRange : InRange y := ⟨second.finite, by rwa [second.size, Int.natAbs_natCast]⟩
  have inRangeToo : InRange x :=
    ⟨first.finite, by rw [first.size, Int.natAbs_natCast]; exact le.trans_lt limit⟩
  exact roundHundredths_mono inRangeToo inRange order

end Under

theorem finite_of_lt (above : ¬ x < 0) (less : x < y) : x.isFinite = true := by
  by_contra unbounded
  rw [Bool.not_eq_true] at unbounded
  rcases shape_of_unbounded unbounded with ⟨s, shape⟩ | shape
  · cases s with
    | positive => exact not_lt_of_highest (.inl shape) less
    | negative =>
      refine above ((lt_iff x 0).mpr ?_)
      rw [shape, zero_shape]
      rfl
  · exact not_lt_of_highest (.inr shape) less

end

end Joinery.Number
