import Joinery.Proofs.Number.Shortest

/-!
What rounding to hundredths leaves of a finite double. Less than half a hundredth leaves nothing, and
nothing is left again from 10^26 on, where there are too many hundredths to be held. Everything between
the two is left with some.
-/
namespace Joinery.Number
open Float.Model
open Float.Model.UnpackedFloat (Sign)

/-! A decimal near to `v` units is below or above `odd` halves of a hundredth as soon as `v` is, by more
than the error. Here the decimal is a multiple of the finest step, and `one` and `finest` are how units
and such steps are counted. -/

section
variable {a v odd one finest : Nat}
  (error : 2 ^ 53 * (((a * one : Nat) : Int) - (v * finest : Nat)).natAbs ≤
    (v + 2 ^ 52) * finest + 2 ^ 53 * one)
  (fine : 200 * (2 ^ 53 * one) < finest)
include error fine

theorem decimal_below {most : Nat} (le : v ≤ most)
    (below : 200 * (2 ^ 53 * most + (most + 2 ^ 52)) < 2 ^ 53 * (odd * one)) :
    2 * (100 * a) < odd * finest := by
  have less : 200 * (2 ^ 53 * v + (v + 2 ^ 52)) + 1 ≤ 2 ^ 53 * (odd * one) := by omega
  have share := Nat.mul_le_mul_right finest less
  have left : (200 * (2 ^ 53 * v + (v + 2 ^ 52)) + 1) * finest =
      200 * (2 ^ 53 * (v * finest) + (v + 2 ^ 52) * finest) + finest := by ring
  have right : 2 ^ 53 * (odd * one) * finest = 2 ^ 53 * (odd * finest * one) := by ring
  have whole : 2 * (100 * a) * one = 200 * (a * one) := by ring
  have scaled : 2 * (100 * a) * one < odd * finest * one := by
    rw [left, right] at share
    rw [whole]
    omega
  exact Nat.lt_of_mul_lt_mul_right scaled

theorem decimal_above {least : Nat} (le : least ≤ v)
    (above : 2 ^ 53 * (odd * one) + 200 * (least + 2 ^ 52) < 200 * (2 ^ 53 * least)) :
    ¬ 2 * (100 * a) < odd * finest := by
  have more : 2 ^ 53 * (odd * one) + 200 * (v + 2 ^ 52) + 1 ≤ 200 * (2 ^ 53 * v) := by omega
  have share := Nat.mul_le_mul_right finest more
  have left : (2 ^ 53 * (odd * one) + 200 * (v + 2 ^ 52) + 1) * finest =
      2 ^ 53 * (odd * finest * one) + 200 * ((v + 2 ^ 52) * finest) + finest := by ring
  have right : 200 * (2 ^ 53 * v) * finest = 200 * (2 ^ 53 * (v * finest)) := by ring
  have whole : 2 * (100 * a) * one = 200 * (a * one) := by ring
  intro less
  have scaled : 2 * (100 * a) * one ≤ odd * finest * one := Nat.mul_le_mul_right one (Nat.le_of_lt less)
  rw [left, right] at share
  rw [whole] at scaled
  omega

end

theorem finest_step : 200 * (2 ^ 53 * unitsPerOne.natAbs) < 10 ^ finestPlace := by
  have steps (k : Nat) : 200 * (2 ^ 53 * 2 ^ k) < 2 ^ (k + 61) := by
    rw [Nat.pow_add]
    have some := Nat.two_pow_pos k
    omega
  have eightfold {p : Nat} : 2 ^ (3 * p) = 8 ^ p := Nat.pow_mul 2 3 p
  calc 200 * (2 ^ 53 * unitsPerOne.natAbs)
      < 2 ^ (1074 + 61) := by
        rw [natAbs_unitsPerOne]
        exact steps 1074
    _ ≤ 2 ^ (3 * finestPlace) := Nat.pow_le_pow_right (by decide) (by decide)
    _ = 8 ^ finestPlace := eightfold
    _ ≤ 10 ^ finestPlace := Nat.pow_le_pow_left (by decide) finestPlace

theorem shortest_hundredths_le_iff {x : Float} {d p : Nat} (found : shortest x = ⟨d, p - finestPlace⟩)
    {c : Nat} :
    (shortest x).hundredths ≤ c ↔ 2 * (100 * (d * 10 ^ p)) < (2 * c + 1) * 10 ^ finestPlace := by
  have places {k : Nat} (same : finestPlace = k + 2) : 10 ^ finestPlace = 100 * 10 ^ k := by
    rw [same, Nat.pow_add, Nat.mul_comm]
  rw [found, places rfl]
  exact Decimal.hundredths_le_iff (k := 398)

theorem shortest_hundredths_le {x : Float} (finite : x.isFinite = true) {c most : Nat}
    (le : (units x).natAbs ≤ most)
    (below : 200 * (2 ^ 53 * most + (most + 2 ^ 52)) < 2 ^ 53 * ((2 * c + 1) * unitsPerOne.natAbs)) :
    (shortest x).hundredths ≤ c := by
  obtain ⟨d, p, found, error⟩ := shortest_steps finite
  exact (shortest_hundredths_le_iff found).mpr (decimal_below error finest_step le below)

theorem lt_shortest_hundredths {x : Float} (finite : x.isFinite = true) {c least : Nat}
    (le : least ≤ (units x).natAbs)
    (above : 2 ^ 53 * ((2 * c + 1) * unitsPerOne.natAbs) + 200 * (least + 2 ^ 52) <
      200 * (2 ^ 53 * least)) : c < (shortest x).hundredths := by
  obtain ⟨d, p, found, error⟩ := shortest_steps finite
  rw [← Nat.not_le, shortest_hundredths_le_iff found]
  exact decimal_above error finest_step le above

/-! Where the hundredths begin and where they end. -/

theorem Held.apart {v m k : Nat} (held : Held v) (full : 2 ^ 52 < m) :
    v ≤ (m - 1) * 2 ^ k ∨ v = m * 2 ^ k ∨ (m + 1) * 2 ^ k ≤ v := by
  have step := Nat.two_pow_pos k
  rcases held.on_grid k with ⟨g, rfl⟩ | low
  · rw [Nat.mul_comm (2 ^ k) g]
    rcases Nat.lt_trichotomy g m with less | rfl | more
    · exact .inl (Nat.mul_le_mul_right _ (Nat.le_sub_one_of_lt less))
    · exact .inr (.inl rfl)
    · exact .inr (.inr (Nat.mul_le_mul_right _ more))
  · rw [Nat.pow_add] at low
    exact .inl (Nat.le_trans (Nat.le_of_lt low) (Nat.mul_le_mul_right _ (Nat.le_sub_one_of_lt full)))

theorem Fits.unique {m n : Nat} {e k : Int} (first : Fits m e) (second : Fits n k)
    (same : m * 2 ^ (e + 1074).toNat = n * 2 ^ (k + 1074).toNat) : m = n ∧ e = k := by
  cases order : (compare e k).then (compare m n) with
  | lt => exact absurd same (Nat.ne_of_lt (units_lt_of_then first second order))
  | gt =>
    have swapped : (compare k e).then (compare n m) = .lt := by
      rw [← Int.compare_swap, ← Nat.compare_swap, ← Ordering.swap_then, order]
      rfl
    exact absurd same (Nat.ne_of_gt (units_lt_of_then second first swapped))
  | eq =>
    obtain ⟨level, equal⟩ := Ordering.then_eq_eq.mp order
    exact ⟨Nat.compare_eq_eq.mp equal, Int.compare_eq_eq.mp level⟩

theorem shortest_congr {x y : Float} (finiteX : x.isFinite = true) (finiteY : y.isFinite = true)
    (same : (units x).natAbs = (units y).natAbs) : shortest x = shortest y := by
  rcases shape_of_finite finiteX with ⟨s, shapeX⟩ | ⟨s, m, e, positive, shapeX⟩
  · rcases shape_of_finite finiteY with ⟨t, shapeY⟩ | ⟨t, n, k, other, shapeY⟩
    · simp only [shortest, shapeX, shapeY]
    · have some : 0 < n * 2 ^ (k + 1074).toNat := Nat.mul_pos other (Nat.two_pow_pos _)
      rw [units_of_zero shapeX, units_of_finite shapeY, natAbs_apply] at same
      exact absurd same (Nat.ne_of_lt some)
  · rw [units_of_finite shapeX, natAbs_apply] at same
    rcases shape_of_finite finiteY with ⟨t, shapeY⟩ | ⟨t, n, k, other, shapeY⟩
    · have some : 0 < m * 2 ^ (e + 1074).toNat := Nat.mul_pos positive (Nat.two_pow_pos _)
      rw [units_of_zero shapeY] at same
      exact absurd same (Nat.ne_of_gt some)
    · rw [units_of_finite shapeY, natAbs_apply] at same
      obtain ⟨rfl, rfl⟩ := (fits_of_unpack shapeX).unique (fits_of_unpack shapeY) same
      simp only [shortest, shapeX, shapeY]

/-- The least size that is rounded to any hundredths. -/
def leastRounded : Float := 0.005

/-- The least size with too many hundredths to be held. -/
def leastUnheld : Float := 1e26

/-- A size `t`, written as `m * 2 ^ k` units, that is rounded to `c + 1` hundredths. One step of its grid
to either side, `c` and a half hundredths are passed by more than a decimal can be off. -/
structure Threshold (t : Float) (m k c : Nat) : Prop where
  finite : t.isFinite = true
  value : units t = (m * 2 ^ k : Nat)
  full : 2 ^ 52 < m
  first : (shortest t).hundredths = c + 1
  below : 200 * (2 ^ 53 * ((m - 1) * 2 ^ k) + ((m - 1) * 2 ^ k + 2 ^ 52)) <
    2 ^ 53 * ((2 * c + 1) * unitsPerOne.natAbs)
  above : 2 ^ 53 * ((2 * c + 1) * unitsPerOne.natAbs) + 200 * ((m + 1) * 2 ^ k + 2 ^ 52) <
    200 * (2 ^ 53 * ((m + 1) * 2 ^ k))

theorem leastRounded_threshold : Threshold leastRounded 5764607523034235 1014 0 := by
  constructor <;> decide +kernel

theorem leastUnheld_threshold :
    Threshold leastUnheld 5820766091346741 1108 (hundredthsLimit - 1) := by
  constructor <;> decide +kernel

section
variable {x : Float} (finite : x.isFinite = true)
include finite

theorem beq_zero_iff : (x == 0) = true ↔ units x = 0 := by
  constructor
  · intro zero
    exact (alike_of_beq zero).units_eq.trans units_zero
  · intro none
    rcases shape_of_finite finite with ⟨s, shape⟩ | ⟨s, m, e, positive, shape⟩
    · change x.toModel.unpack.beq (0 : Float).toModel.unpack = true
      rw [shape]
      rfl
    · have some : 0 < m * 2 ^ (e + 1074).toNat := Nat.mul_pos positive (Nat.two_pow_pos _)
      rw [units_of_finite shape] at none
      have size := natAbs_apply s (m * 2 ^ (e + 1074).toNat)
      rw [none] at size
      exact absurd size (Nat.ne_of_lt some)

theorem abs_finite : x.abs.isFinite = true ∧ units x.abs = (units x).natAbs := by
  have packed : x.abs.toModel.unpack = (Float.Model.pack x.toModel.unpack.abs).unpack := rfl
  change x.abs.toModel.unpack.isFinite = true ∧ _
  rcases shape_of_finite finite with ⟨s, shape⟩ | ⟨s, m, e, positive, shape⟩
  · have zero : x.abs.toModel.unpack = .zero .positive := by
      rw [packed, shape]
      cases s <;> rfl
    rw [units_of_zero zero, units_of_zero shape, zero]
    exact ⟨rfl, rfl⟩
  · have size : x.abs.toModel.unpack = .finite .positive m e positive := by
      rw [packed, shape]
      exact unpack_pack_fits positive (fits_of_unpack shape)
    rw [units_of_finite size, units_of_finite shape, natAbs_apply, size]
    exact ⟨rfl, rfl⟩

namespace Threshold
variable {t : Float} {m k c : Nat} (threshold : Threshold t m k c)
include threshold

theorem hundredths_le_iff : (shortest x).hundredths ≤ c ↔ (units x).natAbs < m * 2 ^ k := by
  rcases (held_units finite).apart threshold.full with below | same | above
  · have few := shortest_hundredths_le finite below threshold.below
    have step : (m - 1) * 2 ^ k < m * 2 ^ k := by
      have full := threshold.full
      exact Nat.mul_lt_mul_of_pos_right (by omega) (Nat.two_pow_pos k)
    exact iff_of_true few (Nat.lt_of_le_of_lt below step)
  · have sizes : (units x).natAbs = (units t).natAbs := by
      rw [threshold.value, Int.natAbs_natCast]
      exact same
    rw [shortest_congr finite threshold.finite sizes, threshold.first, same]
    omega
  · have many := lt_shortest_hundredths finite above threshold.above
    have step : m * 2 ^ k ≤ (m + 1) * 2 ^ k := Nat.mul_le_mul_right _ (Nat.le_succ m)
    exact iff_of_false (Nat.not_le.mpr many) (Nat.not_lt.mpr (Nat.le_trans step above))

theorem abs_lt_iff : x.abs < t ↔ (shortest x).hundredths ≤ c := by
  obtain ⟨finiteAbs, size⟩ := abs_finite finite
  rw [threshold.hundredths_le_iff finite, lt_iff_units finiteAbs threshold.finite, size,
    threshold.value, Int.ofNat_lt]

theorem le_abs_iff : t ≤ x.abs ↔ c < (shortest x).hundredths := by
  obtain ⟨finiteAbs, size⟩ := abs_finite finite
  rw [← Nat.not_le, threshold.hundredths_le_iff finite, le_iff_units threshold.finite finiteAbs, size,
    threshold.value, Int.ofNat_le, Nat.not_lt]

end Threshold

end

theorem HoldsCents.beq_zero_iff {n : Int} {x : Float} (holds : HoldsCents n x) :
    (x == 0) = true ↔ n = 0 := by
  rw [Number.beq_zero_iff holds.isFinite]
  have error := holds.error
  have positive := unitsPerOne_pos
  constructor
  · intro none
    rw [none, Int.mul_zero, Int.sub_zero, Int.natAbs_mul] at error
    have one : 0 < unitsPerOne.natAbs := Int.natAbs_pos.mpr (Int.ne_of_gt positive)
    rw [← Nat.mul_assoc] at error
    have few := Nat.le_of_mul_le_mul_right error one
    omega
  · rintro rfl
    rw [Int.zero_mul, Int.natAbs_zero, Nat.zero_mul] at error
    omega

/-- Rounding to hundredths makes a zero of small sizes and of those that cannot be held, and of no
others. -/
theorem roundHundredths_beq_zero_iff {x : Float} (finite : x.isFinite = true) :
    (roundHundredths x == 0) = true ↔ x.abs < leastRounded ∨ leastUnheld ≤ x.abs := by
  have none : roundedCents x = 0 ↔ heldHundredths x = 0 := by
    rw [roundedCents]
    split <;> omega
  have limit : 0 < hundredthsLimit := by decide
  rw [(holds_roundHundredths x).beq_zero_iff, none, heldHundredths,
    leastRounded_threshold.abs_lt_iff finite, leastUnheld_threshold.le_abs_iff finite]
  split <;> omega

end Joinery.Number
