import Joinery.Estimate.Completion
import Joinery.Proofs.Number.Shortest

/-!
Shares in percent. The share of some steps in all of them is divided out, taken a hundredfold and
rounded, each time to the nearest double, so that it is off by less than what sets two shares of a
moderate number of steps apart. Rounded to hundredths it is what the exact share is rounded to, unless
the exact share lies halfway between two hundredths.
-/
namespace Joinery.Estimate
open Number
open Float.Model
open Float.Model.UnpackedFloat (Sign)

/-! What a share holds. -/

theorem two_pow_split {a b c : Nat} (same : a + b = c) : 2 ^ a * 2 ^ b = 2 ^ c := by
  rw [← Nat.pow_add, same]

theorem unpack_whole {n : Nat} (some : 0 < n) (few : n < 2 ^ 53) :
    ∃ positive, (nearest n 0).toModel.unpack =
      .finite .positive (n * 2 ^ (52 - n.log2)) (n.log2 - 52) positive := by
  have same : n.toUInt64.toFloat = nearest n 0 := by
    change nearest (n.toUInt64.toNat : Int) 0 = _
    rw [show n.toUInt64.toNat = n from Nat.mod_eq_of_lt (by omega)]
  rw [← same]
  exact unpack_toFloat some few

theorem unpack_of_packed {s : Sign} {n : Nat} {positive : 0 < n / 2 ^ (n.log2 - 52)}
    (most : ((n.log2 - 52 : Nat) - 1074 : Int) ≤ 971) {x : Float}
    (packed : x = .ofModel (.pack (.finite s (n / 2 ^ (n.log2 - 52))
      ((n.log2 - 52 : Nat) - 1074 : Int) positive))) :
    x.toModel.unpack = .finite s (n / 2 ^ (n.log2 - 52)) ((n.log2 - 52 : Nat) - 1074 : Int)
      positive := by
  rw [packed]
  exact unpack_pack_fits positive (fits_of_log2 most)

def shareUnits (k n : Nat) : Nat := roundedQuotient (k * 2 ^ 1074) n

def percentUnits (k n : Nat) : Nat := roundedUnits (shareUnits k n * 100)

/-- Some steps, and no more than all of a moderate number. -/
structure Part (k n : Nat) : Prop where
  some : 0 < k
  le : k ≤ n
  few : n < 2 ^ 36

/-- A double of so many units, in the one way of writing it. -/
structure Holds (x : Float) (u : Nat) : Prop where
  whole : u / 2 ^ (u.log2 - 52) * 2 ^ (u.log2 - 52) = u
  shape : ∃ positive, x.toModel.unpack =
    .finite .positive (u / 2 ^ (u.log2 - 52)) ((u.log2 - 52 : Nat) - 1074 : Int) positive

namespace Holds
variable {x y : Float} {u : Nat}

theorem alike (first : Holds x u) (second : Holds y u) : Alike x y := by
  obtain ⟨_, shapeX⟩ := first.shape
  obtain ⟨_, shapeY⟩ := second.shape
  rw [Alike, shapeX, shapeY]
  exact .same _

theorem isFinite (holds : Holds x u) : x.isFinite = true := by
  obtain ⟨_, shape⟩ := holds.shape
  change x.toModel.unpack.isFinite = true
  rw [shape]
  rfl

theorem units_eq (holds : Holds x u) : units x = u := by
  obtain ⟨_, shape⟩ := holds.shape
  have places : ((u.log2 - 52 : Nat) - 1074 + 1074 : Int).toNat = u.log2 - 52 := by omega
  rw [units_of_finite shape, places, holds.whole]
  rfl

theorem times {m : Nat} {e : Int} {filled : 0 < m} (holds : Holds x u)
    (factor : y.toModel.unpack = .finite .positive m e filled) (full : 2 ^ 52 ≤ m) (least : e ≤ 0)
    (places : -e ≤ (u.log2 - 52 : Nat)) {v : Nat} (same : v * 2 ^ (-e).toNat = u * m)
    (high : v.log2 ≤ 2096) : Holds (x * y) (roundedUnits v) := by
  obtain ⟨whole, positive, shape⟩ := holds
  have packed : x * y = .ofModel (.pack (UnpackedFloat.mul .binary64
      x.toModel.unpack y.toModel.unpack)) := rfl
  generalize mantissa : u / 2 ^ (u.log2 - 52) = n at *
  have scaled : v = n * m * 2 ^ (((u.log2 - 52 : Nat) - 1074 : Int) + e + 1074).toNat := by
    have exponent :
        (((u.log2 - 52 : Nat) - 1074 : Int) + e + 1074).toNat + (-e).toNat = u.log2 - 52 := by omega
    apply Nat.eq_of_mul_eq_mul_right (Nat.two_pow_pos (-e).toNat)
    rw [same, Nat.mul_assoc (n * m), ← Nat.pow_add, exponent]
    nth_rewrite 1 [← whole]
    ac_rfl
  have long : 52 ≤ (n * m).log2 :=
    (Nat.le_log2 (Nat.ne_of_gt (Nat.mul_pos positive filled))).mpr
      (Nat.le_trans full (Nat.le_mul_of_pos_left _ positive))
  obtain ⟨kept, rounded⟩ := roundWithAccuracy_units .positive (Nat.mul_pos positive filled) (by omega)
    (by unfold aim; omega) scaled
  have product : UnpackedFloat.mul .binary64 (.finite .positive n ((u.log2 - 52 : Nat) - 1074) positive)
      (.finite .positive m e filled) = _ := rounded
  have grown := log2_roundedQuotient_le v 1
  rw [← roundedUnits_eq, Nat.div_one] at grown
  have some : 0 < v := scaled ▸ Nat.mul_pos (Nat.mul_pos positive filled) (Nat.two_pow_pos _)
  rw [shape, factor, product] at packed
  exact ⟨mantissa_roundedUnits some, kept, unpack_of_packed (by omega) packed⟩

theorem times_hundred (holds : Holds x u) (low : 900 ≤ u.log2) (high : u.log2 ≤ 1111) :
    Holds (x * 100) (roundedUnits (u * 100)) := by
  have hundred : (100 : Float).toModel.unpack =
      .finite .positive (100 * 2 ^ 46) (-46) (by decide) := by rfl
  have shifted := log2_shiftLeft_le u 7
  have most : (u * 100).log2 ≤ (u * 2 ^ 7).log2 := log2_le_of_le (Nat.mul_le_mul_left _ (by decide))
  exact holds.times hundred (by decide) (by decide) (by omega) (Nat.mul_assoc ..) (by omega)

end Holds

namespace Part
variable {k n : Nat} (part : Part k n)
include part

theorem bits : k.log2 ≤ 36 ∧ n.log2 ≤ 36 := by
  have low := log2_le_of_le (Nat.le_of_lt part.few)
  have lower := log2_le_of_le part.le
  rw [Nat.log2_two_pow] at low
  omega

theorem long : 1000 ≤ (k * 2 ^ 1074 / n).log2 ∧ (k * 2 ^ 1074 / n).log2 ≤ 1110 := by
  have bits := part.bits
  have some := part.some
  have le := part.le
  have high := log2_le_of_le (Nat.div_le_self (k * 2 ^ 1074) n)
  have shifted := log2_shiftLeft_le k 1074
  exact ⟨le_log2_quotient (j := 1074) some (Nat.lt_of_lt_of_le some le) (by omega), by omega⟩

theorem quotient_error :
    2 ^ 53 * (((n * shareUnits k n : Nat) : Int) - (k * 2 ^ 1074 : Nat)).natAbs ≤ k * 2 ^ 1074 := by
  have some := part.some
  have le := part.le
  have long := part.long
  exact roundedQuotient_error (by omega) (by omega)

theorem shareUnits_le : 2 ^ 900 ≤ shareUnits k n := by
  have error := part.quotient_error
  have filled : 2 ^ 1074 ≤ k * 2 ^ 1074 := Nat.le_mul_of_pos_left _ part.some
  have most : n * shareUnits k n ≤ 2 ^ 173 * shareUnits k n :=
    Nat.mul_le_mul_right _ (Nat.le_of_lt (Nat.lt_of_lt_of_le part.few (by decide)))
  have split : 2 ^ 174 * 2 ^ 900 = 2 ^ 1074 :=
    two_pow_split (a := 174) (b := 900) (c := 1074) rfl
  apply Nat.le_of_mul_le_mul_left _ (Nat.two_pow_pos 174)
  rw [split]
  generalize k * 2 ^ 1074 = held at *
  generalize 2 ^ 1074 = one at *
  omega

theorem log2_shareUnits : 900 ≤ (shareUnits k n).log2 ∧ (shareUnits k n).log2 ≤ 1111 := by
  have long := part.long
  have low := part.shareUnits_le
  have high := log2_roundedQuotient_le (k * 2 ^ 1074) n
  rw [← shareUnits] at high
  have filled : shareUnits k n ≠ 0 := Nat.ne_of_gt (Nat.lt_of_lt_of_le (Nat.two_pow_pos _) low)
  exact ⟨(Nat.le_log2 filled).mpr low, by omega⟩

theorem holds_ratio : Holds (ratio k n) (shareUnits k n) := by
  have some := part.some
  have le := part.le
  have few := part.few
  have bits := part.bits
  have share := part.log2_shareUnits
  obtain ⟨positive, shape⟩ := unpack_whole (n := k) some (by omega)
  obtain ⟨other, shapeN⟩ := unpack_whole (n := n) (by omega) (by omega)
  have log (m : Nat) (filled : m ≠ 0) (short : m.log2 ≤ 36) : (m * 2 ^ (52 - m.log2)).log2 = 52 := by
    rw [log2_times_power filled]
    omega
  have quotient := div_quotient (s := .positive) (t := .positive) positive other
    (e := k.log2 - 52) (k := n.log2 - 52) (by omega)
    (by rw [log k (by omega) bits.1, log n (by omega) bits.2]; omega) rfl
  have same : roundedQuotient (k * 2 ^ (52 - k.log2) *
      2 ^ ((k.log2 - 52 : Int) - (n.log2 - 52) + 1074).toNat) (n * 2 ^ (52 - n.log2)) =
      shareUnits k n := by
    have exponent : 52 - k.log2 + ((k.log2 - 52 : Int) - (n.log2 - 52) + 1074).toNat =
        1074 + (52 - n.log2) := by omega
    have split (i j : Nat) : k * 2 ^ (i + j) = k * 2 ^ i * 2 ^ j := by
      rw [Nat.pow_add, Nat.mul_assoc]
    rw [Nat.mul_assoc, ← Nat.pow_add, exponent, split,
      roundedQuotient_scaled _ _ (Nat.two_pow_pos _), shareUnits]
  rw [same] at quotient
  obtain ⟨filled, divided, whole⟩ := quotient
  have packed : ratio k n = .ofModel (.pack (UnpackedFloat.div .binary64
      (nearest k 0).toModel.unpack (nearest n 0).toModel.unpack)) := rfl
  rw [shape, shapeN, divided] at packed
  exact ⟨whole, filled, unpack_of_packed (by omega) packed⟩

theorem holds_percent : Holds (ratio k n * 100) (percentUnits k n) :=
  part.holds_ratio.times_hundred part.log2_shareUnits.1 part.log2_shareUnits.2

end Part

/-! How far it is from the exact share. -/

theorem distance_le {a b c : Nat} (near : 2 ^ 53 * ((a : Int) - b).natAbs ≤ c) :
    2 ^ 53 * |(a : ℚ) - b| ≤ c := by
  have size : ((((a : Int) - b).natAbs : Nat) : ℚ) = |(a : ℚ) - b| := by
    rw [Nat.cast_natAbs]
    push_cast
    rfl
  rw [← size]
  exact_mod_cast near

/-- Each of three roundings is off by a share of 2^-53, and by next to nothing besides. -/
theorem percent_error {x q u d one finest : ℚ} (most : x ≤ 1)
    (quotient : 2 ^ 53 * |q - x| ≤ x) (product : 2 ^ 53 * |u - 100 * q| ≤ 100 * q)
    (decimal : 2 ^ 53 * |d - u| ≤ u + 2 ^ 52 / one + 2 ^ 53 / finest) (small : 2 ^ 72 ≤ one)
    (fine : 2 ^ 64 ≤ finest) : |d - 100 * x| < 1 / 2 ^ 44 := by
  have unit : 2 ^ 52 / one ≤ 1 / 2 ^ 20 := by
    rw [div_le_div_iff₀ (by linarith) (by norm_num)]
    linarith
  have step : 2 ^ 53 / finest ≤ 1 / 2 ^ 11 := by
    rw [div_le_div_iff₀ (by linarith) (by norm_num)]
    linarith
  have first := abs_le.mp (show |q - x| ≤ x / 2 ^ 53 by linarith)
  have second := abs_le.mp (show |u - 100 * q| ≤ 100 * q / 2 ^ 53 by linarith)
  have third := abs_le.mp
    (show |d - u| ≤ (u + 2 ^ 52 / one + 2 ^ 53 / finest) / 2 ^ 53 by linarith)
  rw [abs_lt]
  constructor <;> linarith

theorem distance_over {a b c den : ℚ} (some : 0 < den) (near : 2 ^ 53 * |a - b| ≤ c) :
    2 ^ 53 * |a / den - b / den| ≤ c / den := by
  rw [← sub_div, abs_div, abs_of_pos some, ← mul_div_assoc]
  exact div_le_div_of_nonneg_right near some.le

theorem finest_steps : 2 ^ 64 ≤ 10 ^ finestPlace := by
  have wide {k : Nat} (le : 20 ≤ k) : 2 ^ 64 ≤ 10 ^ k :=
    Nat.le_trans (by decide) (Nat.pow_le_pow_right (by decide) le)
  exact wide (by decide)

theorem hundredths_le_iff {d p c : Nat} :
    (Decimal.mk d (p - finestPlace)).hundredths ≤ c ↔
      200 * (((d * 10 ^ p : Nat) : ℚ) / (10 ^ finestPlace : Nat)) < 2 * c + 1 := by
  have places {k : Nat} (same : finestPlace = k + 2) : 10 ^ finestPlace = 100 * 10 ^ k := by
    rw [same, Nat.pow_add, Nat.mul_comm]
  have whole := @Decimal.hundredths_le_iff d p 398 c
  rw [← places rfl] at whole
  have finest : 0 < 10 ^ finestPlace := Nat.pow_pos (by decide)
  refine whole.trans ?_
  generalize 10 ^ finestPlace = f at *
  generalize d * 10 ^ p = a
  have some : (0 : ℚ) < f := by exact_mod_cast finest
  rw [← mul_div_assoc, div_lt_iff₀ some, ← Nat.mul_assoc]
  exact_mod_cast Iff.rfl

namespace Part
variable {k n : Nat} (part : Part k n)
include part

theorem percent_near :
    ∃ d p : Nat, shortest (ratio k n * 100) = ⟨d, p - finestPlace⟩ ∧
      |((d * 10 ^ p : Nat) : ℚ) / (10 ^ finestPlace : Nat) - 100 * (k / n)| < 1 / 2 ^ 44 := by
  have holds := part.holds_percent
  have whole : (0 : ℚ) < n := by exact_mod_cast Nat.lt_of_lt_of_le part.some part.le
  have most : (k : ℚ) / n ≤ 1 := (div_le_one whole).mpr (by exact_mod_cast part.le)
  have quotient := part.quotient_error
  have product := roundedUnits_error (shareUnits k n * 100)
  obtain ⟨d, p, found, decimal⟩ := shortest_steps holds.isFinite
  have fine := finest_steps
  have small := finest_grid.2
  rw [holds.units_eq, Int.natAbs_natCast, percentUnits] at decimal
  rw [← natAbs_unitsPerOne] at quotient
  refine ⟨d, p, found, ?_⟩
  generalize unitsPerOne.natAbs = one at *
  generalize 10 ^ finestPlace = finest at *
  generalize d * 10 ^ p = a at *
  generalize shareUnits k n = q at *
  generalize roundedUnits (q * 100) = u at *
  have smallQ : (2 : ℚ) ^ 72 ≤ one := by exact_mod_cast small
  have fineQ : (2 : ℚ) ^ 64 ≤ finest := by exact_mod_cast fine
  have some : (0 : ℚ) < one := by linarith
  have someToo : (0 : ℚ) < finest := by linarith
  have divided := distance_over (mul_pos whole some) (distance_le quotient)
  have multiplied := distance_over some (distance_le product)
  have written := distance_over (mul_pos some someToo) (distance_le decimal)
  simp only [Nat.cast_mul, Nat.cast_add, Nat.cast_pow, Nat.cast_ofNat] at divided multiplied written
  apply percent_error (q := q / one) (u := u / one) most _ _ _ smallQ fineQ
  · rwa [mul_div_mul_left _ _ whole.ne', mul_div_mul_right _ _ some.ne'] at divided
  · rwa [mul_comm (q : ℚ), mul_div_assoc] at multiplied
  · have sum : (((u : ℚ) + 2 ^ 52) * finest + 2 ^ 53 * one) / (one * finest) =
        u / one + 2 ^ 52 / one + 2 ^ 53 / finest := by field_simp
    rwa [sum, mul_comm (one : ℚ), mul_div_mul_right _ _ some.ne', mul_comm (finest : ℚ),
      mul_div_mul_right _ _ someToo.ne'] at written

/-- Shares of a moderate number of steps are far enough from each other. -/
theorem step_le : 1 / 2 ^ 36 ≤ 1 / (n : ℚ) := by
  have whole : (0 : ℚ) < n := by exact_mod_cast Nat.lt_of_lt_of_le part.some part.le
  have few : (n : ℚ) ≤ 2 ^ 36 := by exact_mod_cast Nat.le_of_lt part.few
  exact one_div_le_one_div_of_le whole few

/-- A percentage is rounded to hundredths like the exact share, unless that is halfway. -/
theorem hundredths_le {c : Nat} (below : 20000 * k < (2 * c + 1) * n) :
    (shortest (ratio k n * 100)).hundredths ≤ c := by
  obtain ⟨d, p, found, near⟩ := part.percent_near
  have whole : (0 : ℚ) < n := by exact_mod_cast Nat.lt_of_lt_of_le part.some part.le
  have gap : 20000 * ((k : ℚ) / n) + 1 / n ≤ 2 * c + 1 := by
    rw [← mul_div_assoc, ← add_div, div_le_iff₀ whole]
    exact_mod_cast below
  have step := part.step_le
  have upper := (abs_lt.mp near).2
  rw [found, hundredths_le_iff]
  linarith

theorem lt_hundredths {c : Nat} (above : (2 * c + 1) * n < 20000 * k) :
    c < (shortest (ratio k n * 100)).hundredths := by
  obtain ⟨d, p, found, near⟩ := part.percent_near
  have whole : (0 : ℚ) < n := by exact_mod_cast Nat.lt_of_lt_of_le part.some part.le
  have gap : 2 * c + 1 + 1 / n ≤ 20000 * ((k : ℚ) / n) := by
    rw [← mul_div_assoc, le_div_iff₀ whole, add_mul, one_div_mul_cancel whole.ne']
    exact_mod_cast above
  have step := part.step_le
  have lower := (abs_lt.mp near).1
  rw [found, ← Nat.not_le, hundredths_le_iff]
  linarith

theorem heldHundredths_eq :
    heldHundredths (ratio k n * 100) = (shortest (ratio k n * 100)).hundredths := by
  have some := part.some
  have le := part.le
  have most := part.hundredths_le (c := 10000) (by omega)
  have held : (shortest (ratio k n * 100)).hundredths < hundredthsLimit :=
    Nat.lt_of_le_of_lt most (by decide)
  rw [heldHundredths, if_pos held]

end Part

theorem percentUnits_scaled (k n : Nat) {j : Nat} (some : 0 < j) :
    percentUnits (k * j) (n * j) = percentUnits k n := by
  have scale (w : Nat) : k * j * w = k * w * j := by ac_rfl
  rw [percentUnits, shareUnits, scale, roundedQuotient_scaled _ _ some, percentUnits, shareUnits]

theorem heldHundredths_scaled {k n j : Nat} (part : Part k n) (same : Part (k * j) (n * j)) :
    heldHundredths (ratio (k * j) (n * j) * 100) = heldHundredths (ratio k n * 100) := by
  have holds := same.holds_percent
  rw [percentUnits_scaled k n (Nat.pos_of_mul_pos_left same.some)] at holds
  exact (holds.alike part.holds_percent).heldHundredths

end Joinery.Estimate
