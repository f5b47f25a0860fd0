import Joinery.Proofs.Estimate.Share
import Joinery.Proofs.Number.Correct

/-!
Portions of as many steps as a list can hold. Their numbers are rounded to doubles before they are
divided, and no rounding on the way to a percentage puts a larger portion below a smaller one.
-/
namespace Joinery.Estimate
open Number
open Float.Model
open Float.Model.UnpackedFloat (Sign)

def wholeUnits (n : Nat) : Nat := roundedUnits (n * 2 ^ 1074)

theorem log2_wholeUnits {n : Nat} (some : 0 < n) :
    n.log2 + 1074 ≤ (wholeUnits n).log2 ∧ (wholeUnits n).log2 ≤ n.log2 + 1075 := by
  have places := log2_times_power (Nat.ne_of_gt some) 1074
  have low := @log2_le_roundedQuotient (n * 2 ^ 1074) 1 (by rw [Nat.div_one]; omega)
  have high := log2_roundedQuotient_le (n * 2 ^ 1074) 1
  rw [← roundedUnits_eq, Nat.div_one, ← wholeUnits] at low high
  omega

theorem wholeUnits_pos {n : Nat} (some : 0 < n) : 0 < wholeUnits n :=
  Nat.mul_pos (leading_pos (Nat.mul_pos some (Nat.two_pow_pos 1074))) (Nat.two_pow_pos _)

theorem holds_whole {n : Nat} (some : 0 < n) (small : n.log2 ≤ 1000) :
    Holds (nearest n 0) (wholeUnits n) := by
  have bits := log2_wholeUnits some
  have places : ((0 : Int) + 1074).toNat = 1074 := rfl
  have found := round_units .positive some (e := 0) (by decide) rfl
  rw [places, ← wholeUnits] at found
  obtain ⟨positive, rounded⟩ := found
  have packed : nearest n 0 = .ofModel (.pack (UnpackedFloat.round .binary64 .positive n 0)) := by
    rw [nearest, normalize_eq, if_neg (by omega), if_neg (by omega), Int.natAbs_natCast]
  rw [rounded] at packed
  exact ⟨mantissa_roundedUnits (Nat.mul_pos some (Nat.two_pow_pos 1074)), positive,
    unpack_of_packed (by omega) packed⟩

theorem log2_of_few {n : Nat} (some : 0 < n) (few : n < 2 ^ 63) : n.log2 < 63 :=
  (Nat.log2_lt (Nat.ne_of_gt some)).mpr few

namespace Holds
variable {x y : Float} {u v : Nat}

theorem log2_mantissa (holds : Holds x u) : (u / 2 ^ (u.log2 - 52)).log2 + (u.log2 - 52) = u.log2 := by
  obtain ⟨whole, positive, -⟩ := holds
  rw [← log2_times_power (Nat.ne_of_gt positive), whole]

theorem dvd (holds : Holds x u) {k : Nat} (places : k ≤ u.log2 - 52) : 2 ^ k ∣ u :=
  Nat.dvd_trans (Nat.pow_dvd_pow 2 places) (Dvd.intro_left _ holds.whole)

theorem eq (first : Holds x u) (second : Holds y u) : x = y := by
  obtain ⟨_, shape⟩ := first.shape
  obtain ⟨_, shapeToo⟩ := second.shape
  exact eq_of_unpack first.isFinite (shape.trans shapeToo.symm)

theorem quotient (first : Holds x u) (second : Holds y v) (le : u ≤ v) (near : v.log2 ≤ u.log2 + 1021) :
    Holds (x / y) (roundedQuotient (u * 2 ^ 1074) v) := by
  have mantissa := first.log2_mantissa
  have other := second.log2_mantissa
  obtain ⟨whole, positive, shape⟩ := first
  obtain ⟨wholeToo, positiveToo, shapeToo⟩ := second
  have packed : x / y = .ofModel (.pack (UnpackedFloat.div .binary64
      x.toModel.unpack y.toModel.unpack)) := rfl
  have found := div_quotient (s := .positive) (t := .positive) positive positiveToo
    (e := (u.log2 - 52 : Nat) - 1074) (k := (v.log2 - 52 : Nat) - 1074) (by omega) (by omega) rfl
  have same : roundedQuotient (u / 2 ^ (u.log2 - 52) * 2 ^ ((((u.log2 - 52 : Nat) : Int) - 1074) -
      (((v.log2 - 52 : Nat) : Int) - 1074) + 1074).toNat) (v / 2 ^ (v.log2 - 52)) =
      roundedQuotient (u * 2 ^ 1074) v := by
    have exponent : ((((u.log2 - 52 : Nat) : Int) - 1074) -
        (((v.log2 - 52 : Nat) : Int) - 1074) + 1074).toNat + (v.log2 - 52) = u.log2 - 52 + 1074 := by
      omega
    rw [← roundedQuotient_scaled _ _ (Nat.two_pow_pos (v.log2 - 52)), wholeToo, Nat.mul_assoc,
      ← Nat.pow_add, exponent, Nat.pow_add, ← Nat.mul_assoc, whole]
  rw [same] at found
  obtain ⟨filled, divided, kept⟩ := found
  have bits : (u * 2 ^ 1074 / v).log2 ≤ 1074 :=
    log2_le_of_two_pow (Nat.div_le_of_le_mul (Nat.mul_le_mul_right _ le))
  have grown := log2_roundedQuotient_le (u * 2 ^ 1074) v
  rw [shape, shapeToo, divided] at packed
  exact ⟨kept, filled, unpack_of_packed (by omega) packed⟩

end Holds

/-- Some steps of as many as a list can hold. -/
structure Portion (k n : Nat) : Prop where
  some : 0 < k
  le : k ≤ n
  few : n < 2 ^ 63

def portionUnits (k n : Nat) : Nat := roundedQuotient (wholeUnits k * 2 ^ 1074) (wholeUnits n)

namespace Portion
variable {k l n : Nat} (portion : Portion k n)
include portion

theorem bits : (1074 ≤ (wholeUnits k).log2 ∧ (wholeUnits k).log2 ≤ 1137) ∧
    (1074 ≤ (wholeUnits n).log2 ∧ (wholeUnits n).log2 ≤ 1137) := by
  have ⟨some, le, few⟩ := portion
  have part := log2_wholeUnits some
  have whole := log2_wholeUnits (by omega : 0 < n)
  have bits := log2_of_few some (by omega)
  have bitsToo := log2_of_few (by omega) few
  omega

theorem wholeUnits_le : wholeUnits k ≤ wholeUnits n :=
  roundedUnits_le (Nat.mul_le_mul_right _ portion.le)

theorem filled : 0 < wholeUnits k ∧ 0 < wholeUnits n := by
  have ⟨some, le, _⟩ := portion
  exact ⟨wholeUnits_pos some, wholeUnits_pos (by omega)⟩

theorem long : 1008 ≤ (wholeUnits k * 2 ^ 1074 / wholeUnits n).log2 ∧
    (wholeUnits k * 2 ^ 1074 / wholeUnits n).log2 ≤ 1074 := by
  have bits := portion.bits
  exact ⟨le_log2_quotient (j := 1074) portion.filled.1 portion.filled.2 (by omega),
    log2_le_of_two_pow (Nat.div_le_of_le_mul (Nat.mul_le_mul_right _ portion.wholeUnits_le))⟩

theorem holds_ratio : Holds (ratio k n) (portionUnits k n) := by
  have ⟨some, le, few⟩ := portion
  have bits := portion.bits
  have first := log2_of_few some (by omega)
  have second := log2_of_few (by omega) few
  exact (holds_whole some (by omega)).quotient (holds_whole (by omega) (by omega))
    portion.wholeUnits_le (by omega)

theorem log2_portionUnits : 1008 ≤ (portionUnits k n).log2 ∧ (portionUnits k n).log2 ≤ 1075 := by
  have long := portion.long
  have low := log2_le_roundedQuotient (by omega : 52 ≤ (wholeUnits k * 2 ^ 1074 / wholeUnits n).log2)
  have high := log2_roundedQuotient_le (wholeUnits k * 2 ^ 1074) (wholeUnits n)
  rw [← portionUnits] at low high
  omega

theorem holds_percent : Holds (ratio k n * 100) (roundedUnits (portionUnits k n * 100)) := by
  have bits := portion.log2_portionUnits
  exact portion.holds_ratio.times_hundred (by omega) (by omega)

theorem portionUnits_le (other : Portion l n) (le : k ≤ l) : portionUnits k n ≤ portionUnits l n := by
  have long := portion.long
  have longToo := other.long
  have some := portion.filled.2
  refine (roundsTo_quotient some (by omega) (by omega)).mono
    (roundsTo_quotient some (by omega) (by omega)) ?_
  have wider : wholeUnits k * 2 ^ 1074 ≤ wholeUnits l * 2 ^ 1074 :=
    Nat.mul_le_mul_right _ (roundedUnits_le (Nat.mul_le_mul_right _ le))
  exact div_le_div_of_nonneg_right (Nat.cast_le.mpr wider) (Nat.cast_nonneg _)

theorem percent_inRange : InRange (ratio k n * 100) := by
  have holds := portion.holds_percent
  refine ⟨holds.isFinite, ?_⟩
  have bits := portion.log2_portionUnits
  have small := lt_two_pow (n := portionUnits k n) (k := 1108) (by omega)
  have within := (roundedUnits_within (portionUnits k n * 100)).2
  rw [holds.units_eq, Int.natAbs_natCast]
  calc
    roundedUnits (portionUnits k n * 100) ≤ 5820766091346741 * portionUnits k n := by omega
    _ < 5820766091346741 * 2 ^ 1108 := (Nat.mul_lt_mul_left (by decide)).mpr small

theorem percent_le (other : Portion l n) (le : k ≤ l) : ratio k n * 100 ≤ ratio l n * 100 := by
  have first := portion.holds_percent
  have second := other.holds_percent
  rw [le_iff_units first.isFinite second.isFinite, first.units_eq, second.units_eq]
  exact_mod_cast roundedUnits_le (Nat.mul_le_mul_right 100 (portion.portionUnits_le other le))

theorem rounded_le (other : Portion l n) (le : k ≤ l) :
    roundHundredths (ratio k n * 100) ≤ roundHundredths (ratio l n * 100) :=
  roundHundredths_mono portion.percent_inRange other.percent_inRange (portion.percent_le other le)

end Portion

theorem ratio_self {n : Nat} (some : 0 < n) (few : n < 2 ^ 63) : ratio n n = 1 := by
  have portion : Portion n n := ⟨some, Nat.le_refl n, few⟩
  have holds := portion.holds_ratio
  have one : nearest (1 : Nat) 0 = 1 := by decide +kernel
  have unit := holds_whole Nat.one_pos (by decide)
  have same : portionUnits n n = wholeUnits 1 := roundedQuotient_self portion.filled.2 1074
  rw [same] at holds
  rw [one] at unit
  exact holds.eq unit

end Joinery.Estimate
