import Joinery.Number.Hundredths
import Joinery.Proofs.Number.Quotient

/-!
Doubles that stand for hundredths. Whatever is rounded to hundredths holds a whole number of them as
nearly as a double can, and as long as that number is not too large no other double is as near to it,
so that the number can be told from the double.
-/
namespace Joinery.Number
open Float.Model
open Float.Model.UnpackedFloat (Sign)

def cents (x : Float) : Int := (200 * units x + unitsPerOne) / (2 * unitsPerOne)

/-- No other double is as near to a number of hundredths. -/
structure NearestCents (n : Int) (x : Float) : Prop where
  finite : x.isFinite = true
  nearest : ∀ y : Float, y.isFinite = true → units y ≠ units x →
    (n * unitsPerOne - 100 * units x).natAbs < (n * unitsPerOne - 100 * units y).natAbs

/-- A double with what a number of hundredths is rounded to. -/
inductive HoldsCents : Int → Float → Prop where
  | above {k : Nat} {x : Float} (finite : x.isFinite = true) (same : units x = centUnits k) :
    HoldsCents k x
  | below {k : Nat} {x : Float} (finite : x.isFinite = true) (same : units x = -centUnits k) :
    HoldsCents (-k) x

theorem unitsPerOne_eq : unitsPerOne = ((2 ^ 1074 : Nat) : Int) := (Int.natCast_pow 2 1074).symm

theorem natAbs_unitsPerOne : unitsPerOne.natAbs = 2 ^ 1074 := by
  rw [unitsPerOne_eq]
  exact Int.natAbs_natCast _

theorem unitsPerOne_pos : 0 < unitsPerOne := by
  rw [unitsPerOne_eq]
  exact Int.natCast_pos.mpr (Nat.two_pow_pos 1074)

theorem centUnits_zero : centUnits 0 = 0 := by
  have none (k : Nat) : roundedQuotient (0 * 2 ^ k) 100 = 0 := by
    rw [Nat.zero_mul]
    rfl
  exact none 1074

theorem centUnits_error (n : Nat) :
    2 ^ 53 * ((n : Int) * unitsPerOne - 100 * centUnits n).natAbs ≤ n * unitsPerOne.natAbs := by
  rcases Nat.eq_zero_or_pos n with rfl | some
  · rw [centUnits_zero]
    simp
  · have error := roundedQuotient_error (by decide) (long_cents some)
    have size : (n : Int) * unitsPerOne = ((n * 2 ^ 1074 : Nat) : Int) := by
      rw [unitsPerOne_eq, ← Int.natCast_mul]
    rw [← centUnits] at error
    rw [size, natAbs_unitsPerOne]
    generalize n * 2 ^ 1074 = v at *
    omega

theorem natAbs_scaled (a b w : Nat) :
    (((a * w : Nat) : Int) - (b * w : Nat)).natAbs = ((a : Int) - b).natAbs * w := by
  rw [Int.natCast_mul, Int.natCast_mul, ← Int.sub_mul, Int.natAbs_mul, Int.natAbs_natCast]

/-- A number of hundredths of moderate size never lies halfway between two doubles. -/
theorem centUnits_apart {n : Nat} (most : n ≤ 2 ^ 48) :
    2 * (((100 * centUnits n : Nat) : Int) - (n * 2 ^ 1074 : Nat)).natAbs ≠
      100 * 2 ^ ((n * 2 ^ 1074 / 100).log2 - 52) := by
  have digits : n.log2 ≤ 48 := by
    have bits := log2_le_of_le most
    rwa [Nat.log2_two_pow] at bits
  have places := log2_cents_le n
  rw [centUnits, roundedQuotient]
  generalize roundHalfEven (n * 2 ^ 1074) _ = r
  generalize (n * 2 ^ 1074 / 100).log2 = l at *
  obtain ⟨j, split⟩ : ∃ j, 1074 = j + 2 + (l - 52) := ⟨1074 - 2 - (l - 52), by omega⟩
  generalize l - 52 = k at *
  have whole : n * 2 ^ 1074 = 4 * (n * 2 ^ j) * 2 ^ k := by
    rw [split, Nat.pow_add, Nat.pow_add, show 2 ^ 2 = 4 from rfl]
    ac_rfl
  rw [whole, ← Nat.mul_assoc, natAbs_scaled, ← Nat.mul_assoc]
  -- halfway, a multiple of four would be fifty
  intro tie
  have half := Nat.eq_of_mul_eq_mul_right (Nat.two_pow_pos k) tie
  omega

theorem centUnits_nearest {n : Nat} (most : n ≤ 2 ^ 48) {v : Int} (held : Held v.natAbs)
    (different : v ≠ centUnits n) :
    ((n : Int) * unitsPerOne - 100 * centUnits n).natAbs <
      ((n : Int) * unitsPerOne - 100 * v).natAbs := by
  rcases Nat.eq_zero_or_pos n with rfl | some
  · rw [centUnits_zero] at different ⊢
    omega
  · have size : (n : Int) * unitsPerOne = ((n * 2 ^ 1074 : Nat) : Int) := by
      rw [unitsPerOne_eq, ← Int.natCast_mul]
    have filled : 0 < n * 2 ^ 1074 := Nat.mul_pos some (Nat.two_pow_pos 1074)
    have error := roundedQuotient_error (by decide) (long_cents some)
    have near {u : Nat} := roundedQuotient_nearest (u := u) (by decide) (long_cents some)
      (centUnits_apart most)
    rw [← centUnits] at error near
    rw [size]
    generalize n * 2 ^ 1074 = w at *
    rcases Int.lt_or_le v 0 with negative | natural
    · omega
    · obtain ⟨u, rfl⟩ := Int.eq_ofNat_of_zero_le natural
      have nearer := near held (by omega)
      omega

namespace HoldsCents
variable {n : Int} {x : Float} (holds : HoldsCents n x)
include holds

theorem isFinite : x.isFinite = true := by
  cases holds <;> assumption

theorem error : 2 ^ 53 * (n * unitsPerOne - 100 * units x).natAbs ≤ n.natAbs * unitsPerOne.natAbs := by
  cases holds with
  | above finite same =>
    rw [same]
    exact centUnits_error _
  | @below k _ finite same =>
    have error := centUnits_error k
    rw [same, Int.neg_mul, Int.natAbs_neg, Int.natAbs_natCast]
    omega

theorem nearestCents (most : n.natAbs ≤ 2 ^ 48) : NearestCents n x := by
  refine ⟨holds.isFinite, fun y finite different => ?_⟩
  cases holds with
  | above _ same =>
    rw [same] at different ⊢
    exact centUnits_nearest (by omega) (held_units finite) different
  | @below k _ _ same =>
    rw [same] at different ⊢
    have held : Held (-units y).natAbs := by
      rw [Int.natAbs_neg]
      exact held_units finite
    have nearest := centUnits_nearest (n := k) (by omega) held (by omega)
    rw [Int.neg_mul]
    omega

theorem near (most : n.natAbs ≤ 2 ^ 48) :
    2 * (n * unitsPerOne - 100 * units x).natAbs < unitsPerOne.natAbs := by
  have error := holds.error
  have positive := unitsPerOne_pos
  have share : n.natAbs * unitsPerOne.natAbs ≤ 2 ^ 48 * unitsPerOne.natAbs :=
    Nat.mul_le_mul_right _ most
  omega

theorem cents_eq (most : n.natAbs ≤ 2 ^ 48) : cents x = n := by
  have near := holds.near most
  have positive := unitsPerOne_pos
  have low : n * (2 * unitsPerOne) ≤ 200 * units x + unitsPerOne := by
    rw [Int.mul_left_comm]
    omega
  have high : 200 * units x + unitsPerOne < (n + 1) * (2 * unitsPerOne) := by
    rw [Int.mul_left_comm, Int.add_mul, Int.one_mul]
    omega
  rw [cents]
  apply Int.le_antisymm
  · exact Int.le_of_lt_add_one (Int.ediv_lt_of_lt_mul (by omega) high)
  · exact Int.le_ediv_of_mul_le (by omega) low

end HoldsCents

/-! What rounding to hundredths gives. -/

theorem neg_finite {x : Float} (finite : x.isFinite = true) :
    (-x).isFinite = true ∧ units (-x) = -units x := by
  have packed : (-x).toModel.unpack = (Float.Model.pack x.toModel.unpack.neg).unpack := rfl
  change (-x).toModel.unpack.isFinite = true ∧ _
  rcases shape_of_finite finite with ⟨s, shape⟩ | ⟨s, m, e, positive, shape⟩
  · have zero : (-x).toModel.unpack = .zero (-s) := by
      rw [packed, shape]
      cases s <;> rfl
    rw [units_of_zero zero, units_of_zero shape, zero]
    exact ⟨rfl, rfl⟩
  · have opposite : (-x).toModel.unpack = .finite (-s) m e positive := by
      rw [packed, shape]
      exact unpack_pack_fits positive (fits_of_unpack shape)
    rw [units_of_finite opposite, units_of_finite shape, opposite]
    refine ⟨rfl, ?_⟩
    cases s
    · exact (Int.neg_neg _).symm
    · rfl

theorem heldHundredths_lt (z : Float) : heldHundredths z < hundredthsLimit := by
  simp only [heldHundredths]
  split
  · assumption
  · decide

def roundedCents (z : Float) : Int := if z < 0 then -heldHundredths z else heldHundredths z

theorem holds_roundHundredths (z : Float) : HoldsCents (roundedCents z) (roundHundredths z) := by
  obtain ⟨finite, same⟩ := units_toFloat (heldHundredths_lt z)
  rw [roundedCents, roundHundredths]
  by_cases below : z < 0
  · rw [if_pos below]
    by_cases none : heldHundredths z = 0
    · rw [none] at finite same ⊢
      simpa [below] using HoldsCents.above finite same
    · obtain ⟨finiteToo, opposite⟩ := neg_finite finite
      simpa [below, none] using HoldsCents.below finiteToo (opposite.trans (congrArg _ same))
  · simpa [below] using HoldsCents.above finite same

end Joinery.Number
