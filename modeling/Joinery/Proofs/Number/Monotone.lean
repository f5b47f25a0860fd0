import Joinery.Proofs.Number.Bound
import Joinery.Proofs.Number.Order

/-!
Rounding keeps the order. The places that a shift drops are kept as two bits, so that a shorter
mantissa is ordered by itself and then by these bits; every shift and the final rounding respect
that order. A number with fewer places than another one is rounded to no more than the least number
with that many places.
-/
namespace Joinery.Number
open Float.Model
open Float.Model.UnpackedFloat (Sign Accuracy ExtendedMantissa shiftToTargetExponent
  roundWithAccuracy decreaseExponent)

def bits (em : ExtendedMantissa) : Nat :=
  4 * em.mantissa + 2 * em.roundBit.toNat + em.stickyBit.toNat

theorem bits_shiftRightOne (em : ExtendedMantissa) :
    bits em.shiftRightOne = 2 * em.mantissa + (em.roundBit || em.stickyBit).toNat := by
  have parity : (em.mantissa % 2 != 0).toNat = em.mantissa % 2 := by
    rcases Nat.mod_two_eq_zero_or_one em.mantissa with even | odd
    · rw [even]
      rfl
    · rw [odd]
      rfl
  simp only [bits, ExtendedMantissa.shiftRightOne, parity]
  omega

theorem bits_shiftRightOne_le {a b : ExtendedMantissa} (le : bits a ≤ bits b) :
    bits a.shiftRightOne ≤ bits b.shiftRightOne := by
  rw [bits_shiftRightOne, bits_shiftRightOne]
  obtain ⟨m, r, s⟩ := a
  obtain ⟨n, q, t⟩ := b
  cases r <;> cases s <;> cases q <;> cases t <;> simp [bits] at le ⊢ <;> omega

theorem bits_shiftRight_le {a b : ExtendedMantissa} (le : bits a ≤ bits b) (k : Nat) :
    bits (a >>> k) ≤ bits (b >>> k) := by
  induction k with
  | zero => exact le
  | succ k ih => exact bits_shiftRightOne_le ih

theorem roundedMantissa_le_of_bits {a b : ExtendedMantissa} (le : bits a ≤ bits b) :
    a.roundedMantissa ≤ b.roundedMantissa := by
  obtain ⟨m, r, s⟩ := a
  obtain ⟨n, q, t⟩ := b
  cases r <;> cases s <;> cases q <;> cases t <;>
    simp [bits, ExtendedMantissa.roundedMantissa, ExtendedMantissa.accuracy,
      Accuracy.roundToNearestEven] at le ⊢ <;> omega

theorem mantissa_le_roundedMantissa (em : ExtendedMantissa) : em.mantissa ≤ em.roundedMantissa := by
  obtain ⟨m, r, s⟩ := em
  cases r <;> cases s <;>
    simp [ExtendedMantissa.roundedMantissa, ExtendedMantissa.accuracy, Accuracy.roundToNearestEven]

def leading (n : Nat) : Nat := (ExtendedMantissa.mk n false false >>> (n.log2 - 52)).roundedMantissa

def roundedUnits (n : Nat) : Nat := leading n * 2 ^ (n.log2 - 52)

theorem div_log2_lt (n : Nat) : n / 2 ^ (n.log2 - 52) < 2 ^ 53 := by
  apply (Nat.div_lt_iff_lt_mul (Nat.two_pow_pos _)).mpr
  rw [← Nat.pow_add]
  exact Nat.lt_of_lt_of_le Nat.lt_log2_self (Nat.pow_le_pow_right (by decide) (by omega))

theorem le_div_log2 {n : Nat} (long : 52 ≤ n.log2) : 2 ^ 52 ≤ n / 2 ^ (n.log2 - 52) := by
  have some : n ≠ 0 := by
    rintro rfl
    simp at long
  apply (Nat.le_div_iff_mul_le (Nat.two_pow_pos _)).mpr
  rw [← Nat.pow_add, Nat.add_sub_cancel' long]
  exact Nat.log2_self_le some

theorem leading_le (n : Nat) : leading n ≤ 2 ^ 53 := by
  have carried := roundedMantissa_le (ExtendedMantissa.mk n false false >>> (n.log2 - 52))
  rw [shifted_mantissa] at carried
  exact Nat.le_trans carried (div_log2_lt n)

theorem le_leading {n : Nat} (long : 52 ≤ n.log2) : 2 ^ 52 ≤ leading n := by
  have kept := mantissa_le_roundedMantissa (ExtendedMantissa.mk n false false >>> (n.log2 - 52))
  rw [shifted_mantissa] at kept
  exact Nat.le_trans (le_div_log2 long) kept

theorem leading_pos {n : Nat} (some : 0 < n) : 0 < leading n := by
  by_cases long : 52 ≤ n.log2
  · have := le_leading long
    omega
  · have cut : n.log2 - 52 = 0 := by omega
    unfold leading
    rw [cut]
    exact some

theorem log2_leading {n : Nat} (long : 52 ≤ n.log2) : 52 ≤ (leading n).log2 := by
  have full := le_leading long
  exact (Nat.le_log2 (by omega)).mpr full

theorem mantissa_scaled {l i : Nat} (some : 0 < l) (most : l ≤ 2 ^ 53) :
    l * 2 ^ i / 2 ^ ((l * 2 ^ i).log2 - 52) * 2 ^ ((l * 2 ^ i).log2 - 52) = l * 2 ^ i := by
  apply Nat.div_mul_cancel
  rw [log2_times_power (Nat.ne_of_gt some)]
  have bits : l.log2 < 54 := (Nat.log2_lt (Nat.ne_of_gt some)).mpr (by omega)
  by_cases carry : l.log2 = 53
  · have full : l = 2 ^ 53 := by
      have := Nat.log2_self_le (Nat.ne_of_gt some)
      rw [carry] at this
      omega
    rw [carry, full, show 53 + i - 52 = 1 + i by omega, Nat.pow_add]
    exact Nat.mul_dvd_mul_right (by decide) _
  · exact Nat.dvd_mul_left_of_dvd (Nat.pow_dvd_pow 2 (by omega)) _

theorem mantissa_roundedUnits {n : Nat} (some : 0 < n) :
    roundedUnits n / 2 ^ ((roundedUnits n).log2 - 52) * 2 ^ ((roundedUnits n).log2 - 52) =
      roundedUnits n := mantissa_scaled (leading_pos some) (leading_le n)

theorem roundedUnits_le {m n : Nat} (le : m ≤ n) : roundedUnits m ≤ roundedUnits n := by
  have places : m.log2 ≤ n.log2 := log2_le_of_le le
  unfold roundedUnits
  by_cases level : m.log2 - 52 = n.log2 - 52
  · unfold leading
    rw [level]
    apply Nat.mul_le_mul_right
    apply roundedMantissa_le_of_bits
    apply bits_shiftRight_le
    simpa [bits] using Nat.mul_le_mul_left 4 le
  · calc
      leading m * 2 ^ (m.log2 - 52) ≤ 2 ^ 53 * 2 ^ (m.log2 - 52) :=
        Nat.mul_le_mul_right _ (leading_le m)
      _ = 2 ^ (53 + (m.log2 - 52)) := (Nat.pow_add ..).symm
      _ ≤ 2 ^ (52 + (n.log2 - 52)) := Nat.pow_le_pow_right (by decide) (by omega)
      _ = 2 ^ 52 * 2 ^ (n.log2 - 52) := Nat.pow_add ..
      _ ≤ leading n * 2 ^ (n.log2 - 52) := Nat.mul_le_mul_right _ (le_leading (by omega))

/-! Rounding a mantissa and an exponent is rounding the number of units that they stand for. -/

theorem shift_add (em : ExtendedMantissa) (j i : Nat) : em >>> (j + i) = (em >>> j) >>> i := by
  induction i with
  | zero => rfl
  | succ i ih =>
    change (em >>> (j + i)).shiftRightOne = ((em >>> j) >>> i).shiftRightOne
    rw [ih]

theorem shift_units {m : Nat} {e : Int} (some : m ≠ 0) (least : -1074 ≤ e) (below : e ≤ aim m e)
    {n : Nat} (same : n = m * 2 ^ (e + 1074).toNat) :
    shiftToTargetExponent .binary64 m e .exact =
      (ExtendedMantissa.mk n false false >>> (n.log2 - 52), ((n.log2 - 52 : Nat) : Int) - 1074) := by
  have places : n.log2 = m.log2 + (e + 1074).toNat := by rw [same, log2_times_power some]
  have cut : n.log2 - 52 = (e + 1074).toNat + (aim m e - e).toNat := by
    unfold aim at *
    omega
  rw [shift_eq, cut, shift_add, same, shifted_multiple]
  refine Prod.ext rfl ?_
  change e + ((aim m e - e).toNat : Int) = _
  omega

theorem roundWithAccuracy_units (s : Sign) {m : Nat} {e : Int} (some : 0 < m) (least : -1074 ≤ e)
    (below : e ≤ aim m e) {n : Nat} (same : n = m * 2 ^ (e + 1074).toNat) :
    ∃ positive, roundWithAccuracy .binary64 s m e .exact =
      .finite s (roundedUnits n / 2 ^ ((roundedUnits n).log2 - 52))
        (((roundedUnits n).log2 - 52 : Nat) - 1074 : Int) positive := by
  have filled : 0 < n := same ▸ Nat.mul_pos some (Nat.two_pow_pos _)
  have first := shift_units (Nat.ne_of_gt some) least below same
  have positive := leading_pos filled
  have long := log2_leading (n := n)
  have again : shiftToTargetExponent .binary64 (leading n) (((n.log2 - 52 : Nat) : Int) - 1074) .exact =
      (ExtendedMantissa.mk (roundedUnits n) false false >>> ((roundedUnits n).log2 - 52),
        (((roundedUnits n).log2 - 52 : Nat) : Int) - 1074) := by
    apply shift_units (Nat.ne_of_gt positive) (by omega)
    · unfold aim
      omega
    · have places : (((n.log2 - 52 : Nat) : Int) - 1074 + 1074).toNat = n.log2 - 52 := by omega
      rw [places, roundedUnits]
  have whole : 0 < roundedUnits n := Nat.mul_pos positive (Nat.two_pow_pos _)
  have mantissa : roundedUnits n / 2 ^ ((roundedUnits n).log2 - 52) ≠ 0 := by
    intro none
    have kept := mantissa_roundedUnits filled
    rw [none] at kept
    omega
  refine ⟨Nat.pos_of_ne_zero mantissa, ?_⟩
  have rounded : (ExtendedMantissa.mk n false false >>> (n.log2 - 52)).roundedMantissa = leading n :=
    rfl
  simp only [roundWithAccuracy, first, rounded, again, shifted_mantissa]
  rw [dif_neg mantissa]

theorem round_units (s : Sign) {m : Nat} {e : Int} (some : 0 < m) (least : -1074 ≤ e) {n : Nat}
    (same : n = m * 2 ^ (e + 1074).toNat) :
    ∃ positive, UnpackedFloat.round .binary64 s m e =
      .finite s (roundedUnits n / 2 ^ ((roundedUnits n).log2 - 52))
        (((roundedUnits n).log2 - 52 : Nat) - 1074 : Int) positive := by
  simp only [UnpackedFloat.round, targetExponent_eq, decreaseExponent, Nat.shiftLeft_eq]
  have scaled : aim (m * 2 ^ (e - aim m e).toNat) (e - ((e - aim m e).toNat : Int)) = aim m e := by
    unfold aim
    rw [log2_times_power (Nat.ne_of_gt some)]
    omega
  have bottom : -1074 ≤ aim m e := by
    unfold aim
    omega
  apply roundWithAccuracy_units s (Nat.mul_pos some (Nat.two_pow_pos _))
  · omega
  · rw [scaled]
    omega
  · rw [same, Nat.mul_assoc, ← Nat.pow_add]
    congr 2
    omega

theorem unpack_pack_overflow {s : Sign} {m : Nat} {e : Int} (positive : 0 < m) (large : 971 < e) :
    (Float.Model.pack (.finite s m e positive)).unpack = .infinity s := by
  have biased : (e + (Format.binary64.exponentBias : Int) +
      (Format.binary64.mantissaBitsWithoutImplicit : Int)).toNat = (e + 1075).toNat := by
    congr 1
    simp [Format.exponentBias]
    omega
  have past : 2 ^ Format.binary64.exponentBits ≤ (e + 1075).toNat + 1 := by
    simp
    omega
  change UnpackedFloat.unpack Format.binary64
    (UnpackedFloat.pack Format.binary64 (.finite s m e positive)) = _
  simp only [UnpackedFloat.pack, biased, if_pos past]
  cases s <;> rfl

theorem not_finite_of_overflow {s : Sign} {m : Nat} {e : Int} {positive : 0 < m} (large : 971 < e) :
    (Float.ofModel (.pack (.finite s m e positive))).isFinite = false := by
  change (Float.Model.pack (.finite s m e positive)).unpack.isFinite = false
  rw [unpack_pack_overflow positive large]
  rfl

theorem fits_of_log2 {n : Nat} (most : ((n.log2 - 52 : Nat) - 1074 : Int) ≤ 971) :
    Fits (n / 2 ^ (n.log2 - 52)) ((n.log2 - 52 : Nat) - 1074 : Int) := by
  refine ⟨div_log2_lt n, by omega, most, ?_⟩
  by_cases long : 52 ≤ n.log2
  · exact Or.inl (le_div_log2 long)
  · exact Or.inr (by omega)

theorem units_of_packed {s : Sign} {n : Nat} {positive : 0 < n / 2 ^ (n.log2 - 52)}
    (most : ((n.log2 - 52 : Nat) - 1074 : Int) ≤ 971)
    (kept : n / 2 ^ (n.log2 - 52) * 2 ^ (n.log2 - 52) = n) {x : Float}
    (packed : x = .ofModel (.pack (.finite s (n / 2 ^ (n.log2 - 52))
      ((n.log2 - 52 : Nat) - 1074 : Int) positive))) :
    x.isFinite = true ∧ units x = s.apply (n : Int) := by
  have shape : x.toModel.unpack = .finite s (n / 2 ^ (n.log2 - 52))
      ((n.log2 - 52 : Nat) - 1074 : Int) positive := by
    rw [packed]
    exact unpack_pack_fits positive (fits_of_log2 most)
  have places : ((((n.log2 - 52 : Nat) - 1074 : Int) + 1074).toNat) = n.log2 - 52 := by omega
  refine ⟨?_, ?_⟩
  · change x.toModel.unpack.isFinite = true
    rw [shape]
    rfl
  · rw [units_of_finite shape, places, kept]

theorem sign_apply (z : Int) (some : z ≠ 0) (n : Nat) :
    (if z < 0 then Sign.negative else Sign.positive).apply (n : Int) = z.sign * n := by
  by_cases negative : z < 0
  · rw [if_pos negative, Int.sign_eq_neg_one_of_neg negative, Int.neg_one_mul]
    rfl
  · rw [if_neg negative, Int.sign_eq_one_of_pos (by omega), Int.one_mul]
    rfl

theorem units_nearest {z e : Int} (least : -1074 ≤ e) (finite : (nearest z e).isFinite = true) :
    units (nearest z e) = z.sign * roundedUnits (z.natAbs * 2 ^ (e + 1074).toNat) := by
  by_cases zero : z = 0
  · subst zero
    have shape : (nearest 0 e).toModel.unpack = .zero .positive := by
      change (Float.Model.pack (UnpackedFloat.normalize .binary64 0 e .positive)).unpack = _
      rw [normalize_eq, if_pos rfl]
      rfl
    rw [units_of_zero shape, Int.sign_zero, Int.zero_mul]
  · have some : 0 < z.natAbs := Int.natAbs_pos.mpr zero
    obtain ⟨positive, rounded⟩ :=
      round_units (if z < 0 then .negative else .positive) some least (rfl : _ = _)
    generalize filled : z.natAbs * 2 ^ (e + 1074).toNat = n at *
    have enough : 0 < n := filled ▸ Nat.mul_pos some (Nat.two_pow_pos _)
    have same : nearest z e = .ofModel (.pack (.finite (if z < 0 then .negative else .positive)
        (roundedUnits n / 2 ^ ((roundedUnits n).log2 - 52))
        (((roundedUnits n).log2 - 52 : Nat) - 1074 : Int) positive)) := by
      rw [nearest, normalize_eq, if_neg zero, rounded]
    rw [same] at finite
    rcases Int.lt_or_le 971 (((roundedUnits n).log2 - 52 : Nat) - 1074 : Int) with large | most
    · rw [not_finite_of_overflow large] at finite
      cases finite
    · obtain ⟨-, held⟩ := units_of_packed most (mantissa_roundedUnits enough) same
      rw [held, sign_apply z zero]

theorem signed_roundedUnits_le {a b : Int} (le : a ≤ b) :
    a.sign * (roundedUnits a.natAbs : Int) ≤ b.sign * (roundedUnits b.natAbs : Int) := by
  rcases Int.lt_trichotomy a 0 with below | rfl | above
  · rw [Int.sign_eq_neg_one_of_neg below]
    by_cases both : b < 0
    · have sizes := roundedUnits_le (m := b.natAbs) (n := a.natAbs) (by omega)
      rw [Int.sign_eq_neg_one_of_neg both]
      omega
    · have other : 0 ≤ b.sign * (roundedUnits b.natAbs : Int) :=
        Int.mul_nonneg (Int.sign_nonneg_iff.mpr (by omega)) (Int.natCast_nonneg _)
      omega
  · rw [Int.sign_zero, Int.zero_mul]
    exact Int.mul_nonneg (Int.sign_nonneg_iff.mpr le) (Int.natCast_nonneg _)
  · have sizes := roundedUnits_le (m := a.natAbs) (n := b.natAbs) (by omega)
    rw [Int.sign_eq_one_of_pos above, Int.sign_eq_one_of_pos (by omega)]
    omega

theorem units_nearest_le {z w e k : Int} (leastE : -1074 ≤ e) (leastK : -1074 ≤ k)
    (finiteZ : (nearest z e).isFinite = true) (finiteW : (nearest w k).isFinite = true)
    (le : z * 2 ^ (e + 1074).toNat ≤ w * 2 ^ (k + 1074).toNat) :
    units (nearest z e) ≤ units (nearest w k) := by
  rw [units_nearest leastE finiteZ, units_nearest leastK finiteW]
  have size (v : Int) (j : Nat) : (v.natAbs * 2 ^ j : Nat) = (v * 2 ^ j).natAbs := by
    rw [Int.natAbs_mul, Int.natAbs_pow]
    rfl
  have sign (v : Int) (j : Nat) : v.sign = (v * 2 ^ j).sign := by
    rw [Int.sign_mul, Int.sign_eq_one_of_pos (Int.pow_pos (by decide)), Int.mul_one]
  rw [size, size, sign z (e + 1074).toNat, sign w (k + 1074).toNat]
  exact signed_roundedUnits_le le

end Joinery.Number
