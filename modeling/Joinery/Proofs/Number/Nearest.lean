import Joinery.Number.Decimal
import Joinery.Proofs.Number.Monotone

/-!
Rounding to the nearest. A mantissa with its two bits stands for a quotient, and rounding it is
rounding the quotient to the nearest whole number, half to even. The sizes that doubles hold lie on the
grid of the rounded one or below its first 53 places, and so nothing that a double holds is nearer.
-/
namespace Joinery.Number
open Float.Model
open Float.Model.UnpackedFloat (Sign Accuracy ExtendedMantissa accuracyOfFraction)

/-- The mantissa is the whole part of a quotient, and the bits say how the rest compares with a half. -/
structure Represents (em : ExtendedMantissa) (num den : Nat) : Prop where
  mantissa : em.mantissa = num / den
  round : em.roundBit = decide (den ≤ 2 * (num % den))
  sticky : em.stickyBit = decide (num % den ≠ 0 ∧ 2 * (num % den) ≠ den)

theorem represents_whole (n : Nat) : Represents ⟨n, false, false⟩ n 1 := by
  constructor <;> simp [Nat.mod_one]

theorem represents_quotient (num : Nat) {den : Nat} (some : 0 < den) :
    Represents (.ofMantissaAndAccuracy (num / den) (accuracyOfFraction (num % den) den)) num den := by
  unfold accuracyOfFraction
  by_cases exact : num % den = 0
  · rw [if_pos exact]
    constructor <;> simp [ExtendedMantissa.ofMantissaAndAccuracy, exact]
    omega
  · rw [if_neg exact]
    rcases Nat.lt_trichotomy (2 * (num % den)) den with less | half | more
    · rw [Nat.compare_eq_lt.mpr less]
      constructor <;> simp [ExtendedMantissa.ofMantissaAndAccuracy] <;> omega
    · rw [Nat.compare_eq_eq.mpr half]
      constructor <;> simp [ExtendedMantissa.ofMantissaAndAccuracy] <;> omega
    · rw [Nat.compare_eq_gt.mpr more]
      constructor <;> simp [ExtendedMantissa.ofMantissaAndAccuracy] <;> omega

namespace Represents
variable {em : ExtendedMantissa} {num den : Nat}

theorem shiftRightOne (represents : Represents em num den) (some : 0 < den) :
    Represents em.shiftRightOne num (den * 2) := by
  have rest : num % (den * 2) = num % den + den * (num / den % 2) := Nat.mod_mul
  have small : num % den < den := Nat.mod_lt num some
  obtain ⟨mantissa, round, sticky⟩ := represents
  refine ⟨?_, ?_, ?_⟩
  · rw [ExtendedMantissa.shiftRightOne, mantissa, Nat.div_div_eq_div_mul]
  · rw [ExtendedMantissa.shiftRightOne, mantissa, rest]
    rcases Nat.mod_two_eq_zero_or_one (num / den) with even | odd
    · simp [even]
      omega
    · simp [odd]
      omega
  · rw [ExtendedMantissa.shiftRightOne, round, sticky, rest]
    rcases Nat.mod_two_eq_zero_or_one (num / den) with even | odd
    · rw [even, ← Bool.decide_or]
      apply decide_eq_decide.mpr
      omega
    · rw [odd, ← Bool.decide_or]
      apply decide_eq_decide.mpr
      omega

theorem shiftRight (represents : Represents em num den) (some : 0 < den) (k : Nat) :
    Represents (em >>> k) num (den * 2 ^ k) := by
  induction k with
  | zero => simpa [HShiftRight.hShiftRight, Nat.repeat] using represents
  | succ k ih =>
    rw [Nat.pow_succ, ← Nat.mul_assoc]
    exact ih.shiftRightOne (Nat.mul_pos some (Nat.two_pow_pos k))

theorem roundedMantissa_eq (represents : Represents em num den) :
    em.roundedMantissa = roundHalfEven num den := by
  obtain ⟨m, r, s⟩ := em
  obtain ⟨mantissa, round, sticky⟩ := represents
  dsimp only at mantissa round sticky
  simp only [roundHalfEven, ← mantissa]
  by_cases more : den ≤ 2 * (num % den)
  · rw [decide_eq_true more] at round
    by_cases half : 2 * (num % den) = den
    · have sticks : s = false := by simp [sticky, half]
      rw [round, sticks, if_neg (by omega), if_pos half]
      rfl
    · have sticks : s = true := by
        rw [sticky]
        exact decide_eq_true ⟨by omega, half⟩
      rw [round, sticks, if_neg (by omega), if_neg half]
      rfl
  · rw [decide_eq_false more] at round
    rw [round, if_pos (by omega)]
    cases s <;> rfl

end Represents

theorem leading_eq (n : Nat) : leading n = roundHalfEven n (2 ^ (n.log2 - 52)) := by
  have represents := (represents_whole n).shiftRight Nat.one_pos (n.log2 - 52)
  rw [Nat.one_mul] at represents
  exact represents.roundedMantissa_eq

/-! How near a rounded quotient is. -/

theorem roundHalfEven_near (num : Nat) {den : Nat} (some : 0 < den) :
    2 * (((den * roundHalfEven num den : Nat) : Int) - num).natAbs ≤ den := by
  have whole := Nat.div_add_mod num den
  have small : num % den < den := Nat.mod_lt num some
  have next : den * (num / den + 1) = den * (num / den) + den := Nat.mul_succ _ _
  have even : num / den % 2 = 0 ∨ num / den % 2 = 1 := Nat.mod_two_eq_zero_or_one _
  simp only [roundHalfEven]
  split
  · omega
  · split
    · rcases even with even | odd
      · rw [even, Nat.add_zero]
        omega
      · rw [odd]
        omega
    · omega

theorem roundHalfEven_le (num den : Nat) : roundHalfEven num den ≤ num / den + 1 := by
  simp only [roundHalfEven]
  split
  · omega
  · split <;> omega

theorem le_roundHalfEven (num den : Nat) : num / den ≤ roundHalfEven num den := by
  simp only [roundHalfEven]
  split
  · omega
  · split <;> omega

theorem roundHalfEven_nearest (num : Nat) {den : Nat} (some : 0 < den) (g : Nat) :
    (((den * roundHalfEven num den : Nat) : Int) - num).natAbs ≤
      (((den * g : Nat) : Int) - num).natAbs := by
  have near := roundHalfEven_near num some
  rcases Nat.lt_trichotomy g (roundHalfEven num den) with below | same | above
  · have step : den * (g + 1) ≤ den * roundHalfEven num den := Nat.mul_le_mul_left den below
    rw [Nat.mul_succ] at step
    omega
  · rw [same]
  · have step : den * (roundHalfEven num den + 1) ≤ den * g := Nat.mul_le_mul_left den above
    rw [Nat.mul_succ] at step
    omega

/-- Every other one is farther away, unless the quotient lies halfway between two. -/
theorem roundHalfEven_unique {num den g : Nat} (some : 0 < den)
    (apart : 2 * (((den * roundHalfEven num den : Nat) : Int) - num).natAbs ≠ den)
    (different : g ≠ roundHalfEven num den) :
    (((den * roundHalfEven num den : Nat) : Int) - num).natAbs <
      (((den * g : Nat) : Int) - num).natAbs := by
  have near := roundHalfEven_near num some
  rcases Nat.lt_or_gt_of_ne different with below | above
  · have step : den * (g + 1) ≤ den * roundHalfEven num den := Nat.mul_le_mul_left den below
    rw [Nat.mul_succ] at step
    omega
  · have step : den * (roundHalfEven num den + 1) ≤ den * g := Nat.mul_le_mul_left den above
    rw [Nat.mul_succ] at step
    omega

theorem roundHalfEven_scaled (num den : Nat) {k : Nat} (some : 0 < k) :
    roundHalfEven (num * k) (den * k) = roundHalfEven num den := by
  have twice : 2 * (num * k % (den * k)) = 2 * (num % den) * k := by
    rw [Nat.mul_mod_mul_right, Nat.mul_assoc]
  simp only [roundHalfEven, twice, Nat.mul_div_mul_right num den some,
    Nat.mul_lt_mul_right some, Nat.mul_left_inj (Nat.ne_of_gt some)]

def roundedQuotient (num den : Nat) : Nat :=
  roundHalfEven num (den * 2 ^ ((num / den).log2 - 52)) * 2 ^ ((num / den).log2 - 52)

theorem roundedUnits_eq (n : Nat) : roundedUnits n = roundedQuotient n 1 := by
  rw [roundedUnits, leading_eq, roundedQuotient, Nat.div_one, Nat.one_mul]

theorem roundedQuotient_scaled (num den : Nat) {k : Nat} (some : 0 < k) :
    roundedQuotient (num * k) (den * k) = roundedQuotient num den := by
  have scale (i : Nat) : den * k * 2 ^ i = den * 2 ^ i * k := by ac_rfl
  rw [roundedQuotient, Nat.mul_div_mul_right num den some, scale, roundHalfEven_scaled _ _ some,
    roundedQuotient]

theorem roundedQuotient_self {n : Nat} (some : 0 < n) (k : Nat) :
    roundedQuotient (n * 2 ^ k) n = roundedUnits (1 * 2 ^ k) := by
  have scaled := roundedQuotient_scaled (2 ^ k) 1 some
  rw [Nat.one_mul]
  rwa [Nat.one_mul, Nat.mul_comm, ← roundedUnits_eq] at scaled

theorem lt_two_pow {n k : Nat} (bits : n.log2 < k) : n < 2 ^ k :=
  Nat.lt_of_lt_of_le Nat.lt_log2_self (Nat.pow_le_pow_right (by decide) bits)

theorem log2_le_of_two_pow {n k : Nat} (most : n ≤ 2 ^ k) : n.log2 ≤ k :=
  (log2_le_of_le most).trans_eq Nat.log2_two_pow

theorem le_log2_quotient {m n j k : Nat} (filled : 0 < m) (some : 0 < n)
    (places : k + n.log2 < m.log2 + j) : k ≤ (m * 2 ^ j / n).log2 := by
  have large : 2 ^ k ≤ m * 2 ^ j / n := by
    apply (Nat.le_div_iff_mul_le some).mpr
    calc
      2 ^ k * n ≤ 2 ^ k * 2 ^ (n.log2 + 1) := Nat.mul_le_mul_left _ (Nat.le_of_lt Nat.lt_log2_self)
      _ = 2 ^ (k + (n.log2 + 1)) := (Nat.pow_add ..).symm
      _ ≤ 2 ^ (m.log2 + j) := Nat.pow_le_pow_right (by decide) (by omega)
      _ = 2 ^ m.log2 * 2 ^ j := Nat.pow_add ..
      _ ≤ m * 2 ^ j := Nat.mul_le_mul_right _ (Nat.log2_self_le (Nat.ne_of_gt filled))
  exact (Nat.le_log2 (Nat.ne_of_gt (Nat.lt_of_lt_of_le (Nat.two_pow_pos k) large))).mpr large

theorem leading_quotient {num den : Nat} (long : 52 ≤ (num / den).log2) :
    2 ^ 52 ≤ roundHalfEven num (den * 2 ^ ((num / den).log2 - 52)) := by
  refine Nat.le_trans ?_ (le_roundHalfEven _ _)
  rw [← Nat.div_div_eq_div_mul]
  exact le_div_log2 long

theorem leading_quotient_le (num den : Nat) :
    roundHalfEven num (den * 2 ^ ((num / den).log2 - 52)) ≤ 2 ^ 53 := by
  refine Nat.le_trans (roundHalfEven_le _ _) ?_
  rw [← Nat.div_div_eq_div_mul]
  exact div_log2_lt _

theorem log2_roundedQuotient_le (num den : Nat) :
    (roundedQuotient num den).log2 ≤ 53 + ((num / den).log2 - 52) := by
  calc
    (roundedQuotient num den).log2 ≤ (2 ^ 53 * 2 ^ ((num / den).log2 - 52)).log2 :=
      log2_le_of_le (Nat.mul_le_mul_right _ (leading_quotient_le num den))
    _ = 53 + ((num / den).log2 - 52) := by rw [log2_times_power (by decide), Nat.log2_two_pow]

theorem log2_le_roundedQuotient {num den : Nat} (long : 52 ≤ (num / den).log2) :
    (num / den).log2 ≤ (roundedQuotient num den).log2 := by
  calc
    (num / den).log2 = (2 ^ 52 * 2 ^ ((num / den).log2 - 52)).log2 := by
      rw [log2_times_power (by decide), Nat.log2_two_pow, Nat.add_sub_cancel' long]
    _ ≤ (roundedQuotient num den).log2 :=
      log2_le_of_le (Nat.mul_le_mul_right _ (leading_quotient long))

theorem grid_le {num den : Nat} (long : 52 ≤ (num / den).log2) :
    den * 2 ^ ((num / den).log2 - 52) * 2 ^ 52 ≤ num := by
  have filled : num / den ≠ 0 := by
    intro none
    rw [none] at long
    exact absurd long (by decide)
  calc
    den * 2 ^ ((num / den).log2 - 52) * 2 ^ 52 = den * 2 ^ (num / den).log2 := by
      rw [Nat.mul_assoc, ← Nat.pow_add, Nat.sub_add_cancel long]
    _ ≤ den * (num / den) := Nat.mul_le_mul_left den (Nat.log2_self_le filled)
    _ ≤ num := Nat.mul_div_le num den

theorem roundedQuotient_error {num den : Nat} (some : 0 < den) (long : 52 ≤ (num / den).log2) :
    2 ^ 53 * (((den * roundedQuotient num den : Nat) : Int) - num).natAbs ≤ num := by
  have near := roundHalfEven_near num (Nat.mul_pos some (Nat.two_pow_pos ((num / den).log2 - 52)))
  have grid := grid_le long
  have same : den * roundedQuotient num den = den * 2 ^ ((num / den).log2 - 52) *
      roundHalfEven num (den * 2 ^ ((num / den).log2 - 52)) := by
    rw [roundedQuotient]
    ac_rfl
  rw [same]
  omega

theorem roundedUnits_error (n : Nat) : 2 ^ 53 * ((roundedUnits n : Int) - n).natAbs ≤ n := by
  by_cases long : 52 ≤ n.log2
  · have error := @roundedQuotient_error n 1 Nat.one_pos (by rwa [Nat.div_one])
    rwa [← roundedUnits_eq, Nat.one_mul] at error
  · have cut : n.log2 - 52 = 0 := by omega
    have exact : roundedUnits n = n := by
      rw [roundedUnits, leading, cut, Nat.pow_zero, Nat.mul_one]
      rfl
    rw [exact]
    omega

theorem roundedUnits_within (n : Nat) : n ≤ 2 * roundedUnits n ∧ roundedUnits n ≤ 2 * n := by
  have error := roundedUnits_error n
  omega

/-! What doubles hold. -/

def Held (u : Nat) : Prop := u = 0 ∨ ∃ m e, Fits m e ∧ u = m * 2 ^ (e + 1074).toNat

theorem held_units {x : Float} (finite : x.isFinite = true) : Held (units x).natAbs := by
  rcases shape_of_finite finite with ⟨s, shape⟩ | ⟨s, m, e, positive, shape⟩
  · rw [units_of_zero shape]
    exact Or.inl rfl
  · rw [units_of_finite shape, natAbs_apply]
    exact Or.inr ⟨m, e, fits_of_unpack shape, rfl⟩

theorem Held.on_grid {u : Nat} (held : Held u) (k : Nat) : 2 ^ k ∣ u ∨ u < 2 ^ (52 + k) := by
  rcases held with rfl | ⟨m, e, fits, rfl⟩
  · exact Or.inl (Nat.dvd_zero _)
  · by_cases coarse : k ≤ (e + 1074).toNat
    · exact Or.inl (Nat.dvd_mul_left_of_dvd (Nat.pow_dvd_pow 2 coarse) m)
    · right
      calc
        m * 2 ^ (e + 1074).toNat < 2 ^ 53 * 2 ^ (e + 1074).toNat :=
          Nat.mul_lt_mul_of_pos_right fits.small (Nat.two_pow_pos _)
        _ = 2 ^ (53 + (e + 1074).toNat) := (Nat.pow_add ..).symm
        _ ≤ 2 ^ (52 + k) := Nat.pow_le_pow_right (by decide) (by omega)

theorem Held.on_grid_of {u den : Nat} (held : Held u) (some : 0 < den) (k : Nat) :
    (∃ g, den * u = den * 2 ^ k * g) ∨ den * u < den * 2 ^ k * 2 ^ 52 := by
  rcases held.on_grid k with ⟨g, rfl⟩ | below
  · exact .inl ⟨g, (Nat.mul_assoc ..).symm⟩
  · right
    rw [Nat.mul_assoc, ← Nat.pow_add, Nat.add_comm]
    exact Nat.mul_lt_mul_of_pos_left below some

/-- Nothing else that a double holds is as near to a quotient as what it is rounded to, unless it
lies halfway between two points of the grid. -/
theorem roundedQuotient_nearest {num den u : Nat} (some : 0 < den) (long : 52 ≤ (num / den).log2)
    (apart : 2 * (((den * roundedQuotient num den : Nat) : Int) - num).natAbs ≠
      den * 2 ^ ((num / den).log2 - 52))
    (held : Held u) (different : u ≠ roundedQuotient num den) :
    (((den * roundedQuotient num den : Nat) : Int) - num).natAbs <
      (((den * u : Nat) : Int) - num).natAbs := by
  have grid := grid_le long
  have step : 0 < den * 2 ^ ((num / den).log2 - 52) := Nat.mul_pos some (Nat.two_pow_pos _)
  have same : den * roundedQuotient num den = den * 2 ^ ((num / den).log2 - 52) *
      roundHalfEven num (den * 2 ^ ((num / den).log2 - 52)) := by
    rw [roundedQuotient]
    ac_rfl
  rw [same] at apart ⊢
  rcases held.on_grid_of some ((num / den).log2 - 52) with ⟨g, on⟩ | under
  · rw [on]
    apply roundHalfEven_unique step apart
    rintro rfl
    rw [← same] at on
    exact different (Nat.eq_of_mul_eq_mul_left some on)
  · have nearest := roundHalfEven_nearest num step (2 ^ 52)
    omega

end Joinery.Number
