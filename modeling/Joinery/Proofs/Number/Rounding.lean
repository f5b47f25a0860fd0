import Joinery.Proofs.Number.Packing

/-!
Rounding to doubles. A number that a double holds is rounded to itself, and one that is not too
large is rounded to a finite double. No bound on the error of a rounding is needed here.
-/
namespace Joinery.Number
open Float.Model
open Float.Model.UnpackedFloat (Sign Accuracy ExtendedMantissa shiftToExponent shiftToTargetExponent
  roundWithAccuracy decreaseExponent)

theorem shifted_mantissa (em : ExtendedMantissa) (k : Nat) :
    (em >>> k).mantissa = em.mantissa / 2 ^ k := by
  induction k with
  | zero => simp [HShiftRight.hShiftRight, Nat.repeat]
  | succ k ih =>
    change (em >>> k).mantissa / 2 = _
    rw [ih, Nat.div_div_eq_div_mul, Nat.pow_succ]

theorem shifted_multiple (m k : Nat) :
    ExtendedMantissa.mk (m * 2 ^ k) false false >>> k = ExtendedMantissa.mk m false false := by
  induction k generalizing m with
  | zero => simp [HShiftRight.hShiftRight, Nat.repeat]
  | succ k ih =>
    have step : ExtendedMantissa.mk (m * 2 ^ (k + 1)) false false >>> k =
        ExtendedMantissa.mk (m * 2) false false := by
      rw [Nat.pow_succ', ← Nat.mul_assoc]
      exact ih (m * 2)
    change (ExtendedMantissa.mk (m * 2 ^ (k + 1)) false false >>> k).shiftRightOne = _
    rw [step]
    simp [ExtendedMantissa.shiftRightOne]

theorem roundedMantissa_le (em : ExtendedMantissa) : em.roundedMantissa ≤ em.mantissa + 1 := by
  obtain ⟨m, r, s⟩ := em
  cases r <;> cases s <;>
    simp [ExtendedMantissa.roundedMantissa, ExtendedMantissa.accuracy, Accuracy.roundToNearestEven]
  omega

theorem mantissa_of_accuracy (m : Nat) (a : Accuracy) :
    (ExtendedMantissa.ofMantissaAndAccuracy m a).mantissa = m := by
  rcases a with _ | order
  · rfl
  · cases order <;> rfl

theorem log2_times_power {m : Nat} (some : m ≠ 0) (k : Nat) : (m * 2 ^ k).log2 = m.log2 + k := by
  have positive : 0 < 2 ^ k := Nat.two_pow_pos k
  apply (Nat.log2_eq_iff (Nat.mul_ne_zero some (by omega))).mpr
  have low := Nat.log2_self_le some
  have high := Nat.lt_log2_self (n := m)
  rw [Nat.pow_add, show m.log2 + k + 1 = m.log2 + 1 + k by omega, Nat.pow_add _ _ k]
  exact ⟨Nat.mul_le_mul_right _ low, Nat.mul_lt_mul_of_pos_right high positive⟩

/-- The exponent that a double would have. -/
def aim (m : Nat) (e : Int) : Int := max (m.log2 + e - 52) (-1074)

theorem targetExponent_eq (m : Nat) (e : Int) :
    Format.binary64.targetExponent (totalExponent m e) = aim m e := by
  simp only [Format.targetExponent, totalExponent, Format.mantissaBits, Format.minExponent, aim]
  simp
  omega

theorem aim_of_fits {m : Nat} {e : Int} (positive : 0 < m) (fits : Fits m e) : aim m e = e := by
  have bits : m.log2 < 53 := (Nat.log2_lt (by omega)).mpr fits.small
  have least := fits.least
  unfold aim
  rcases fits.full with full | bottom
  · have := (Nat.le_log2 (n := m) (k := 52) (by omega)).mpr full
    omega
  · omega

theorem shift_eq (m : Nat) (e : Int) (a : Accuracy) :
    shiftToTargetExponent .binary64 m e a =
      (ExtendedMantissa.ofMantissaAndAccuracy m a >>> (aim m e - e).toNat,
        e + (aim m e - e).toNat) := by
  simp only [shiftToTargetExponent, shiftToExponent, targetExponent_eq]

theorem shift_exact {m M : Nat} {e E : Int} (positive : 0 < M) (fits : Fits M E)
    (below : e ≤ E) (same : m = M * 2 ^ (E - e).toNat) :
    shiftToTargetExponent .binary64 m e .exact = (ExtendedMantissa.mk M false false, E) := by
  have reached : aim m e = E := by
    rw [← aim_of_fits positive fits, same]
    unfold aim
    rw [log2_times_power (by omega)]
    omega
  rw [shift_eq, reached, same]
  refine Prod.ext (shifted_multiple M _) ?_
  change e + ((E - e).toNat : Int) = E
  omega

theorem roundWithAccuracy_exact {s : Sign} {m M : Nat} {e E : Int} (positive : 0 < M)
    (fits : Fits M E) (below : e ≤ E) (same : m = M * 2 ^ (E - e).toNat) :
    roundWithAccuracy .binary64 s m e .exact = .finite s M E positive := by
  have first := shift_exact positive fits below same
  have again : shiftToTargetExponent .binary64 M E .exact = (ExtendedMantissa.mk M false false, E) :=
    shift_exact positive fits (Int.le_refl E) (by simp)
  have rounded : (ExtendedMantissa.mk M false false).roundedMantissa = M := rfl
  simp only [roundWithAccuracy, first, rounded, again]
  rw [dif_neg (by omega)]

theorem round_exact {s : Sign} {m M : Nat} {e E : Int} (positive : 0 < M) (fits : Fits M E)
    (same : m * 2 ^ (e - E).toNat = M * 2 ^ (E - e).toNat) :
    UnpackedFloat.round .binary64 s m e = .finite s M E positive := by
  have reached := aim_of_fits positive fits
  simp only [UnpackedFloat.round, targetExponent_eq, decreaseExponent, Nat.shiftLeft_eq]
  by_cases above : E ≤ e
  · have whole : m * 2 ^ (e - E).toNat = M := by
      rw [same, Int.toNat_of_nonpos (by omega)]
      omega
    have some : m ≠ 0 := by
      rintro rfl
      omega
    have aimed : aim m e = E := by
      rw [← whole] at reached
      unfold aim at *
      rw [log2_times_power some] at reached
      omega
    rw [aimed, whole]
    exact roundWithAccuracy_exact positive fits (by omega) (by
      rw [Int.toNat_of_nonpos (by omega)]
      omega)
  · have whole : m = M * 2 ^ (E - e).toNat := by
      rw [← same, Int.toNat_of_nonpos (by omega)]
      omega
    have aimed : aim m e = E := by
      rw [whole]
      unfold aim at *
      rw [log2_times_power (by omega)]
      omega
    rw [aimed, Int.toNat_of_nonpos (z := e - E) (by omega)]
    exact roundWithAccuracy_exact positive fits (by omega) (by
      rw [whole]
      simp)

def AtMost (limit : Int) : UnpackedFloat → Prop
  | .zero _ => True
  | .finite _ _ e _ => e ≤ limit
  | _ => False

theorem AtMost.trans {f : UnpackedFloat} {a b : Int} (held : AtMost a f) (le : a ≤ b) :
    AtMost b f := by
  cases f with
  | zero s => trivial
  | finite s m e positive => exact Int.le_trans held le
  | infinity s => exact held
  | notANumber => exact held

theorem shifted_bound (m : Nat) (e : Int) : m / 2 ^ (aim m e - e).toNat < 2 ^ 53 := by
  apply (Nat.div_lt_iff_lt_mul (Nat.two_pow_pos _)).mpr
  rw [← Nat.pow_add]
  apply Nat.lt_of_lt_of_le (Nat.lt_log2_self (n := m))
  apply Nat.pow_le_pow_right (by decide)
  unfold aim
  omega

theorem rounded_bits (m : Nat) (e : Int) (a : Accuracy) :
    (ExtendedMantissa.ofMantissaAndAccuracy m a >>>
      (aim m e - e).toNat).roundedMantissa.log2 ≤ 53 := by
  have carried := roundedMantissa_le
    (ExtendedMantissa.ofMantissaAndAccuracy m a >>> (aim m e - e).toNat)
  have dropped := shifted_bound m e
  rw [shifted_mantissa, mantissa_of_accuracy] at carried
  generalize (ExtendedMantissa.ofMantissaAndAccuracy m a >>>
    (aim m e - e).toNat).roundedMantissa = r at *
  by_cases zero : r = 0
  · rw [zero]
    decide
  · have := (Nat.log2_lt (k := 54) zero).mpr (by omega)
    omega

theorem roundWithAccuracy_atMost (s : Sign) (m : Nat) (e : Int) (a : Accuracy) :
    AtMost (max e (aim m e) + 1) (roundWithAccuracy .binary64 s m e a) := by
  simp only [roundWithAccuracy, shift_eq]
  split
  · trivial
  · change _ + _ ≤ _
    have bits := rounded_bits m e a
    generalize (ExtendedMantissa.ofMantissaAndAccuracy m a >>>
      (aim m e - e).toNat).roundedMantissa = r at *
    unfold aim
    omega

theorem log2_shiftLeft_le (m k : Nat) : (m * 2 ^ k).log2 ≤ m.log2 + k := by
  by_cases zero : m = 0
  · simp [zero]
  · exact Nat.le_of_eq (log2_times_power zero k)

theorem round_atMost (s : Sign) (m : Nat) (e : Int) :
    AtMost (aim m e + 1) (UnpackedFloat.round .binary64 s m e) := by
  simp only [UnpackedFloat.round, targetExponent_eq, decreaseExponent, Nat.shiftLeft_eq]
  refine (roundWithAccuracy_atMost s _ _ _).trans ?_
  have grown := log2_shiftLeft_le m (e - aim m e).toNat
  unfold aim at *
  omega

theorem normalize_eq (m e : Int) (s : Sign) :
    UnpackedFloat.normalize .binary64 m e s =
      if m = 0 then .zero s
      else UnpackedFloat.round .binary64 (if m < 0 then .negative else .positive) m.natAbs e := by
  unfold UnpackedFloat.normalize
  rcases Int.lt_trichotomy m 0 with negative | zero | positive
  · rw [show compare m 0 = .lt from Int.compare_eq_lt.mpr negative, if_neg (by omega),
      if_pos negative]
    simp only [show (-m).toNat = m.natAbs by omega]
  · simp [zero]
  · rw [show compare m 0 = .gt from Int.compare_eq_gt.mpr positive, if_neg (by omega),
      if_neg (by omega)]
    simp only [show m.toNat = m.natAbs by omega]

theorem normalize_atMost (m e : Int) (s : Sign) :
    AtMost (aim m.natAbs e + 1) (UnpackedFloat.normalize .binary64 m e s) := by
  rw [normalize_eq]
  split
  · trivial
  · exact round_atMost _ _ _

end Joinery.Number
