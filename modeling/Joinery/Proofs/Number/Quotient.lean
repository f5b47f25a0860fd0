import Joinery.Proofs.Number.Nearest

/-!
Quotients of doubles. A quotient is cut off with enough places and with what is left of it, and then
rounded, so that it is the double nearest to the exact quotient. A decimal number with two places is
read by such a quotient, whether its digits fit a mantissa or not.
-/
namespace Joinery.Number
open Float.Model
open Float.Model.UnpackedFloat (Sign Accuracy ExtendedMantissa accuracyOfFraction
  shiftToTargetExponent roundWithAccuracy)

theorem log2_scaled_quotient {num den q : Nat} (j : Nat) (some : 0 < den) (quotient : num / den = q)
    (filled : q ≠ 0) : (num * 2 ^ j / den).log2 = q.log2 + j := by
  have low : 2 ^ q.log2 * den ≤ num := by
    rw [← Nat.le_div_iff_mul_le some, quotient]
    exact Nat.log2_self_le filled
  have high : num < 2 ^ (q.log2 + 1) * den := by
    rw [← Nat.div_lt_iff_lt_mul some, quotient]
    exact Nat.lt_log2_self
  have scale (i : Nat) : 2 ^ (i + j) * den = 2 ^ i * den * 2 ^ j := by
    rw [Nat.pow_add]
    ac_rfl
  have bounds : 2 ^ (q.log2 + j) ≤ num * 2 ^ j / den ∧ num * 2 ^ j / den < 2 ^ (q.log2 + j + 1) := by
    constructor
    · rw [Nat.le_div_iff_mul_le some, scale]
      exact Nat.mul_le_mul_right _ low
    · rw [Nat.div_lt_iff_lt_mul some, show q.log2 + j + 1 = q.log2 + 1 + j by omega, scale]
      exact Nat.mul_lt_mul_of_pos_right high (Nat.two_pow_pos j)
  have nonzero : num * 2 ^ j / den ≠ 0 := by
    have := Nat.two_pow_pos (q.log2 + j)
    omega
  exact (Nat.log2_eq_iff nonzero).mpr bounds

/-! Rounding what a mantissa and its accuracy stand for. -/

theorem log2_div_two_pow (n k : Nat) : (n / 2 ^ k).log2 = n.log2 - k := by
  rw [Nat.log2_eq_log_two, Nat.log2_eq_log_two, Nat.log_div_base_pow]

theorem place_of_quotient {num den q : Nat} {e : Int} {i j : Nat} (some : 0 < den)
    (quotient : num / den = q) (below : e ≤ aim q e) (exponent : e + 1074 = (i : Int) - j) :
    (((num * 2 ^ i / (den * 2 ^ j)).log2 - 52 : Nat) : Int) = aim q e + 1074 := by
  rcases Nat.le_total j i with up | down
  · obtain ⟨t, rfl⟩ := Nat.exists_eq_add_of_le up
    have cut : num * 2 ^ (j + t) / (den * 2 ^ j) = num * 2 ^ t / den := by
      rw [Nat.add_comm, Nat.pow_add, ← Nat.mul_assoc]
      exact Nat.mul_div_mul_right _ _ (Nat.two_pow_pos j)
    rw [cut]
    by_cases none : q = 0
    · subst none
      have level : t = 0 := by
        unfold aim at below
        simp at below
        omega
      subst level
      rw [Nat.pow_zero, Nat.mul_one, quotient]
      unfold aim
      simp
      omega
    · rw [log2_scaled_quotient t some quotient none]
      unfold aim
      omega
  · obtain ⟨t, rfl⟩ := Nat.exists_eq_add_of_le down
    have cut : num * 2 ^ i / (den * 2 ^ (i + t)) = q / 2 ^ t := by
      rw [Nat.add_comm, Nat.pow_add, ← Nat.mul_assoc, Nat.mul_div_mul_right _ _ (Nat.two_pow_pos i),
        ← Nat.div_div_eq_div_mul, quotient]
    rw [cut, log2_div_two_pow]
    unfold aim
    omega

def sized (s : Sign) (u : Nat) : UnpackedFloat :=
  if positive : 0 < u / 2 ^ (u.log2 - 52) then
    .finite s (u / 2 ^ (u.log2 - 52)) ((u.log2 - 52 : Nat) - 1074 : Int) positive
  else .zero s

theorem shift_carried {s : Sign} {l g : Nat} (most : l ≤ 2 ^ 53) (full : 0 < g → 2 ^ 52 ≤ l) :
    (if none : (shiftToTargetExponent .binary64 l ((g : Int) - 1074) .exact).1.mantissa = 0 then
        UnpackedFloat.zero s
      else .finite s (shiftToTargetExponent .binary64 l ((g : Int) - 1074) .exact).1.mantissa
        (shiftToTargetExponent .binary64 l ((g : Int) - 1074) .exact).2 (Nat.pos_of_ne_zero none)) =
      sized s (l * 2 ^ g) := by
  by_cases zero : l = 0
  · subst zero
    have none : (shiftToTargetExponent .binary64 0 ((g : Int) - 1074) .exact).1.mantissa = 0 := by
      rw [shift_eq, shifted_mantissa, mantissa_of_accuracy, Nat.zero_div]
    rw [dif_pos none, sized, Nat.zero_mul, Nat.zero_div, dif_neg (Nat.lt_irrefl 0)]
  · have some : 0 < l := Nat.pos_of_ne_zero zero
    have places : ((g : Int) - 1074 + 1074).toNat = g := by omega
    have again := shift_units zero (e := (g : Int) - 1074) (by omega) (by
      unfold aim
      by_cases low : g = 0
      · omega
      · have bits := (Nat.le_log2 zero).mpr (full (by omega))
        omega) (n := l * 2 ^ g) (by rw [places])
    have kept := mantissa_scaled (i := g) some most
    have positive : 0 < l * 2 ^ g / 2 ^ ((l * 2 ^ g).log2 - 52) := by
      refine Nat.pos_of_ne_zero fun none => ?_
      rw [none, Nat.zero_mul] at kept
      exact absurd kept.symm (Nat.ne_of_gt (Nat.mul_pos some (Nat.two_pow_pos g)))
    simp only [again, shifted_mantissa]
    rw [dif_neg (Nat.ne_of_gt positive), sized, dif_pos positive]

/-- A mantissa with its accuracy is rounded to the double nearest to what it stands for. -/
theorem roundWithAccuracy_eq (s : Sign) {num den q : Nat} {e : Int} {i j : Nat} {a : Accuracy}
    (some : 0 < den) (represents : Represents (.ofMantissaAndAccuracy q a) num den)
    (below : e ≤ aim q e) (exponent : e + 1074 = (i : Int) - j) :
    roundWithAccuracy .binary64 s q e a =
      sized s (roundedQuotient (num * 2 ^ i) (den * 2 ^ j)) := by
  have quotient : num / den = q := by rw [← represents.mantissa, mantissa_of_accuracy]
  have place := place_of_quotient some quotient below exponent
  have most := leading_quotient_le (num * 2 ^ i) (den * 2 ^ j)
  have full : 0 < (num * 2 ^ i / (den * 2 ^ j)).log2 - 52 →
      2 ^ 52 ≤ roundHalfEven (num * 2 ^ i)
        (den * 2 ^ j * 2 ^ ((num * 2 ^ i / (den * 2 ^ j)).log2 - 52)) :=
    fun _ => leading_quotient (by omega)
  rw [roundedQuotient]
  generalize (num * 2 ^ i / (den * 2 ^ j)).log2 - 52 = g at *
  -- the first shift stops at the last place of the rounded quotient and leaves the places before it
  have first : shiftToTargetExponent .binary64 q e a =
      (ExtendedMantissa.ofMantissaAndAccuracy q a >>> (aim q e - e).toNat, (g : Int) - 1074) := by
    rw [shift_eq]
    refine Prod.ext rfl ?_
    change e + ((aim q e - e).toNat : Int) = _
    omega
  have rounded : (ExtendedMantissa.ofMantissaAndAccuracy q a >>> (aim q e - e).toNat).roundedMantissa =
      roundHalfEven (num * 2 ^ i) (den * 2 ^ j * 2 ^ g) := by
    have scale : den * 2 ^ j * 2 ^ g = den * 2 ^ (aim q e - e).toNat * 2 ^ i := by
      rw [Nat.mul_assoc, ← Nat.pow_add, Nat.mul_assoc, ← Nat.pow_add]
      congr 2
      omega
    rw [(represents.shiftRight some _).roundedMantissa_eq, scale,
      roundHalfEven_scaled _ _ (Nat.two_pow_pos i)]
  simp only [roundWithAccuracy, first, rounded]
  exact shift_carried most full

theorem roundedQuotient_kept (num den : Nat) :
    roundedQuotient num den / 2 ^ ((roundedQuotient num den).log2 - 52) *
      2 ^ ((roundedQuotient num den).log2 - 52) = roundedQuotient num den := by
  have most := leading_quotient_le num den
  rw [roundedQuotient]
  generalize roundHalfEven num _ = l at *
  rcases Nat.eq_zero_or_pos l with rfl | some
  · rw [Nat.zero_mul, Nat.zero_div, Nat.zero_mul]
  · exact mantissa_scaled some most

theorem roundWithAccuracy_quotient (s : Sign) {num den q : Nat} {e : Int} (some : 0 < den)
    (quotient : num / den = q) (long : 2 ^ 52 ≤ q) (least : -1074 ≤ e) {n : Nat}
    (same : n = num * 2 ^ (e + 1074).toNat) :
    ∃ positive, roundWithAccuracy .binary64 s q e (accuracyOfFraction (num % den) den) =
      .finite s (roundedQuotient n den / 2 ^ ((roundedQuotient n den).log2 - 52))
        (((roundedQuotient n den).log2 - 52 : Nat) - 1074 : Int) positive ∧
      roundedQuotient n den / 2 ^ ((roundedQuotient n den).log2 - 52) *
        2 ^ ((roundedQuotient n den).log2 - 52) = roundedQuotient n den := by
  have filled : q ≠ 0 := by omega
  have places : 52 ≤ q.log2 := (Nat.le_log2 filled).mpr long
  have wide : e ≤ aim q e := by
    unfold aim
    omega
  have rounded := roundWithAccuracy_eq s some (quotient ▸ represents_quotient num some) wide
    (i := (e + 1074).toNat) (j := 0) (by omega)
  rw [Nat.pow_zero, Nat.mul_one, ← same] at rounded
  have kept := roundedQuotient_kept n den
  have positive : 0 < roundedQuotient n den / 2 ^ ((roundedQuotient n den).log2 - 52) := by
    have log : 52 ≤ (n / den).log2 := by
      rw [same, log2_scaled_quotient _ some quotient filled]
      omega
    have above := leading_quotient log
    refine Nat.pos_of_ne_zero fun none => ?_
    rw [none, Nat.zero_mul] at kept
    exact absurd kept.symm (Nat.ne_of_gt (Nat.mul_pos (by omega) (Nat.two_pow_pos _)))
  exact ⟨positive, rounded.trans (dif_pos positive), kept⟩

theorem div_quotient {s t : Sign} {m n : Nat} {e k : Int} (positive : 0 < m) (other : 0 < n)
    (least : -1074 ≤ e - k) (large : -1021 ≤ (m.log2 : Int) + e - (n.log2 + k)) {u : Nat}
    (same : u = m * 2 ^ (e - k + 1074).toNat) :
    ∃ filled, UnpackedFloat.div .binary64 (.finite s m e positive) (.finite t n k other) =
      .finite (s / t) (roundedQuotient u n / 2 ^ ((roundedQuotient u n).log2 - 52))
        (((roundedQuotient u n).log2 - 52 : Nat) - 1074 : Int) filled ∧
      roundedQuotient u n / 2 ^ ((roundedQuotient u n).log2 - 52) *
        2 ^ ((roundedQuotient u n).log2 - 52) = roundedQuotient u n := by
  have target : Format.binary64.targetExponent (totalExponent m e - totalExponent n k) =
      (m.log2 : Int) + e - (n.log2 + k) - 53 := by
    simp only [Format.targetExponent, totalExponent, Format.mantissaBits, Format.minExponent]
    simp
    omega
  simp only [UnpackedFloat.div, UnpackedFloat.divCore, target, Nat.shiftLeft_eq]
  generalize exponent : min (e - k) ((m.log2 : Int) + e - (n.log2 + k) - 53) = t'
  have shift : n.log2 + 53 ≤ m.log2 + (e - k - t').toNat := by omega
  have long : 2 ^ 52 ≤ m * 2 ^ (e - k - t').toNat / n := by
    apply (Nat.le_div_iff_mul_le other).mpr
    calc
      2 ^ 52 * n ≤ 2 ^ 52 * 2 ^ (n.log2 + 1) := Nat.mul_le_mul_left _ (Nat.le_of_lt Nat.lt_log2_self)
      _ = 2 ^ (n.log2 + 53) := by rw [← Nat.pow_add, show 52 + (n.log2 + 1) = n.log2 + 53 by omega]
      _ ≤ 2 ^ (m.log2 + (e - k - t').toNat) := Nat.pow_le_pow_right (by decide) shift
      _ = 2 ^ m.log2 * 2 ^ (e - k - t').toNat := Nat.pow_add ..
      _ ≤ m * 2 ^ (e - k - t').toNat :=
        Nat.mul_le_mul_right _ (Nat.log2_self_le (Nat.ne_of_gt positive))
  apply roundWithAccuracy_quotient _ other rfl long (by omega)
  rw [same, Nat.mul_assoc, ← Nat.pow_add]
  congr 2
  omega

/-! Hundredths. -/

def centUnits (n : Nat) : Nat := roundedQuotient (n * 2 ^ 1074) 100

theorem long_cents {n : Nat} (some : 0 < n) : 52 ≤ (n * 2 ^ 1074 / 100).log2 := by
  have large : 2 ^ 52 ≤ n * 2 ^ 1074 / 100 := by
    apply (Nat.le_div_iff_mul_le (by decide)).mpr
    calc
      2 ^ 52 * 100 ≤ 2 ^ 59 := by decide
      _ ≤ 2 ^ 1074 := Nat.pow_le_pow_right (by decide) (by decide)
      _ ≤ n * 2 ^ 1074 := Nat.le_mul_of_pos_left _ some
  have filled : n * 2 ^ 1074 / 100 ≠ 0 := Nat.ne_of_gt (Nat.lt_of_lt_of_le (Nat.two_pow_pos _) large)
  exact (Nat.le_log2 filled).mpr large

theorem log2_cents_le (n : Nat) : (n * 2 ^ 1074 / 100).log2 ≤ n.log2 + 1074 :=
  Nat.le_trans (log2_le_of_le (Nat.div_le_self _ _)) (log2_shiftLeft_le n 1074)

theorem log2_le_of_held {n : Nat} (held : n < hundredthsLimit) : n.log2 ≤ 94 := by
  have bits := log2_le_of_le (Nat.le_of_lt (Nat.lt_trans held (by decide : hundredthsLimit < 2 ^ 94)))
  rwa [Nat.log2_two_pow] at bits

theorem centUnits_place {n : Nat} (held : n < hundredthsLimit) :
    (((centUnits n).log2 - 52 : Nat) - 1074 : Int) ≤ 971 := by
  have digits := log2_le_of_held held
  have places := log2_cents_le n
  have log := log2_roundedQuotient_le (n * 2 ^ 1074) 100
  rw [← centUnits] at log
  omega

theorem units_of_hundredths {n m d k : Nat} {e f : Int} (held : n < hundredthsLimit)
    (positive : 0 < m) (other : 0 < d) (least : -1074 ≤ e - f)
    (large : -1021 ≤ (m.log2 : Int) + e - (d.log2 + f))
    (digits : m * 2 ^ (e - f + 1074).toNat = n * 2 ^ 1074 * 2 ^ k) (hundred : d = 100 * 2 ^ k)
    {x : Float} (packed : x = .ofModel (.pack (UnpackedFloat.div .binary64
      (.finite .positive m e positive) (.finite .positive d f other)))) :
    x.isFinite = true ∧ units x = centUnits n := by
  obtain ⟨filled, quotient, kept⟩ := div_quotient positive other least large rfl
  have same : roundedQuotient (m * 2 ^ (e - f + 1074).toNat) d = centUnits n := by
    rw [digits, hundred, roundedQuotient_scaled _ _ (Nat.two_pow_pos k), centUnits]
  have most := centUnits_place held
  rw [quotient] at packed
  rw [← same] at most ⊢
  exact units_of_packed most kept packed

theorem units_toFloat {n : Nat} (held : n < hundredthsLimit) :
    (Decimal.mk n (-2)).toFloat.isFinite = true ∧ units (Decimal.mk n (-2)).toFloat = centUnits n := by
  by_cases zero : n = 0
  · subst zero
    exact ⟨by decide +kernel, by decide +kernel⟩
  have some : 0 < n := Nat.pos_of_ne_zero zero
  change (Float.ofScientific n true 2).isFinite = true ∧ units (Float.ofScientific n true 2) = _
  unfold Float.ofScientific
  split
  · rename_i few
    -- a few digits are divided by a hundred as doubles, more of them as the decimal they are
    have bits : n.log2 < 53 := (Nat.log2_lt zero).mpr few.1
    have hundred : (Float.ofBits 0x4059000000000000).toModel.unpack =
        .finite .positive 7036874417766400 (-46) (by decide) := by rfl
    obtain ⟨positive, shape⟩ := unpack_toFloat some few.1
    dsimp only
    rw [if_pos rfl]
    have packed : n.toUInt64.toFloat / Float.ofBits 0x4059000000000000 =
        .ofModel (.pack (UnpackedFloat.div .binary64 n.toUInt64.toFloat.toModel.unpack
          (Float.ofBits 0x4059000000000000).toModel.unpack)) := rfl
    rw [shape, hundred] at packed
    refine units_of_hundredths (k := 46) held positive (by decide) (by omega) ?_ ?_ (by decide) packed
    · rw [log2_times_power zero]
      have : Nat.log2 7036874417766400 = 52 := by decide
      omega
    · have digits {i j k l : Nat} (same : i + j = k + l) : n * 2 ^ i * 2 ^ j = n * 2 ^ k * 2 ^ l := by
        rw [Nat.mul_assoc, Nat.mul_assoc, ← Nat.pow_add, ← Nat.pow_add, same]
      exact digits (k := 1074) (l := 46) (by omega)
  · have binary : (2 : Int) ^ Format.binary64.exponentBits = 2048 := by decide
    dsimp only
    rw [if_pos rfl, show Int.negOfNat 2 = -2 from rfl, Float.Model.ofScientific]
    generalize packed : Float.ofModel (.pack (UnpackedFloat.ofScientific .binary64 n (-2))) = x
    unfold UnpackedFloat.ofScientific at packed
    rw [dif_neg zero, if_neg (by decide), if_neg (by omega), if_neg (by decide)] at packed
    have digits (i : Nat) : n * 2 ^ i = n * 2 ^ i * 2 ^ 0 := by rw [Nat.pow_zero, Nat.mul_one]
    refine units_of_hundredths (k := 0) held some (by decide) (by decide) ?_ ?_ (by decide) packed.symm
    · have : Nat.log2 (10 ^ (-(-2 : Int)).toNat) = 6 := by decide
      omega
    · rw [show ((0 : Int) - 0 + 1074).toNat = 1074 from rfl]
      exact digits 1074

end Joinery.Number
