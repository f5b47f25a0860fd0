import Joinery.Estimate.Sum
import Joinery.Proofs.Number.Units

/-!
Bounds on doubles. What is rounded to hundredths stays below 2^100, so a sum of such values has a
double unless there are more of them than any list holds.
-/
namespace Joinery.Number
open Float.Model
open Float.Model.UnpackedFloat (Sign packComponents roundWithAccuracy)

def Small (limit : Int) (x : Float) : Prop := AtMost limit x.toModel.unpack

theorem small_of_pack {f : UnpackedFloat} {limit : Int} (held : AtMost limit f)
    (least : -1074 ≤ limit) (most : limit ≤ 971) : Small limit (.ofModel (.pack f)) := by
  change AtMost limit (UnpackedFloat.unpack Format.binary64 (UnpackedFloat.pack Format.binary64 f))
  have bottom (s : Sign) (m : BitVec 52) :
      AtMost limit (UnpackedFloat.unpack Format.binary64
        (packComponents Format.binary64 s 0#11 m)) := by
    by_cases zero : m = 0#52
    · rw [zero, unpack_packed_zero]
      trivial
    · rw [unpack_packed_least s zero]
      exact least
  cases f with
  | zero s => exact bottom s 0#52
  | finite s m e positive =>
    have le : e ≤ limit := held
    rw [pack_finite positive (by omega)]
    split
    · by_cases zero : BitVec.ofNat 11 (e + 1075).toNat = 0#11
      · rw [zero]
        exact bottom s _
      · rw [unpack_packed_full s _ zero (field_ne (b := 2047) (by omega) (by omega))]
        change _ ≤ limit
        rw [BitVec.toNat_ofNat]
        omega
    · exact bottom s _
  | infinity s => exact held.elim
  | notANumber => exact held.elim

theorem Small.isFinite {limit : Int} {x : Float} (small : Small limit x) : x.isFinite = true := by
  change x.toModel.unpack.isFinite = true
  unfold Small at small
  cases shape : x.toModel.unpack with
  | zero s => rfl
  | finite s m e positive => rfl
  | infinity s =>
    rw [shape] at small
    exact small.elim
  | notANumber =>
    rw [shape] at small
    exact small.elim

theorem Small.units_lt {limit : Int} {x : Float} (small : Small limit x) :
    (units x).natAbs < 2 ^ (limit + 1127).toNat := by
  unfold Small at small
  cases shape : x.toModel.unpack with
  | zero s =>
    rw [units_of_zero shape]
    exact Nat.two_pow_pos _
  | finite s m e positive =>
    rw [shape] at small
    have le : e ≤ limit := small
    have fits := fits_of_unpack shape
    rw [units_of_finite shape, natAbs_apply]
    calc
      m * 2 ^ (e + 1074).toNat < 2 ^ 53 * 2 ^ (e + 1074).toNat :=
        Nat.mul_lt_mul_of_pos_right fits.small (Nat.two_pow_pos _)
      _ = 2 ^ (53 + (e + 1074).toNat) := (Nat.pow_add ..).symm
      _ ≤ 2 ^ (limit + 1127).toNat := by
        apply Nat.pow_le_pow_right (by decide)
        have := fits.least
        omega
  | infinity s =>
    rw [shape] at small
    exact small.elim
  | notANumber =>
    rw [shape] at small
    exact small.elim

theorem Small.neg {limit : Int} {x : Float} (small : Small limit x) (least : -1074 ≤ limit)
    (most : limit ≤ 971) : Small limit (-x) := by
  change Small limit (.ofModel (.pack x.toModel.unpack.neg))
  apply small_of_pack _ least most
  unfold Small at small
  cases shape : x.toModel.unpack <;> rw [shape] at small <;> exact small

theorem log2_le_of_le {a b : Nat} (le : a ≤ b) : a.log2 ≤ b.log2 := by
  by_cases zero : a = 0
  · simp [zero]
  · exact (Nat.le_log2 (by omega)).mpr (Nat.le_trans (Nat.log2_self_le zero) le)

theorem div_atMost {s₁ s₂ : Sign} {m₁ m₂ : Nat} {e₁ e₂ : Int} (p₁ : 0 < m₁) (p₂ : 0 < m₂) :
    AtMost (max (e₁ - e₂) (aim m₁ (e₁ - e₂)) + 1)
      (UnpackedFloat.div .binary64 (.finite s₁ m₁ e₁ p₁) (.finite s₂ m₂ e₂ p₂)) := by
  simp only [UnpackedFloat.div, UnpackedFloat.divCore, Nat.shiftLeft_eq]
  refine (roundWithAccuracy_atMost _ _ _ _).trans ?_
  generalize exponent : min (e₁ - e₂) _ = t
  have quotient := log2_le_of_le (Nat.div_le_self (m₁ * 2 ^ (e₁ - e₂ - t).toNat) m₂)
  have grown := log2_shiftLeft_le m₁ (e₁ - e₂ - t).toNat
  unfold aim
  omega

theorem unpack_toFloat {n : Nat} (some : 0 < n) (few : n < 2 ^ 53) :
    ∃ positive, n.toUInt64.toFloat.toModel.unpack =
      .finite .positive (n * 2 ^ (52 - n.log2)) (n.log2 - 52) positive := by
  have bits : n.log2 < 53 := (Nat.log2_lt (by omega)).mpr few
  have low := Nat.log2_self_le (n := n) (by omega)
  have high := Nat.lt_log2_self (n := n)
  have positive : 0 < n * 2 ^ (52 - n.log2) := Nat.mul_pos some (Nat.two_pow_pos _)
  have fits : Fits (n * 2 ^ (52 - n.log2)) (n.log2 - 52) := by
    refine ⟨?_, by omega, by omega, Or.inl ?_⟩
    · calc
        n * 2 ^ (52 - n.log2) < 2 ^ (n.log2 + 1) * 2 ^ (52 - n.log2) :=
          Nat.mul_lt_mul_of_pos_right high (Nat.two_pow_pos _)
        _ = 2 ^ 53 := by rw [← Nat.pow_add, show n.log2 + 1 + (52 - n.log2) = 53 by omega]
    · calc
        2 ^ 52 = 2 ^ n.log2 * 2 ^ (52 - n.log2) := by
          rw [← Nat.pow_add, show n.log2 + (52 - n.log2) = 52 by omega]
        _ ≤ n * 2 ^ (52 - n.log2) := Nat.mul_le_mul_right _ low
  refine ⟨positive, ?_⟩
  have exact : UnpackedFloat.normalize .binary64 n 0 .positive =
      .finite .positive (n * 2 ^ (52 - n.log2)) (n.log2 - 52) positive := by
    apply normalize_exact positive fits (by decide)
    rw [Nat.mul_assoc, ← Nat.pow_add,
      show 52 - n.log2 + ((n.log2 : Int) - 52 + 1074).toNat = (0 + 1074 : Int).toNat by omega]
    have cast (k : Nat) : (n : Int) * 2 ^ k = ((n * 2 ^ k : Nat) : Int) := by simp
    exact cast _
  change (Float.Model.pack
    (UnpackedFloat.normalize .binary64 (n.toUInt64.toNat : Int) 0 .positive)).unpack = _
  rw [show n.toUInt64.toNat = n from Nat.mod_eq_of_lt (by omega), exact]
  exact unpack_pack_fits positive fits

/-- The fast way of reading few hundredths: the digits as a double, over a hundred. -/
theorem small_div_hundred {n : Nat} (few : n < 2 ^ 53) :
    Small 47 (n.toUInt64.toFloat / Float.ofBits 0x4059000000000000) := by
  have hundred : (Float.ofBits 0x4059000000000000).toModel.unpack =
      .finite .positive 7036874417766400 (-46) (by decide) := by rfl
  change Small 47 (.ofModel (.pack (UnpackedFloat.div .binary64 _ _)))
  apply small_of_pack _ (by decide) (by decide)
  rw [hundred]
  by_cases zero : n = 0
  · subst zero
    trivial
  · obtain ⟨positive, shape⟩ := unpack_toFloat (by omega) few
    rw [shape]
    refine (div_atMost positive _).trans ?_
    have bits : n.log2 < 53 := (Nat.log2_lt zero).mpr few
    unfold aim
    rw [log2_times_power zero]
    omega

theorem small_hundredths {n : Nat} (held : n < hundredthsLimit) :
    Small 47 (Decimal.mk n (-2)).toFloat := by
  change Small 47 (Float.ofScientific n true 2)
  unfold Float.ofScientific
  split
  · rename_i few
    dsimp only
    rw [if_pos rfl]
    exact small_div_hundred few.1
  · rename_i many
    have some : n ≠ 0 := by
      rintro rfl
      exact many (by decide)
    have bits : n.log2 < 94 := (Nat.log2_lt some).mpr (Nat.lt_trans held (by decide))
    dsimp only
    rw [if_pos rfl, show Int.negOfNat 2 = -2 from rfl, Float.Model.ofScientific]
    apply small_of_pack _ (by decide) (by decide)
    unfold UnpackedFloat.ofScientific
    have binary : (2 : Int) ^ Format.binary64.exponentBits = 2048 := by decide
    rw [dif_neg some, if_neg (by decide), if_neg (by omega), if_neg (by decide)]
    refine (div_atMost _ _).trans ?_
    unfold aim
    omega

theorem small_roundHundredths (x : Float) : Small 47 (roundHundredths x) := by
  have held : heldHundredths x < hundredthsLimit := by
    simp only [heldHundredths]
    split
    · assumption
    · decide
  simp only [roundHundredths]
  split
  · exact (small_hundredths held).neg (by decide) (by decide)
  · exact small_hundredths held

theorem natAbs_sum_le {b : Nat} {zs : List Int} (bounded : ∀ z ∈ zs, z.natAbs < b) :
    zs.sum.natAbs ≤ zs.length * b := by
  induction zs with
  | nil => simp
  | cons z zs ih =>
    have first := bounded z (by simp)
    have rest := ih fun y member => bounded y (by simp [member])
    have apart := Int.natAbs_add_le z zs.sum
    simp only [List.sum_cons, List.length_cons, Nat.succ_mul]
    omega

theorem sum?_of_small {xs : List Float} (small : ∀ x ∈ xs, Small 47 x)
    (short : xs.length < 2 ^ 63) : ∃ x, sum? xs = some x := by
  have bounded : ∀ z ∈ xs.map units, z.natAbs < 2 ^ (47 + 1127 : Int).toNat := by
    intro z member
    obtain ⟨x, mx, rfl⟩ := List.mem_map.mp member
    exact (small x mx).units_lt
  have scaled (k : Nat) : xs.length * 2 ^ k < 2 ^ (63 + k) := by
    rw [Nat.pow_add]
    exact Nat.mul_lt_mul_of_pos_right short (Nat.two_pow_pos k)
  have total : (xs.map units).sum.natAbs < 2 ^ (63 + (47 + 1127 : Int).toNat) := by
    apply Nat.lt_of_le_of_lt (natAbs_sum_le bounded)
    rw [List.length_map]
    exact scaled _
  have finite : (ofUnits (xs.map units).sum).isFinite = true := by
    apply nearest_isFinite
    have bits := log2_le_of_le (Nat.le_of_lt total)
    rw [Nat.log2_two_pow] at bits
    unfold aim
    omega
  exact ⟨ofUnits (xs.map units).sum, by simp only [sum?]; rw [if_pos finite]⟩

end Joinery.Number

namespace Joinery.Estimate
open Number

theorem total_of_small {xs : List Float} (small : ∀ x ∈ xs, Small 47 x)
    (short : xs.length < 2 ^ 63) : ∃ t, total xs = .ok t ∧ Small 47 t := by
  obtain ⟨x, summed⟩ := sum?_of_small small short
  exact ⟨roundHundredths x, by simp [total, sum, summed, Except.map], small_roundHundredths x⟩

end Joinery.Estimate
