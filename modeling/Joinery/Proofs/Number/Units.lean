import Joinery.Proofs.Number.Rounding

/-!
The exact values of doubles. What a double holds exactly is read back from any way of writing it as
a mantissa and an exponent, and a sum of values that are not too large has a finite double.
-/
namespace Joinery.Number
open Float.Model
open Float.Model.UnpackedFloat (Sign)

theorem units_of_finite {x : Float} {s : Sign} {m : Nat} {e : Int} {positive : 0 < m}
    (shape : x.toModel.unpack = .finite s m e positive) :
    units x = s.apply ((m * 2 ^ (e + 1074).toNat : Nat) : Int) := by
  simp only [units, shape]
  push_cast
  rfl

theorem units_of_zero {x : Float} {s : Sign} (shape : x.toModel.unpack = .zero s) : units x = 0 := by
  simp only [units, shape]

theorem natAbs_apply (s : Sign) (n : Nat) : (s.apply (n : Int)).natAbs = n := by
  cases s <;> simp [Sign.apply]

theorem sign_of_scaled {s : Sign} {m : Int} {n k : Nat} (some : 0 < n)
    (same : m * 2 ^ k = s.apply (n : Int)) :
    (if m < 0 then Sign.negative else Sign.positive) = s := by
  have weight : (0 : Int) < 2 ^ k := Int.pow_pos (by decide)
  by_cases negative : m < 0
  · have below := Int.mul_neg_of_neg_of_pos negative weight
    rw [if_pos negative]
    rw [same] at below
    cases s with
    | negative => rfl
    | positive =>
      simp only [Sign.apply] at below
      omega
  · have above := Int.mul_nonneg (Int.not_lt.mp negative) (Int.le_of_lt weight)
    rw [if_neg negative]
    rw [same] at above
    cases s with
    | positive => rfl
    | negative =>
      simp only [Sign.apply] at above
      omega

theorem normalize_exact {s z : Sign} {m e : Int} {M : Nat} {E : Int} (positive : 0 < M)
    (fits : Fits M E) (least : -1074 ≤ e)
    (same : m * 2 ^ (e + 1074).toNat = s.apply ((M * 2 ^ (E + 1074).toNat : Nat) : Int)) :
    UnpackedFloat.normalize .binary64 m e z = .finite s M E positive := by
  have filled : 0 < M * 2 ^ (E + 1074).toNat := Nat.mul_pos positive (Nat.two_pow_pos _)
  have size : m.natAbs * 2 ^ (e + 1074).toNat = M * 2 ^ (E + 1074).toNat := by
    have sizes := congrArg Int.natAbs same
    rw [natAbs_apply, Int.natAbs_mul, Int.natAbs_pow] at sizes
    exact sizes
  have aligned : m.natAbs * 2 ^ (e - E).toNat = M * 2 ^ (E - e).toNat := by
    have fitsLeast := fits.least
    have high : (e + 1074).toNat = (e - E).toNat + (min e E + 1074).toNat := by omega
    have low : (E + 1074).toNat = (E - e).toNat + (min e E + 1074).toNat := by omega
    rw [high, low, Nat.pow_add, Nat.pow_add, ← Nat.mul_assoc, ← Nat.mul_assoc] at size
    exact Nat.eq_of_mul_eq_mul_right (Nat.two_pow_pos _) size
  have some : m ≠ 0 := by
    rintro rfl
    simp only [Int.natAbs_zero, Nat.zero_mul] at size
    omega
  rw [normalize_eq, if_neg some, sign_of_scaled filled same]
  exact round_exact positive fits aligned

theorem nearest_exact {x : Float} (finite : x.isFinite = true) {m e : Int} (least : -1074 ≤ e)
    (same : m * 2 ^ (e + 1074).toNat = units x) :
    (nearest m e).isFinite = true ∧ units (nearest m e) = units x := by
  cases shape : x.toModel.unpack with
  | finite s M E positive =>
    rw [units_of_finite shape] at same ⊢
    have fits := fits_of_unpack shape
    have unpacked : (nearest m e).toModel.unpack = .finite s M E positive := by
      change (Float.Model.pack (UnpackedFloat.normalize .binary64 m e .positive)).unpack = _
      rw [normalize_exact positive fits least same]
      exact unpack_pack_fits positive fits
    refine ⟨?_, units_of_finite unpacked⟩
    change (nearest m e).toModel.unpack.isFinite = true
    rw [unpacked]
    rfl
  | zero s =>
    rw [units_of_zero shape] at same ⊢
    have weight : (2 : Int) ^ (e + 1074).toNat ≠ 0 := Int.pow_ne_zero (by decide)
    obtain rfl : m = 0 := (Int.mul_eq_zero.mp same).resolve_right weight
    have unpacked : (nearest 0 e).toModel.unpack = .zero .positive := by
      change (Float.Model.pack (UnpackedFloat.normalize .binary64 0 e .positive)).unpack = _
      rw [normalize_eq, if_pos rfl]
      rfl
    refine ⟨?_, units_of_zero unpacked⟩
    change (nearest 0 e).toModel.unpack.isFinite = true
    rw [unpacked]
    rfl
  | infinity s =>
    change x.toModel.unpack.isFinite = true at finite
    rw [shape] at finite
    contradiction
  | notANumber =>
    change x.toModel.unpack.isFinite = true at finite
    rw [shape] at finite
    contradiction

theorem AtMost.isFinite {f : UnpackedFloat} {limit : Int} (held : AtMost limit f)
    (le : limit ≤ 971) : (Float.ofModel (.pack f)).isFinite = true := by
  change (Float.Model.pack f).unpack.isFinite = true
  cases f with
  | zero s => cases s <;> rfl
  | finite s m e positive => exact isFinite_unpack_pack positive (Int.le_trans held le)
  | infinity s => exact held.elim
  | notANumber => exact held.elim

theorem nearest_isFinite {m e : Int} (small : aim m.natAbs e ≤ 970) :
    (nearest m e).isFinite = true := (normalize_atMost m e .positive).isFinite (by omega)

end Joinery.Number
