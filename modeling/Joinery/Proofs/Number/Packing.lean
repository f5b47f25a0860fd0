import Joinery.Number.Exact
import Mathlib

/-!
Doubles as packed numbers. A finite double unpacks to one shape: fewer than 54 bits, and either all
53 of them or the least exponent. Numbers of that shape come back from packing as they went in.
-/
namespace Joinery.Number
open Float.Model
open Float.Model.UnpackedFloat (Sign packComponents unpackSign unpackMantissa unpackExponent
  unpackMantissa_packComponents unpackExponent_packComponents)

/-- The shape in which a double holds a number that is neither zero nor past the largest double. -/
structure Fits (mantissa : Nat) (exponent : Int) : Prop where
  small : mantissa < 2 ^ 53
  least : -1074 ≤ exponent
  most : exponent ≤ 971
  full : 2 ^ 52 ≤ mantissa ∨ exponent = -1074

theorem sign_of_packed (s : Sign) (e : BitVec 11) (m : BitVec 52) :
    Sign.ofBitVec (@unpackSign Format.binary64 (packComponents Format.binary64 s e m)) =
      s := by
  simp only [unpackSign, packComponents, BitVec.extractLsb]
  rw [BitVec.extractLsb'_append_eq_of_le (by omega), BitVec.extractLsb'_append_eq_of_le (by omega)]
  cases s <;> rfl

theorem append_one (m : BitVec 52) : (1#1 ++ m).toNat = 2 ^ 52 + m.toNat := by
  rw [BitVec.toNat_append, ← Nat.shiftLeft_add_eq_or_of_lt m.isLt]
  rfl

theorem unpack_packed_full (s : Sign) {e : BitVec 11} (m : BitVec 52) (some : e ≠ 0#11)
    (bounded : e ≠ -1#11) :
    UnpackedFloat.unpack Format.binary64 (packComponents Format.binary64 s e m) =
      .finite s (2 ^ 52 + m.toNat) (e.toNat - 1075) (by omega) := by
  simp only [UnpackedFloat.unpack, unpackMantissa_packComponents, unpackExponent_packComponents,
    sign_of_packed]
  rw [if_neg bounded, if_neg some]
  congr 1
  exact append_one m

theorem unpack_packed_least (s : Sign) {m : BitVec 52} (some : m ≠ 0#52) :
    UnpackedFloat.unpack Format.binary64 (packComponents Format.binary64 s 0#11 m) =
      .finite s m.toNat (-1074) (by
        simpa [BitVec.toNat_pos, BitVec.pos_iff_ne_zero]) := by
  simp only [UnpackedFloat.unpack, unpackMantissa_packComponents, unpackExponent_packComponents,
    sign_of_packed]
  rw [if_neg (by decide), if_pos trivial, dif_neg some]
  rfl

theorem unpack_packed_zero (s : Sign) :
    UnpackedFloat.unpack Format.binary64 (packComponents Format.binary64 s 0#11 0#52) = .zero s := by
  cases s <;> rfl

theorem pack_finite {s : Sign} {m : Nat} {e : Int} (positive : 0 < m) (most : e ≤ 971) :
    UnpackedFloat.pack Format.binary64 (.finite s m e positive) =
      if m.log2 = 52 then
        packComponents Format.binary64 s (BitVec.ofNat 11 (e + 1075).toNat) (BitVec.ofNat 52 m)
      else packComponents Format.binary64 s 0#11 (BitVec.ofNat 52 m) := by
  have biased : (e + (Format.binary64.exponentBias : Int) +
      (Format.binary64.mantissaBitsWithoutImplicit : Int)).toNat = (e + 1075).toNat := by
    congr 1
    simp [Format.exponentBias]
    omega
  have bounded : ¬ 2 ^ Format.binary64.exponentBits ≤ (e + 1075).toNat + 1 := by
    simp
    omega
  simp only [UnpackedFloat.pack, biased, if_neg bounded]
  by_cases full : m.log2 = 52
  · rw [if_pos full, if_pos (by rw [full]; rfl)]
  · rw [if_neg full, if_neg (by simp [Format.mantissaBits]; omega)]

theorem field_ne {width a b : Nat} (bound : a < 2 ^ width) (different : a ≠ b % 2 ^ width) :
    BitVec.ofNat width a ≠ BitVec.ofNat width b := by
  intro same
  have values := congrArg BitVec.toNat same
  rw [BitVec.toNat_ofNat, BitVec.toNat_ofNat, Nat.mod_eq_of_lt bound] at values
  exact different values

theorem unpack_pack_fits {s : Sign} {m : Nat} {e : Int} (positive : 0 < m) (fits : Fits m e) :
    (Float.Model.pack (.finite s m e positive)).unpack = .finite s m e positive := by
  obtain ⟨small, least, most, full⟩ := fits
  change UnpackedFloat.unpack Format.binary64 (UnpackedFloat.pack Format.binary64 _) = _
  rw [pack_finite positive most]
  have bits : m.log2 < 53 := (Nat.log2_lt (by omega)).mpr small
  by_cases normal : 2 ^ 52 ≤ m
  · have log : m.log2 = 52 := by
      have := (Nat.le_log2 (by omega)).mpr normal
      omega
    rw [if_pos log, unpack_packed_full s _ (field_ne (by omega) (by omega))
      (field_ne (b := 2047) (by omega) (by omega))]
    have mantissa : 2 ^ 52 + (BitVec.ofNat 52 m).toNat = m := by
      rw [BitVec.toNat_ofNat]
      omega
    have exponent : ((BitVec.ofNat 11 (e + 1075).toNat).toNat : Int) - 1075 = e := by
      rw [BitVec.toNat_ofNat]
      omega
    simp only [mantissa, exponent]
  · have log : m.log2 ≠ 52 := by
      have := (Nat.log2_lt (n := m) (k := 52) (by omega)).mpr (by omega)
      omega
    obtain rfl : e = -1074 := full.resolve_left normal
    rw [if_neg log, unpack_packed_least s (field_ne (by omega) (by omega))]
    have mantissa : (BitVec.ofNat 52 m).toNat = m := by
      rw [BitVec.toNat_ofNat]
      omega
    simp only [mantissa]

theorem isFinite_unpack_pack {s : Sign} {m : Nat} {e : Int} (positive : 0 < m) (most : e ≤ 971) :
    (Float.Model.pack (.finite s m e positive)).unpack.isFinite = true := by
  change (UnpackedFloat.unpack Format.binary64 (UnpackedFloat.pack Format.binary64 _)).isFinite = true
  rw [pack_finite positive most]
  have some_or_least (m : BitVec 52) :
      (UnpackedFloat.unpack Format.binary64
        (packComponents Format.binary64 s 0#11 m)).isFinite = true := by
    by_cases zero : m = 0#52
    · rw [zero, unpack_packed_zero]
      rfl
    · rw [unpack_packed_least s zero]
      rfl
  split
  · by_cases zero : BitVec.ofNat 11 (e + 1075).toNat = 0#11
    · rw [zero]
      exact some_or_least _
    · rw [unpack_packed_full s _ zero (field_ne (b := 2047) (by omega) (by omega))]
      rfl
  · exact some_or_least _

theorem fits_of_unpack {v : Float.Model} {s : Sign} {m : Nat} {e : Int} {positive : 0 < m}
    (shape : v.unpack = .finite s m e positive) : Fits m e := by
  unfold Float.Model.unpack UnpackedFloat.unpack at shape
  dsimp only at shape
  have mantissaBound : (@unpackMantissa Format.binary64 v.toBits.toBitVec).toNat < 2 ^ 52 :=
    BitVec.isLt _
  have exponentBound : (@unpackExponent Format.binary64 v.toBits.toBitVec).toNat < 2 ^ 11 :=
    BitVec.isLt _
  split at shape
  · split at shape <;> cases shape
  rename_i bounded
  split at shape
  · rename_i zero
    split at shape
    · cases shape
    · injection shape with _ mantissa exponent
      rw [zero] at exponent
      subst mantissa exponent
      exact ⟨by omega, by decide, by decide, Or.inr rfl⟩
  · rename_i some
    have least : (@unpackExponent Format.binary64 v.toBits.toBitVec).toNat ≠ 0 :=
      fun zero => some (BitVec.eq_of_toNat_eq zero)
    have most : (@unpackExponent Format.binary64 v.toBits.toBitVec).toNat ≠ 2047 :=
      fun top => bounded (BitVec.eq_of_toNat_eq top)
    injection shape with _ mantissa exponent
    rw [append_one] at mantissa
    change _ - (1075 : Int) = e at exponent
    exact ⟨by omega, by omega, by omega, Or.inl (by omega)⟩

end Joinery.Number
