import Joinery.Proofs.Number.Basin

/-!
How numbers are read. A number is read as the nearest double, which is what rounding the units in its
size says, with the sign of the number. Read so, the shortest decimal of a double gives the double back.
-/
namespace Joinery.Number
open Float.Model
open Float.Model.UnpackedFloat (Sign packComponents unpackSign unpackMantissa unpackExponent
  unpackMantissa_packComponents unpackExponent_packComponents)

/-! A finite double is what it unpacks to. -/

theorem packed_fields (b : BitVec 64) :
    packComponents .binary64 (Sign.ofBitVec (@unpackSign .binary64 b)) (@unpackExponent .binary64 b)
      (@unpackMantissa .binary64 b) = b := by
  have sign : ∀ s : BitVec 1, (Sign.ofBitVec s).toBitVec = s := by decide
  unfold packComponents
  rw [sign]
  unfold unpackSign unpackExponent unpackMantissa
  simp only [BitVec.extractLsb]
  ext i bound
  simp only [BitVec.getElem_append, BitVec.getElem_cast, BitVec.getElem_extractLsb']
  rw [← BitVec.getLsbD_eq_getElem]
  split
  · congr 1
    omega
  · split <;> congr 1 <;> omega

theorem pack_unpack {b : BitVec 64} (finite : (UnpackedFloat.unpack .binary64 b).isFinite = true) :
    UnpackedFloat.pack .binary64 (UnpackedFloat.unpack .binary64 b) = b := by
  obtain ⟨s, e, m, rfl⟩ : ∃ (s : Sign) (e : BitVec 11) (m : BitVec 52),
      b = packComponents .binary64 s e m := ⟨_, _, _, (packed_fields b).symm⟩
  by_cases least : e = 0#11
  · subst least
    by_cases none : m = 0#52
    · subst none
      rw [unpack_packed_zero]
      rfl
    · have small : m.toNat.log2 ≠ 52 := by
        have bits := m.isLt
        have some : m.toNat ≠ 0 := fun zero => none (BitVec.eq_of_toNat_eq zero)
        have := (Nat.log2_lt (n := m.toNat) (k := 52) some).mpr bits
        omega
      rw [unpack_packed_least s none, pack_finite _ (by decide), if_neg small, BitVec.ofNat_toNat,
        BitVec.setWidth_eq]
  · by_cases top : e = -1#11
    · subst top
      simp only [UnpackedFloat.unpack, unpackExponent_packComponents] at finite
      rw [if_pos trivial] at finite
      split at finite <;> cases finite
    · have bits := e.isLt
      have below : e.toNat ≠ 2047 := fun most => top (BitVec.eq_of_toNat_eq most)
      have full : (2 ^ 52 + m.toNat).log2 = 52 := by
        have bits := m.isLt
        exact (Nat.log2_eq_iff (by omega)).mpr ⟨by omega, by omega⟩
      have exponent : ((e.toNat : Int) - 1075 + 1075).toNat = e.toNat := by omega
      have mantissa : BitVec.ofNat 52 (2 ^ 52 + m.toNat) = m := by
        apply BitVec.eq_of_toNat_eq
        have bits := m.isLt
        rw [BitVec.toNat_ofNat]
        omega
      rw [unpack_packed_full s m least top, pack_finite _ (by omega), if_pos full, exponent, mantissa,
        BitVec.ofNat_toNat, BitVec.setWidth_eq]

theorem eq_of_unpack {x y : Float} (finite : x.isFinite = true)
    (same : x.toModel.unpack = y.toModel.unpack) : x = y := by
  have bits : x.toModel.toBits.toBitVec = y.toModel.toBits.toBitVec := by
    change x.toModel.unpack.isFinite = true at finite
    have finiteToo : y.toModel.unpack.isFinite = true := same ▸ finite
    exact (pack_unpack finite).symm.trans ((congrArg _ same).trans (pack_unpack finiteToo))
  obtain ⟨⟨b, valid⟩⟩ := x
  obtain ⟨⟨c, validToo⟩⟩ := y
  obtain rfl : b = c := UInt64.toBitVec_inj.mp bits
  rfl

theorem eq_of_units {x y : Float} (finite : x.isFinite = true) (finiteToo : y.isFinite = true)
    (some : units x ≠ 0) (same : units x = units y) : x = y := by
  rcases shape_of_finite finite with ⟨s, shape⟩ | ⟨s, m, e, positive, shape⟩
  · exact absurd (units_of_zero shape) some
  · rcases shape_of_finite finiteToo with ⟨t, other⟩ | ⟨t, n, k, positiveToo, other⟩
    · exact absurd (same.trans (units_of_zero other)) some
    · apply eq_of_unpack finite
      rw [units_of_finite shape, units_of_finite other] at same
      have sizes := congrArg Int.natAbs same
      rw [natAbs_apply, natAbs_apply] at sizes
      obtain ⟨rfl, rfl⟩ := (fits_of_unpack shape).unique (fits_of_unpack other) sizes
      have filled : 0 < m * 2 ^ (e + 1074).toNat := Nat.mul_pos positive (Nat.two_pow_pos _)
      have sign : s = t := by
        cases s <;> cases t
        case positive.positive | negative.negative => rfl
        case positive.negative | negative.positive =>
          simp only [Sign.apply] at same
          omega
      rw [shape, other, sign]

theorem beq_iff_units {x y : Float} (finite : x.isFinite = true) (finiteToo : y.isFinite = true) :
    (x == y) = true ↔ units x = units y := by
  refine ⟨fun equal => (alike_of_beq equal).units_eq, fun same => ?_⟩
  by_cases some : units x = 0
  · have zero {z : Float} (finite : z.isFinite = true) (none : units z = 0) :
        ∃ s, z.toModel.unpack = .zero s := by
      rcases shape_of_finite finite with zero | ⟨s, m, e, positive, shape⟩
      · exact zero
      · have filled : 0 < m * 2 ^ (e + 1074).toNat := Nat.mul_pos positive (Nat.two_pow_pos _)
        have size := congrArg Int.natAbs none
        rw [units_of_finite shape, natAbs_apply] at size
        exact absurd size (Nat.ne_of_gt filled)
    obtain ⟨s, first⟩ := zero finite some
    obtain ⟨t, second⟩ := zero finiteToo (same ▸ some)
    change x.toModel.unpack.beq y.toModel.unpack = true
    rw [first, second]
    rfl
  · rw [eq_of_units finite finiteToo some same]
    exact beq_self_of_finite finiteToo

/-! The double that a number is read as. -/

def exactValue (x : Float) : ℚ := units x / unitsPerOne

def evenMantissa (x : Float) : Bool :=
  match x.toModel.unpack with
  | .finite _ m _ _ => m % 2 == 0
  | _ => true

/-- A number is read as the nearest double, and from the middle between two doubles as the one with the
even mantissa. This says nothing of the sign of a zero. -/
structure ReadAs (q : ℚ) (x : Float) : Prop where
  finite : x.isFinite = true
  nearest : ∀ y : Float, y.isFinite = true → |q - exactValue x| ≤ |q - exactValue y|
  even : ∀ y : Float, y.isFinite = true → exactValue y ≠ exactValue x →
    |q - exactValue x| = |q - exactValue y| → evenMantissa x = true

theorem evenMantissa_iff {x : Float} (finite : x.isFinite = true) :
    evenMantissa x = true ↔ EvenHeld (units x).natAbs := by
  rcases shape_of_finite finite with ⟨s, shape⟩ | ⟨s, m, e, positive, shape⟩
  · rw [units_of_zero shape]
    exact iff_of_true (by simp only [evenMantissa, shape]) ⟨0, -1074, fits_zero, rfl, rfl⟩
  · have fits := fits_of_unpack shape
    rw [units_of_finite shape, natAbs_apply]
    simp only [evenMantissa, shape, beq_iff_eq]
    exact ⟨fun even => ⟨m, e, fits, even, rfl⟩, fits.even_of_evenHeld⟩

theorem exists_of_held {u : Nat} (held : Held u) (s : Sign) :
    ∃ y : Float, y.isFinite = true ∧ units y = s.apply (u : Int) := by
  rcases held with rfl | ⟨m, e, fits, rfl⟩
  · exact ⟨0, rfl, by cases s <;> exact units_zero⟩
  · rcases Nat.eq_zero_or_pos m with rfl | positive
    · rw [Nat.zero_mul]
      exact ⟨0, rfl, by cases s <;> exact units_zero⟩
    · have shape := unpack_pack_fits (s := s) positive fits
      refine ⟨.ofModel (.pack (.finite s m e positive)), ?_, units_of_finite shape⟩
      change (Float.Model.pack (.finite s m e positive)).unpack.isFinite = true
      rw [shape]
      rfl

theorem one_pos : (0 : ℚ) < unitsPerOne := Int.cast_pos.mpr unitsPerOne_pos

theorem exactValue_inj {x y : Float} : exactValue x = exactValue y ↔ units x = units y := by
  rw [exactValue, exactValue, div_left_inj' one_pos.ne', Int.cast_inj]

theorem abs_exactValue (x : Float) : |exactValue x| = (units x).natAbs / unitsPerOne := by
  rw [exactValue, abs_div, abs_of_pos one_pos, Nat.cast_natAbs, Int.cast_abs]

theorem abs_exactValue_lt_iff {x : Float} {n : Nat} :
    |exactValue x| < n ↔ (units x).natAbs < n * unitsPerOne.natAbs := by
  rw [abs_exactValue, div_lt_iff₀ one_pos, unitsPerOne_cast, ← Nat.cast_mul, Nat.cast_lt]

/-! A number is as far from a double of its own sign as their sizes are from each other, and farther
from a double of the other sign. -/

section
variable {q : ℚ} {x : Float}

theorem distance_sizes (q : ℚ) (x : Float) :
    |(|q| - |exactValue x|)| = |(|q| * unitsPerOne - (units x).natAbs)| / unitsPerOne := by
  have parts : |q| - |exactValue x| = (|q| * unitsPerOne - (units x).natAbs) / unitsPerOne := by
    rw [abs_exactValue, sub_div, mul_div_cancel_right₀ _ one_pos.ne']
  rw [parts, abs_div, abs_of_pos one_pos]

theorem distance_alike (alike : 0 ≤ q * units x) :
    |q - exactValue x| = |(|q| * unitsPerOne - (units x).natAbs)| / unitsPerOne := by
  rw [← distance_sizes]
  rcases mul_nonneg_iff.mp alike with ⟨above, aboveToo⟩ | ⟨below, belowToo⟩
  · have value : 0 ≤ exactValue x := div_nonneg aboveToo one_pos.le
    rw [abs_of_nonneg above, abs_of_nonneg value]
  · have value : exactValue x ≤ 0 := div_nonpos_of_nonpos_of_nonneg belowToo one_pos.le
    rw [abs_of_nonpos below, abs_of_nonpos value, ← abs_neg]
    congr 1
    ring

theorem distance_apart (apart : q * units x < 0) :
    |(|q| * unitsPerOne - (units x).natAbs)| / unitsPerOne < |q - exactValue x| := by
  rw [← distance_sizes]
  rcases mul_neg_iff.mp apart with ⟨above, below⟩ | ⟨below, above⟩
  · have under : exactValue x < 0 := div_neg_of_neg_of_pos below one_pos
    rw [abs_of_pos above, abs_of_neg under, abs_of_pos (by linarith : 0 < q - exactValue x), abs_lt]
    constructor <;> linarith
  · have beyond : 0 < exactValue x := div_pos above one_pos
    rw [abs_of_neg below, abs_of_pos beyond, abs_of_neg (by linarith : q - exactValue x < 0), abs_lt]
    constructor <;> linarith

theorem distance_le (q : ℚ) (x : Float) :
    |(|q| * unitsPerOne - (units x).natAbs)| / unitsPerOne ≤ |q - exactValue x| := by
  rcases lt_or_ge (q * units x) 0 with apart | alike
  · exact (distance_apart apart).le
  · exact (distance_alike alike).ge

end

/-! A number is read as a double by rounding the units in its size. -/

theorem exists_sided (q : ℚ) {u : Nat} (held : Held u) :
    ∃ y : Float, y.isFinite = true ∧ (units y).natAbs = u ∧ 0 ≤ q * units y := by
  have natural : (0 : ℚ) ≤ u := Nat.cast_nonneg u
  rcases le_total 0 q with above | below
  · obtain ⟨y, finite, same⟩ := exists_of_held held .positive
    refine ⟨y, finite, by rw [same, natAbs_apply], ?_⟩
    rw [same, Sign.apply, Int.cast_natCast]
    exact mul_nonneg above natural
  · obtain ⟨y, finite, same⟩ := exists_of_held held .negative
    refine ⟨y, finite, by rw [same, natAbs_apply], ?_⟩
    rw [same, Sign.apply, Int.cast_neg, Int.cast_natCast]
    exact mul_nonneg_of_nonpos_of_nonpos below (neg_nonpos.mpr natural)

theorem units_eq_of_sizes {q : ℚ} {x y : Float}
    (rounds : RoundsTo (|q| * unitsPerOne) (units x).natAbs)
    (sizes : (units x).natAbs = (units y).natAbs) (sign : 0 ≤ q * units x)
    (signToo : 0 ≤ q * units y) : units x = units y := by
  rcases Int.natAbs_eq_natAbs_iff.mp sizes with same | opposite
  · exact same
  · rw [opposite, Int.cast_neg] at sign
    have none : q * units y = 0 := by linarith
    rcases mul_eq_zero.mp none with zero | zero
    · rw [zero, abs_zero, zero_mul] at rounds
      have nothing := rounds.unique roundsTo_zero
      omega
    · have nothing := Int.cast_eq_zero.mp zero
      omega

namespace ReadAs
variable {q : ℚ} {x y : Float} (reads : ReadAs q x)
include reads

theorem sign : 0 ≤ q * units x := by
  by_contra apart
  obtain ⟨finite, opposite⟩ := neg_finite reads.finite
  have alike : 0 ≤ q * units (-x) := by
    rw [opposite, Int.cast_neg]
    linarith
  have nearer := reads.nearest _ finite
  rw [distance_alike alike, opposite, Int.natAbs_neg] at nearer
  exact absurd nearer (not_le.mpr (distance_apart (not_le.mp apart)))

theorem roundsTo : RoundsTo (|q| * unitsPerOne) (units x).natAbs := by
  refine ⟨held_units reads.finite, fun v held => ?_, fun v held different alike => ?_⟩
  all_goals obtain ⟨y, finite, rfl, signToo⟩ := exists_sided q held
  · have nearer := reads.nearest y finite
    rwa [distance_alike reads.sign, distance_alike signToo, div_le_div_iff_of_pos_right one_pos]
      at nearer
  · refine (evenMantissa_iff reads.finite).mp (reads.even y finite ?_ ?_)
    · exact fun equal => different (congrArg Int.natAbs (exactValue_inj.mp equal))
    · rw [distance_alike reads.sign, distance_alike signToo, alike]

theorem beq (other : ReadAs q y) : (x == y) = true :=
  (beq_iff_units reads.finite other.finite).mpr
    (units_eq_of_sizes reads.roundsTo (reads.roundsTo.unique other.roundsTo) reads.sign other.sign)

end ReadAs

theorem readAs_of_roundsTo {q : ℚ} {x : Float} (finite : x.isFinite = true)
    (rounds : RoundsTo (|q| * unitsPerOne) (units x).natAbs) (sign : 0 ≤ q * units x) :
    ReadAs q x := by
  have near {y : Float} (finiteToo : y.isFinite = true) :=
    (div_le_div_iff_of_pos_right one_pos).mpr (rounds.near _ (held_units finiteToo))
  refine ⟨finite, fun y finiteToo => ?_, fun y finiteToo different alike => ?_⟩
  · rw [distance_alike sign]
    exact (near finiteToo).trans (distance_le q y)
  · rw [distance_alike sign] at alike
    have signToo : 0 ≤ q * units y := by
      by_contra apart
      exact absurd (near finiteToo) (not_le.mpr (alike ▸ distance_apart (not_le.mp apart)))
    rw [distance_alike signToo, div_left_inj' one_pos.ne'] at alike
    refine (evenMantissa_iff finite).mpr (rounds.even _ (held_units finiteToo) ?_ alike)
    intro sizes
    exact different (exactValue_inj.mpr (units_eq_of_sizes rounds sizes.symm sign signToo).symm)

/-! The shortest decimal of a double. -/

/-- A decimal that is read as the size of a double, with as few digits as any such decimal and as near
to the double as any such decimal with the same place. -/
structure ShortestDecimal (d : Decimal) (x : Float) : Prop where
  reads : ReadAs d.value x.abs
  fewest : ∀ c : Decimal, ReadAs c.value x.abs → digitCount d.digits ≤ digitCount c.digits
  nearest : ∀ c : Decimal, ReadAs c.value x.abs → c.exponent = d.exponent →
    |d.value - exactValue x.abs| ≤ |c.value - exactValue x.abs|

section
variable {x : Float} (finite : x.isFinite = true) (d : Decimal)
include finite

theorem decimal_sign : 0 ≤ d.value * units x.abs := by
  rw [(abs_finite finite).2, Int.cast_natCast]
  exact mul_nonneg d.value_nonneg (Nat.cast_nonneg _)

theorem decimal_distance : |d.value - exactValue x.abs| =
    |d.value * unitsPerOne - (units x).natAbs| / unitsPerOne := by
  rw [distance_alike (decimal_sign finite d), (abs_finite finite).2, Int.natAbs_natCast,
    abs_of_nonneg d.value_nonneg]

theorem decimal_readAs_iff :
    ReadAs d.value x.abs ↔ RoundsTo (d.value * unitsPerOne) (units x).natAbs := by
  obtain ⟨finiteAbs, size⟩ := abs_finite finite
  have same : RoundsTo (|d.value| * unitsPerOne) (units x.abs).natAbs ↔
      RoundsTo (d.value * unitsPerOne) (units x).natAbs := by
    rw [size, Int.natAbs_natCast, abs_of_nonneg d.value_nonneg]
  exact ⟨fun reads => same.mp reads.roundsTo,
    fun rounds => readAs_of_roundsTo finiteAbs (same.mpr rounds) (decimal_sign finite d)⟩

end

theorem room_of_lt {m n k : Nat} {e : Int} (fits : Fits m e) (small : n ≤ 2 ^ 53) (place : k ≤ 2043)
    (less : m * 2 ^ (e + 1074).toNat < n * 2 ^ k) : e < 971 := by
  rcases fits.full with full | rfl
  · by_contra top
    have filled : 2 ^ 52 * 2 ^ (k + 1) ≤ m * 2 ^ (e + 1074).toNat :=
      Nat.mul_le_mul full (Nat.pow_le_pow_right (by decide) (by omega))
    have most : n * 2 ^ k ≤ 2 ^ 53 * 2 ^ k := Nat.mul_le_mul_right _ small
    rw [Nat.pow_succ] at filled
    omega
  · decide

theorem shortest_of_some {x : Float} (finite : x.isFinite = true) (some : units x ≠ 0) :
    ∃ (m : Nat) (e : Int) (d p : Nat), 0 < m ∧ Fits m e ∧
      (units x).natAbs = m * 2 ^ (e + 1074).toNat ∧ shortest x = ⟨d, p - finestPlace⟩ ∧
      (basin m e).Coarsest d p := by
  rcases shape_of_finite finite with ⟨s, shape⟩ | ⟨s, m, e, positive, shape⟩
  · exact absurd (units_of_zero shape) some
  · obtain ⟨d, p, same, coarsest⟩ := shortest_spec (e := e) positive
    refine ⟨m, e, d, p, positive, fits_of_unpack shape, ?_, ?_, coarsest⟩
    · rw [units_of_finite shape, natAbs_apply]
    · rw [← same]
      simp only [shortest, shape]

theorem shortest_of_none {x : Float} (finite : x.isFinite = true) (none : units x = 0) :
    shortest x = ⟨0, 0⟩ := by
  rw [shortest_congr finite (y := 0) rfl (by rw [none, units_zero])]
  rfl

theorem shortest_roundsTo {x : Float} (finite : x.isFinite = true) :
    RoundsTo ((shortest x).value * unitsPerOne) (units x).natAbs := by
  by_cases none : units x = 0
  · rw [shortest_of_none finite none, none, Decimal.value, Nat.cast_zero, zero_mul, zero_mul]
    exact roundsTo_zero
  · obtain ⟨m, e, d, p, positive, fits, size, found, coarsest⟩ := shortest_of_some finite none
    rw [found, size]
    exact fits.roundsTo_of_around ((around_iff_holds positive).mpr coarsest.held)

/-- The decimal that is found is a shortest one. -/
theorem shortest_correct {x : Float} (finite : x.isFinite = true) {n k : Nat} (small : n ≤ 2 ^ 53)
    (place : k ≤ 2043) (less : (units x).natAbs < n * 2 ^ k) : ShortestDecimal (shortest x) x := by
  refine ⟨(decimal_readAs_iff finite _).mpr (shortest_roundsTo finite), fun c reads => ?_,
    fun c reads same => ?_⟩
  all_goals by_cases none : units x = 0
  · rw [shortest_of_none finite none]
    exact digitCount_pos c.digits
  · obtain ⟨m, e, d, p, positive, fits, size, found, coarsest⟩ := shortest_of_some finite none
    rw [decimal_readAs_iff finite, size] at reads
    rw [size] at less
    rw [found]
    exact digitCount_le positive coarsest
      (fits.around_of_roundsTo positive (room_of_lt fits small place less) reads)
  · have nothing : exactValue x.abs = 0 := by
      rw [exactValue, (abs_finite finite).2, none, Int.natAbs_zero, Nat.cast_zero, Int.cast_zero,
        zero_div]
    rw [shortest_of_none finite none, nothing, Decimal.value, Nat.cast_zero, zero_mul, sub_zero,
      abs_zero]
    exact abs_nonneg _
  · obtain ⟨m, e, d, p, positive, fits, size, found, coarsest⟩ := shortest_of_some finite none
    rw [decimal_readAs_iff finite, size] at reads
    rw [size] at less
    rw [found] at same ⊢
    rw [decimal_distance finite, decimal_distance finite, size, div_le_div_iff_of_pos_right one_pos]
    exact nearest_value positive coarsest
      (fits.around_of_roundsTo positive (room_of_lt fits small place less) reads) same

end Joinery.Number
