import Joinery.Proofs.Datum.Measure
import Joinery.Proofs.Number.Basin
import Joinery.Proofs.Number.Read

/-!
Rounding to hundredths is correct. The decimal written for a double is rounded to the nearest hundredth,
halves away from zero, and the answer is the double that this hundredth is read as. In the range where
hundredths can be held, rounding twice is rounding once, and rounding keeps the order and the sign.
-/
namespace Joinery.Number

/-- The nearest whole number, and from the middle between two the one farther from zero. -/
structure RoundsHalfAway (q : ℚ) (n : ℤ) : Prop where
  near : |q - n| ≤ 1 / 2
  away : |q - n| = 1 / 2 → |q| < |(n : ℚ)|

namespace RoundsHalfAway
variable {q : ℚ} {m n : ℤ}

theorem neg (rounds : RoundsHalfAway q n) : RoundsHalfAway (-q) (-n) := by
  have mirrored : |-q - ((-n : ℤ) : ℚ)| = |q - n| := by
    rw [Int.cast_neg, ← abs_neg]
    congr 1
    ring
  constructor
  · rw [mirrored]
    exact rounds.near
  · rw [mirrored, abs_neg, Int.cast_neg, abs_neg]
    exact rounds.away

theorem not_lt (first : RoundsHalfAway q m) (second : RoundsHalfAway q n) : ¬ m < n := by
  intro less
  have step : (m : ℚ) + 1 ≤ n := by exact_mod_cast less
  obtain ⟨-, low⟩ := abs_le.mp first.near
  obtain ⟨high, -⟩ := abs_le.mp second.near
  -- the two are a step apart and the number lies halfway between them, nearer to zero than either
  have half : q - m = 1 / 2 := by linarith
  have below := first.away (by rw [half]; norm_num)
  have above := second.away (by rw [show q - n = -(1 / 2) by linarith]; norm_num)
  rcases lt_or_ge m 0 with negative | natural
  · have under : (m : ℚ) + 1 ≤ 0 := by exact_mod_cast negative
    rw [abs_of_nonpos (by linarith : q ≤ 0), abs_of_nonpos (by linarith : (n : ℚ) ≤ 0)] at above
    linarith
  · have atLeast : (0 : ℚ) ≤ m := by exact_mod_cast natural
    rw [abs_of_nonneg (by linarith : 0 ≤ q), abs_of_nonneg atLeast] at below
    linarith

theorem unique (first : RoundsHalfAway q m) (second : RoundsHalfAway q n) : m = n :=
  Int.le_antisymm (Int.not_lt.mp (second.not_lt first)) (Int.not_lt.mp (first.not_lt second))

end RoundsHalfAway

namespace Decimal
variable {c d : Decimal}

theorem hundredths_exact (few : -2 ≤ d.exponent) : (d.hundredths : ℚ) = 100 * d.value := by
  have hundred : (100 : ℚ) = 10 ^ (2 : Int) := by norm_num
  obtain ⟨j, place⟩ : ∃ j : Nat, d.exponent + 2 = j := ⟨(d.exponent + 2).toNat, by omega⟩
  rw [hundredths, if_pos (by omega), value, place, Int.toNat_natCast, mul_left_comm, hundred,
    ← zpow_add₀ (by norm_num), add_comm, place, zpow_natCast]
  push_cast
  rfl

theorem hundredths_bounds (d : Decimal) :
    2 * (d.hundredths : ℚ) ≤ 200 * d.value + 1 ∧ 200 * d.value + 1 < 2 * d.hundredths + 2 := by
  by_cases few : -2 ≤ d.exponent
  · rw [hundredths_exact few]
    constructor <;> linarith
  · obtain ⟨j, place⟩ : ∃ j : Nat, d.exponent = -2 - j :=
      ⟨(-(d.exponent + 2)).toNat, by omega⟩
    have tens : (0 : ℚ) < 10 ^ j := by positivity
    have hundredth : (10 : ℚ) ^ (-2 : Int) = 1 / 100 := by norm_num
    have whole : (d.digits : ℚ) = 100 * d.value * 10 ^ j := by
      have step : (10 : ℚ) ^ d.exponent * (100 * 10 ^ j) = 1 := by
        rw [place, zpow_sub₀ (by norm_num), zpow_natCast, hundredth]
        field_simp
      rw [value]
      linear_combination -(d.digits : ℚ) * step
    have rounded : d.hundredths = (2 * d.digits + 10 ^ j) / (2 * 10 ^ j) := by
      rw [hundredths, if_neg (by omega), roundHalfUp, place,
        show (-(-2 - j + 2 : Int)).toNat = j by omega]
    have low := Nat.div_mul_le_self (2 * d.digits + 10 ^ j) (2 * 10 ^ j)
    have high := Nat.lt_div_mul_add (a := 2 * d.digits + 10 ^ j) (b := 2 * 10 ^ j) (by positivity)
    rw [← rounded] at low high
    rw [← @Nat.cast_le ℚ] at low
    rw [← @Nat.cast_lt ℚ] at high
    push_cast [whole] at low high
    constructor
    · refine le_of_mul_le_mul_right ?_ tens
      linarith
    · refine lt_of_mul_lt_mul_right ?_ tens.le
      linarith

theorem roundsHalfAway (d : Decimal) : RoundsHalfAway (100 * d.value) d.hundredths := by
  obtain ⟨low, high⟩ := d.hundredths_bounds
  have natural : (0 : ℚ) ≤ d.hundredths := Nat.cast_nonneg _
  have value := d.value_nonneg
  rw [← Int.cast_natCast] at low high natural
  generalize (d.hundredths : ℤ) = n at *
  constructor
  · rw [abs_le]
    constructor <;> linarith
  · intro half
    rw [abs_of_nonneg (by linarith : 0 ≤ 100 * d.value), abs_of_nonneg natural]
    rcases abs_eq (by norm_num : (0 : ℚ) ≤ 1 / 2) |>.mp half with above | below <;> linarith

theorem hundredths_mono (le : c.value ≤ d.value) : c.hundredths ≤ d.hundredths := by
  have low := c.hundredths_bounds.1
  have high := d.hundredths_bounds.2
  have less : (c.hundredths : ℚ) < (d.hundredths + 1 : Nat) := by
    push_cast
    linarith
  exact Nat.lt_succ_iff.mp (Nat.cast_lt.mp less)

end Decimal

open Float.Model
open Float.Model.UnpackedFloat (Sign)

def written (x : Float) : ℚ := if x < 0 then -(shortest x).value else (shortest x).value

theorem abs_written (x : Float) : |written x| = (shortest x).value := by
  have size := abs_of_nonneg (shortest x).value_nonneg
  unfold written
  split
  · rw [abs_neg, size]
  · exact size

theorem written_readAs {x : Float} (finite : x.isFinite = true) : ReadAs (written x) x := by
  apply readAs_of_roundsTo finite
  · rw [abs_written]
    exact shortest_roundsTo finite
  · have value := (shortest x).value_nonneg
    unfold written
    split
    · rename_i below
      have negative : (units x : ℚ) ≤ 0 := Int.cast_nonpos.mpr ((lt_zero_iff finite).mp below).le
      exact mul_nonneg_of_nonpos_of_nonpos (neg_nonpos.mpr value) negative
    · rename_i natural
      have above : (0 : ℚ) ≤ units x :=
        Int.cast_nonneg (Int.not_lt.mp ((lt_zero_iff finite).not.mp natural))
      exact mul_nonneg value above

/-! Rounded hundredths are read as the double that they are rounded to. -/

theorem natAbs_roundedCents (x : Float) : (roundedCents x).natAbs = heldHundredths x := by
  rw [roundedCents]
  split <;> omega

theorem HoldsCents.units_eq {n : Int} {x : Float} (holds : HoldsCents n x) :
    units x = if n < 0 then -(centUnits n.natAbs : Int) else centUnits n.natAbs := by
  cases holds with
  | above finite same => rw [same, if_neg (by omega), Int.natAbs_natCast]
  | @below k _ finite same =>
    rw [same, Int.natAbs_neg, Int.natAbs_natCast]
    split
    · rfl
    · obtain rfl : k = 0 := by omega
      rw [centUnits_zero]
      rfl

theorem HoldsCents.natAbs_units {n : Int} {x : Float} (holds : HoldsCents n x) :
    (units x).natAbs = centUnits n.natAbs := by
  rw [holds.units_eq]
  split <;> omega

theorem HoldsCents.readAs {n : Int} {x : Float} (holds : HoldsCents n x)
    (held : n.natAbs < hundredthsLimit) : ReadAs (n / 100) x := by
  have rounds := roundsTo_centUnits held
  rw [Nat.cast_natAbs, Int.cast_abs, mul_div_right_comm, ← holds.natAbs_units] at rounds
  apply readAs_of_roundsTo holds.isFinite
  · rwa [abs_div, abs_of_pos (by norm_num : (0 : ℚ) < 100)]
  · have size : (0 : ℚ) ≤ centUnits n.natAbs := Nat.cast_nonneg _
    rw [holds.units_eq]
    split
    · rename_i below
      have negative : (n : ℚ) / 100 ≤ 0 :=
        div_nonpos_of_nonpos_of_nonneg (Int.cast_nonpos.mpr below.le) (by norm_num)
      rw [Int.cast_neg, Int.cast_natCast]
      exact mul_nonneg_of_nonpos_of_nonpos negative (neg_nonpos.mpr size)
    · rename_i natural
      have above : (0 : ℚ) ≤ n / 100 :=
        div_nonneg (Int.cast_nonneg (Int.not_lt.mp natural)) (by norm_num)
      rw [Int.cast_natCast]
      exact mul_nonneg above size

theorem rounded_readAs (x : Float) : ReadAs (roundedCents x / 100) (roundHundredths x) := by
  refine (holds_roundHundredths x).readAs ?_
  rw [natAbs_roundedCents]
  exact heldHundredths_lt x

theorem eq_zero_of_beq {x : Float} (zero : (roundHundredths x == 0) = true) :
    roundHundredths x = 0 := by
  have cents := (holds_roundHundredths x).beq_zero_iff.mp zero
  have none : heldHundredths x = 0 := by rw [← natAbs_roundedCents, cents, Int.natAbs_zero]
  rw [roundHundredths, none]
  simp only [ne_eq, not_true_eq_false, decide_false, Bool.and_false, Bool.false_eq_true, if_false]
  decide +kernel

/-! The order of rounded doubles. -/

theorem centUnits_mono {m n : Nat} (le : m ≤ n) (held : n < hundredthsLimit) :
    centUnits m ≤ centUnits n := by
  have scaled : (m : ℚ) * unitsPerOne ≤ n * unitsPerOne :=
    mul_le_mul_of_nonneg_right (Nat.cast_le.mpr le) one_pos.le
  exact (roundsTo_centUnits (Nat.lt_of_le_of_lt le held)).mono (roundsTo_centUnits held)
    (div_le_div_of_nonneg_right scaled (by norm_num))

theorem shortest_hundredths_mono {x y : Float} (finite : x.isFinite = true)
    (finiteToo : y.isFinite = true) (le : (units x).natAbs ≤ (units y).natAbs) :
    (shortest x).hundredths ≤ (shortest y).hundredths := by
  apply Decimal.hundredths_mono
  by_contra less
  have scaled : (shortest y).value * unitsPerOne ≤ (shortest x).value * unitsPerOne :=
    mul_le_mul_of_nonneg_right (not_le.mp less).le one_pos.le
  have ge := (shortest_roundsTo finiteToo).mono (shortest_roundsTo finite) scaled
  rw [shortest_congr finite finiteToo (Nat.le_antisymm le ge)] at less
  exact less (le_refl _)

/-- A finite double whose hundredths can be held. -/
structure InRange (x : Float) : Prop where
  finite : x.isFinite = true
  small : (units x).natAbs < 5820766091346741 * 2 ^ 1108

theorem inRange_of_lt {x : Float} (finite : x.isFinite = true) (small : |exactValue x| < 10 ^ 26) :
    InRange x := by
  refine ⟨finite, ?_⟩
  have size : (units x).natAbs < 10 ^ 26 * 2 ^ 1074 := by
    rw [← natAbs_unitsPerOne, ← abs_exactValue_lt_iff]
    exact_mod_cast small
  have wide {k l : Nat} (places : l = 34 + k) : 10 ^ 26 * 2 ^ k ≤ 5820766091346741 * 2 ^ l := by
    rw [places, Nat.pow_add, ← Nat.mul_assoc]
    exact Nat.mul_le_mul_right _ (by decide)
  exact Nat.lt_of_lt_of_le size (@wide 1074 1108 rfl)

namespace InRange
variable {x y : Float} (inRange : InRange x)
include inRange

theorem hundredths_lt : (shortest x).hundredths < hundredthsLimit := by
  have le := (leastUnheld_threshold.hundredths_le_iff inRange.finite).mpr inRange.small
  have some : 0 < hundredthsLimit := by decide
  omega

theorem held_eq : heldHundredths x = (shortest x).hundredths := if_pos inRange.hundredths_lt

theorem rounds_written : RoundsHalfAway (100 * written x) (roundedCents x) := by
  have rounds := (shortest x).roundsHalfAway
  rw [roundedCents, inRange.held_eq, written]
  split
  · rw [mul_neg]
    exact rounds.neg
  · exact rounds

theorem held_mono (other : InRange y) (le : (units x).natAbs ≤ (units y).natAbs) :
    heldHundredths x ≤ heldHundredths y := by
  rw [inRange.held_eq, other.held_eq]
  exact shortest_hundredths_mono inRange.finite other.finite le

theorem roundedCents_mono (other : InRange y) (le : x ≤ y) : roundedCents x ≤ roundedCents y := by
  have order := units_le_of_le inRange.finite other.finite le
  rw [roundedCents, roundedCents]
  by_cases below : x < 0
  · have negative := (lt_zero_iff inRange.finite).mp below
    rw [if_pos below]
    split
    · rename_i belowToo
      have negativeToo := (lt_zero_iff other.finite).mp belowToo
      have held := other.held_mono inRange (by omega)
      omega
    · omega
  · have natural := (lt_zero_iff inRange.finite).not.mp below
    have naturalToo : ¬ y < 0 := (lt_zero_iff other.finite).not.mpr (by omega)
    have held := inRange.held_mono other (by omega)
    rw [if_neg below, if_neg naturalToo]
    omega

end InRange

theorem HoldsCents.units_mono {m n : Int} {x y : Float} (first : HoldsCents m x)
    (second : HoldsCents n y) (le : m ≤ n) (least : m.natAbs < hundredthsLimit)
    (most : n.natAbs < hundredthsLimit) : units x ≤ units y := by
  rw [first.units_eq, second.units_eq]
  split
  · split
    · have sizes := centUnits_mono (by omega : n.natAbs ≤ m.natAbs) least
      omega
    · omega
  · rw [if_neg (by omega)]
    have sizes := centUnits_mono (by omega : m.natAbs ≤ n.natAbs) most
    omega

theorem roundHundredths_mono {x y : Float} (inRange : InRange x) (other : InRange y) (le : x ≤ y) :
    roundHundredths x ≤ roundHundredths y := by
  have first := holds_roundHundredths x
  have second := holds_roundHundredths y
  refine (le_iff_units first.isFinite second.isFinite).mpr
    (first.units_mono second (inRange.roundedCents_mono other le) ?_ ?_)
  · rw [natAbs_roundedCents]
    exact heldHundredths_lt x
  · rw [natAbs_roundedCents]
    exact heldHundredths_lt y

theorem units_roundHundredths (x : Float) : units (roundHundredths x) =
    if x < 0 then -(centUnits (heldHundredths x) : Int) else centUnits (heldHundredths x) := by
  rw [(holds_roundHundredths x).units_eq, natAbs_roundedCents, roundedCents]
  split
  · rcases Nat.eq_zero_or_pos (heldHundredths x) with none | some
    · rw [none, centUnits_zero]
      rfl
    · rw [if_pos (by omega)]
  · rw [if_neg (by omega)]

theorem roundHundredths_neg {x : Float} (finite : x.isFinite = true) :
    (roundHundredths (-x) == -roundHundredths x) = true := by
  obtain ⟨finiteToo, opposite⟩ := neg_finite finite
  obtain ⟨finiteNeg, mirrored⟩ := neg_finite (holds_roundHundredths x).isFinite
  have held : heldHundredths (-x) = heldHundredths x := by
    have same := shortest_congr finiteToo finite (by rw [opposite, Int.natAbs_neg])
    rw [heldHundredths, heldHundredths, same]
  refine (beq_iff_units (holds_roundHundredths (-x)).isFinite finiteNeg).mpr ?_
  rw [mirrored, units_roundHundredths, units_roundHundredths, held]
  have negative := lt_zero_iff finite
  have positive := lt_zero_iff finiteToo
  rw [opposite] at positive
  rcases Int.lt_trichotomy (units x) 0 with below | none | above
  · rw [if_neg (positive.not.mpr (by omega)), if_pos (negative.mpr below), Int.neg_neg]
  · have nothing : heldHundredths x = 0 := by
      rw [heldHundredths, shortest_of_none finite none]
      rfl
    rw [nothing, centUnits_zero]
    split <;> split <;> rfl
  · rw [if_pos (positive.mpr (by omega)), if_neg (negative.not.mpr (by omega))]

/-! Rounding what is rounded. -/

/-- The double next to the first one with too many hundredths to be held. -/
def lastHeld : Float := 9.999999999999999e25

theorem lastHeld_inRange : InRange lastHeld := ⟨by decide +kernel, by decide +kernel⟩

theorem lastHeld_value : (units lastHeld).natAbs = (5820766091346741 - 1) * 2 ^ 1108 := by
  decide +kernel

theorem lastHeld_rounded : centUnits (heldHundredths lastHeld) < 5820766091346741 * 2 ^ 1108 := by
  decide +kernel

namespace InRange
variable {x : Float} (inRange : InRange x)
include inRange

theorem rounded : InRange (roundHundredths x) := by
  have holds := holds_roundHundredths x
  refine ⟨holds.isFinite, ?_⟩
  have below : (units x).natAbs ≤ (units lastHeld).natAbs := by
    rw [lastHeld_value]
    exact @Held.le_below _ 5820766091346741 1108 (held_units inRange.finite)
      leastUnheld_threshold.full inRange.small
  rw [holds.natAbs_units, natAbs_roundedCents]
  exact Nat.lt_of_le_of_lt (centUnits_mono (inRange.held_mono lastHeld_inRange below)
    (heldHundredths_lt lastHeld)) lastHeld_rounded

theorem centUnits_held {n : Nat} (few : n < hundredthsLimit) (size : (units x).natAbs = centUnits n) :
    centUnits (heldHundredths x) = centUnits n := by
  have rounds := roundsTo_centUnits few
  rw [← size] at rounds ⊢
  refine (roundsTo_centUnits (heldHundredths_lt x)).unique ?_
  rw [inRange.held_eq]
  by_cases none : units x = 0
  · rw [shortest_of_none inRange.finite none, none, show (Decimal.mk 0 0).hundredths = 0 from rfl,
      Int.natAbs_zero, Nat.cast_zero, zero_mul, zero_div]
    exact roundsTo_zero
  · obtain ⟨m, e, d, p, positive, fits, same, found, coarsest⟩ :=
      shortest_of_some inRange.finite none
    have hundredth : (Decimal.mk n (-2)).value * unitsPerOne = n * unitsPerOne / 100 := by
      rw [Decimal.value, show (10 : ℚ) ^ (-2 : Int) = 1 / 100 by norm_num, mul_one_div,
        div_mul_eq_mul_div]
    have small := inRange.small
    rw [same] at rounds small
    have around := fits.around_of_roundsTo positive
      (room_of_lt fits (by decide) (by decide) small) rounds
    rw [← hundredth] at around
    have place : -2 ≤ (shortest x).exponent := by
      rw [found]
      exact exponent_le_place positive coarsest around
    rw [Decimal.hundredths_exact place, mul_assoc, mul_div_cancel_left₀ _ (by norm_num)]
    exact shortest_roundsTo inRange.finite

end InRange

theorem InRange.idempotent {x : Float} (inRange : InRange x) :
    roundHundredths (roundHundredths x) = roundHundredths x := by
  have holds := holds_roundHundredths x
  by_cases none : units (roundHundredths x) = 0
  · rw [eq_zero_of_beq ((beq_zero_iff holds.isFinite).mpr none)]
    decide +kernel
  · have size := holds.natAbs_units
    rw [natAbs_roundedCents] at size
    have same := inRange.rounded.centUnits_held (heldHundredths_lt x) size
    refine (eq_of_units holds.isFinite (holds_roundHundredths _).isFinite none ?_).symm
    have value := units_roundHundredths x
    have sign := lt_zero_iff holds.isFinite
    rw [units_roundHundredths (roundHundredths x), same]
    split
    · rename_i below
      have negative := sign.mp below
      split at value <;> omega
    · rename_i natural
      have above := sign.not.mp natural
      split at value <;> omega

/-- Rounding to hundredths is correct for every double of less than 10^26: it rounds the shortest
decimal of the double to the nearest hundredth, halves away from zero, and gives the double nearest to
that. It never gives the negative zero, changes nothing the second time, and keeps sign and order. -/
theorem hundredths_correct :
    ∀ x : Float, x.isFinite = true → |exactValue x| < 10 ^ 26 →
      (Datum.real x).hundredths = .ok (roundHundredths x) ∧
      (ReadAs (written x) x ∧ |written x| = (shortest x).value ∧ ShortestDecimal (shortest x) x) ∧
      (∃ n : ℤ, RoundsHalfAway (100 * written x) n ∧
        (∀ k, RoundsHalfAway (100 * written x) k → k = n) ∧
        ReadAs (n / 100) (roundHundredths x) ∧
        ∀ z, ReadAs (n / 100) z → (z == roundHundredths x) = true) ∧
      ((roundHundredths x == 0) = true → roundHundredths x = 0) ∧
      roundHundredths (roundHundredths x) = roundHundredths x ∧
      (roundHundredths (-x) == -roundHundredths x) = true ∧
      ∀ y : Float, y.isFinite = true → |exactValue y| < 10 ^ 26 → x ≤ y →
        roundHundredths x ≤ roundHundredths y := by
  intro x finite small
  have inRange := inRange_of_lt finite small
  refine ⟨?_, ⟨written_readAs finite, abs_written x, ?_⟩, ?_, eq_zero_of_beq, inRange.idempotent,
    roundHundredths_neg finite, ?_⟩
  · rw [Datum.hundredths, Datum.finite?_real finite]
    rfl
  · exact shortest_correct finite (by decide) (by decide) inRange.small
  · exact ⟨roundedCents x, inRange.rounds_written,
      fun k rounds => rounds.unique inRange.rounds_written, rounded_readAs x,
      fun z reads => reads.beq (rounded_readAs x)⟩
  · intro y finiteToo smallToo le
    exact roundHundredths_mono inRange (inRange_of_lt finiteToo smallToo) le

/-- The double 2.675 lies below the middle between two hundredths, but its decimal is the middle. -/
theorem half_hundredth_correct :
    (shortest 2.675 = ⟨2675, -3⟩ ∧ exactValue 2.675 < 2675 / 1000) ∧
    ((Datum.real 2.675).hundredths = .ok 2.68 ∧ ShortestDecimal ⟨2675, -3⟩ 2.675 ∧
      (∃ n : ℤ, RoundsHalfAway (100 * written 2.675) n ∧ ReadAs (n / 100) 2.68) ∧
      roundHundredths 2.68 = 2.68 ∧ (roundHundredths (-2.675) == -2.68) = true ∧
      2.68 ≤ roundHundredths 1e25) := by
  have decimal : shortest 2.675 = ⟨2675, -3⟩ := by decide +kernel
  have rounded : roundHundredths 2.675 = 2.68 := by decide +kernel
  have inside {x : Float} (few : (units x).natAbs < 10 ^ 26 * unitsPerOne.natAbs) :
      |exactValue x| < 10 ^ 26 := by
    exact_mod_cast abs_exactValue_lt_iff.mpr few
  have below : exactValue 2.675 < 2675 / 1000 := by
    have scaled : units 2.675 * 1000 < 2675 * unitsPerOne := by decide +kernel
    rw [exactValue, div_lt_div_iff₀ one_pos (by norm_num)]
    exact_mod_cast scaled
  obtain ⟨given, ⟨-, -, least⟩, ⟨n, half, -, reads, -⟩, -, again, odd, mono⟩ :=
    hundredths_correct 2.675 (by decide +kernel) (inside (by decide +kernel))
  rw [rounded] at given reads again odd mono
  rw [decimal] at least
  exact ⟨⟨decimal, below⟩, given, least, ⟨n, half, reads⟩, again, odd,
    mono 1e25 (by decide +kernel) (inside (by decide +kernel)) (by decide +kernel)⟩

end Joinery.Number
