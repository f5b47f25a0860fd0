import Joinery.Proofs.Number.Equality
import Joinery.Proofs.Number.Units

/-!
The order of doubles. A double that is less than another one holds fewer units.
-/
namespace Joinery.Number
open Float.Model
open Float.Model.UnpackedFloat (Sign)

theorem shape_of_finite {x : Float} (finite : x.isFinite = true) :
    (∃ s, x.toModel.unpack = .zero s) ∨
      ∃ s m e, ∃ positive : 0 < m, x.toModel.unpack = .finite s m e positive := by
  change x.toModel.unpack.isFinite = true at finite
  cases shape : x.toModel.unpack with
  | zero s => exact Or.inl ⟨s, rfl⟩
  | finite s m e positive => exact Or.inr ⟨s, m, e, positive, rfl⟩
  | infinity s =>
    rw [shape] at finite
    cases finite
  | notANumber =>
    rw [shape] at finite
    cases finite

/-- Of two sizes the one with the lower exponent is smaller, because the other one fills its places. -/
theorem units_lt_of_then {m n : Nat} {e k : Int} (first : Fits m e) (second : Fits n k)
    (less : (compare e k).then (compare m n) = .lt) :
    m * 2 ^ (e + 1074).toNat < n * 2 ^ (k + 1074).toNat := by
  have leastE := first.least
  have leastK := second.least
  rcases Ordering.then_eq_lt.mp less with lower | ⟨level, smaller⟩
  · have below : e < k := Int.compare_eq_lt.mp lower
    have filled : 2 ^ 52 ≤ n := second.full.resolve_right (by omega)
    calc
      m * 2 ^ (e + 1074).toNat < 2 ^ 53 * 2 ^ (e + 1074).toNat :=
        Nat.mul_lt_mul_of_pos_right first.small (Nat.two_pow_pos _)
      _ = 2 ^ (53 + (e + 1074).toNat) := (Nat.pow_add ..).symm
      _ ≤ 2 ^ (52 + (k + 1074).toNat) := Nat.pow_le_pow_right (by decide) (by omega)
      _ = 2 ^ 52 * 2 ^ (k + 1074).toNat := Nat.pow_add ..
      _ ≤ n * 2 ^ (k + 1074).toNat := Nat.mul_le_mul_right _ filled
  · obtain rfl : e = k := Int.compare_eq_eq.mp level
    have fewer : m < n := Nat.compare_eq_lt.mp smaller
    exact Nat.mul_lt_mul_of_pos_right fewer (Nat.two_pow_pos _)

theorem units_lt_of_lt {x y : Float} (finiteX : x.isFinite = true) (finiteY : y.isFinite = true)
    (less : x < y) : units x < units y := by
  have order : x.toModel.unpack.compare y.toModel.unpack = some .lt :=
    eq_of_beq ((lt_iff x y).mp less)
  rcases shape_of_finite finiteX with ⟨s, shapeX⟩ | ⟨s, m, e, positive, shapeX⟩
  · rcases shape_of_finite finiteY with ⟨t, shapeY⟩ | ⟨t, n, k, other, shapeY⟩
    · rw [shapeX, shapeY] at order
      cases order
    · have some : 0 < n * 2 ^ (k + 1074).toNat := Nat.mul_pos other (Nat.two_pow_pos _)
      rw [shapeX, shapeY] at order
      rw [units_of_zero shapeX, units_of_finite shapeY]
      cases t with
      | positive => exact Int.natCast_pos.mpr some
      | negative => cases order
  · have some : 0 < m * 2 ^ (e + 1074).toNat := Nat.mul_pos positive (Nat.two_pow_pos _)
    rcases shape_of_finite finiteY with ⟨t, shapeY⟩ | ⟨t, n, k, other, shapeY⟩
    · rw [shapeX, shapeY] at order
      rw [units_of_finite shapeX, units_of_zero shapeY]
      cases s with
      | positive => cases order
      | negative => exact Int.neg_neg_of_pos (Int.natCast_pos.mpr some)
    · have fits := fits_of_unpack shapeX
      have otherFits := fits_of_unpack shapeY
      rw [shapeX, shapeY] at order
      rw [units_of_finite shapeX, units_of_finite shapeY]
      cases s <;> cases t
      case positive.positive =>
        exact Int.ofNat_lt.mpr (units_lt_of_then fits otherFits (Option.some.inj order))
      case positive.negative => cases order
      case negative.positive =>
        have below := Int.neg_neg_of_pos (Int.natCast_pos.mpr some)
        exact Int.lt_of_lt_of_le below (Int.natCast_nonneg _)
      case negative.negative =>
        -- below zero the larger size is the lesser number
        have swapped := Option.some.inj order
        rw [Ordering.swap_then, Int.compare_swap, Nat.compare_swap] at swapped
        exact Int.neg_lt_neg (Int.ofNat_lt.mpr (units_lt_of_then otherFits fits swapped))

theorem Alike.units_eq {x y : Float} (alike : Alike x y) : units x = units y := by
  unfold Alike at alike
  unfold units
  generalize x.toModel.unpack = f at *
  generalize y.toModel.unpack = g at *
  cases alike <;> rfl

theorem le_iff (x y : Float) : x ≤ y ↔ x.toModel.unpack.le y.toModel.unpack = true := by
  change decide (x.toModel ≤ y.toModel) = true ↔ _
  rw [decide_eq_true_iff]
  rfl

theorem units_le_of_le {x y : Float} (finiteX : x.isFinite = true) (finiteY : y.isFinite = true)
    (le : x ≤ y) : units x ≤ units y := by
  rw [le_iff, UnpackedFloat.le] at le
  cases compared : x.toModel.unpack.compare y.toModel.unpack with
  | none =>
    rw [compared] at le
    cases le
  | some order =>
    cases order with
    | lt =>
      have less : x < y := (lt_iff x y).mpr (beq_of_eq compared)
      exact Int.le_of_lt (units_lt_of_lt finiteX finiteY less)
    | eq => exact Int.le_of_eq (Alike.units_eq (matches_of_compare compared))
    | gt =>
      rw [compared] at le
      cases le

/-! Any two doubles that are numbers compare, and finite ones as what they hold. -/

theorem compare_swap (f g : UnpackedFloat) : g.compare f = (f.compare g).map Ordering.swap := by
  cases f with
  | notANumber => cases g <;> rfl
  | infinity s =>
    cases g with
    | infinity t => cases s <;> cases t <;> rfl
    | _ => cases s <;> rfl
  | zero s =>
    cases g with
    | infinity t | finite t n k positive => cases t <;> rfl
    | _ => rfl
  | finite s m e positive =>
    cases g with
    | notANumber => rfl
    | infinity t => cases t <;> cases s <;> rfl
    | zero t => cases s <;> rfl
    | finite t n k other =>
      have swapped : (compare k e).then (compare n m) = ((compare e k).then (compare m n)).swap := by
        rw [Ordering.swap_then, Int.compare_swap, Nat.compare_swap]
      cases s <;> cases t <;> simp [UnpackedFloat.compare, swapped]

theorem compare_isSome {f g : UnpackedFloat} (first : f.isNaN = false) (second : g.isNaN = false) :
    (f.compare g).isSome = true := by
  cases f with
  | notANumber => cases first
  | infinity s | zero s | finite s m e positive =>
    cases g with
    | notANumber => cases second
    | infinity t | zero t | finite t n k other => cases s <;> cases t <;> rfl

theorem le_of_not_lt {x y : Float} (numberX : x.isNaN = false) (numberY : y.isNaN = false)
    (notLess : ¬ y < x) : x ≤ y := by
  obtain ⟨order, compared⟩ := Option.isSome_iff_exists.mp (compare_isSome numberX numberY)
  rw [lt_iff, UnpackedFloat.lt, compare_swap, compared] at notLess
  rw [le_iff, UnpackedFloat.le, compared]
  cases order with
  | gt => exact absurd rfl notLess
  | lt | eq => rfl

theorem lt_of_units_lt {x y : Float} (finiteX : x.isFinite = true) (finiteY : y.isFinite = true)
    (less : units x < units y) : x < y := by
  by_contra notLess
  have le := le_of_not_lt (number_of_finite finiteY) (number_of_finite finiteX) notLess
  exact Int.not_lt.mpr (units_le_of_le finiteY finiteX le) less

theorem lt_iff_units {x y : Float} (finiteX : x.isFinite = true) (finiteY : y.isFinite = true) :
    x < y ↔ units x < units y := ⟨units_lt_of_lt finiteX finiteY, lt_of_units_lt finiteX finiteY⟩

theorem le_iff_units {x y : Float} (finiteX : x.isFinite = true) (finiteY : y.isFinite = true) :
    x ≤ y ↔ units x ≤ units y := by
  refine ⟨units_le_of_le finiteX finiteY, fun le => ?_⟩
  refine le_of_not_lt (number_of_finite finiteX) (number_of_finite finiteY) fun less => ?_
  exact Int.not_lt.mpr le (units_lt_of_lt finiteY finiteX less)

/-! Of what is not finite only the one infinity is above all finite doubles, and only the other one
below them. -/

theorem shape_of_unbounded {x : Float} (unbounded : x.isFinite = false) :
    (∃ s, x.toModel.unpack = .infinity s) ∨ x.toModel.unpack = .notANumber := by
  change x.toModel.unpack.isFinite = false at unbounded
  cases shape : x.toModel.unpack with
  | infinity s => exact Or.inl ⟨s, rfl⟩
  | notANumber => exact Or.inr rfl
  | zero s =>
    rw [shape] at unbounded
    cases unbounded
  | finite s m e positive =>
    rw [shape] at unbounded
    cases unbounded

theorem not_lt_of_lowest {x y : Float}
    (shape : y.toModel.unpack = .infinity .negative ∨ y.toModel.unpack = .notANumber) :
    ¬ x < y := by
  rw [lt_iff]
  generalize x.toModel.unpack = other
  rcases shape with lowest | noNumber
  · rw [lowest]
    cases other with
    | infinity s => cases s <;> exact Bool.false_ne_true
    | _ => exact Bool.false_ne_true
  · rw [noNumber]
    cases other <;> exact Bool.false_ne_true

theorem not_lt_of_highest {x y : Float}
    (shape : x.toModel.unpack = .infinity .positive ∨ x.toModel.unpack = .notANumber) :
    ¬ x < y := by
  rw [lt_iff]
  generalize y.toModel.unpack = other
  rcases shape with highest | noNumber
  · rw [highest]
    cases other with
    | infinity s => cases s <;> exact Bool.false_ne_true
    | _ => exact Bool.false_ne_true
  · rw [noNumber]
    exact Bool.false_ne_true

theorem not_lt_of_unbounded_right {x y : Float} (unbounded : y.isFinite = false)
    (notAbove : (y.isInf && 0 < y) = false) : ¬ x < y := by
  apply not_lt_of_lowest
  rcases shape_of_unbounded unbounded with ⟨s, shape⟩ | noNumber
  · cases s with
    | negative => exact Or.inl shape
    | positive =>
      have zero : (0 : Float).toModel.unpack = .zero .positive := by rfl
      change (y.toModel.unpack.isInf && decide (0 < y)) = false at notAbove
      have above : 0 < y := by
        rw [lt_iff, zero, shape]
        rfl
      rw [shape, decide_eq_true above] at notAbove
      cases notAbove
  · exact Or.inr noNumber

theorem not_lt_of_unbounded_left {x y : Float} (unbounded : x.isFinite = false)
    (notBelow : (x.isInf && x < 0) = false) : ¬ x < y := by
  apply not_lt_of_highest
  rcases shape_of_unbounded unbounded with ⟨s, shape⟩ | noNumber
  · cases s with
    | positive => exact Or.inl shape
    | negative =>
      have zero : (0 : Float).toModel.unpack = .zero .positive := by rfl
      change (x.toModel.unpack.isInf && decide (x < 0)) = false at notBelow
      have below : x < 0 := by
        rw [lt_iff, zero, shape]
        rfl
      rw [shape, decide_eq_true below] at notBelow
      cases notBelow
  · exact Or.inr noNumber

end Joinery.Number
