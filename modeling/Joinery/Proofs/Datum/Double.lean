import Joinery.Datum.Measure
import Joinery.Proofs.Number.Monotone
import Joinery.Proofs.Outcome

/-!
Numbers as a reader takes them. A record may hold whole numbers of any size, and whoever reads it
makes doubles of them. A double that is read for a number has the size of that number as far as any
calculation can see, and bounds that are in order stay in order.
-/
namespace Joinery.Numeral
open Number

def HasDouble (n : Numeral) : Prop := ∃ x, n.toFloat = .ok x

def asDouble (n : Numeral) : Numeral :=
  match n.toFloat with
  | .ok x => .real x
  | .error _ => n

theorem asDouble_of_read {n : Numeral} {x : Float} (read : n.toFloat = .ok x) :
    n.asDouble = .real x := by
  rw [asDouble, read]

theorem asDouble_toFloat (n : Numeral) : n.asDouble.toFloat = n.toFloat := by
  unfold asDouble
  split
  · rename_i x read
    rw [read]
    rfl
  · rfl

theorem nearest_of_toFloat {z : Int} {x : Float} (read : (Numeral.whole z).toFloat = .ok x) :
    x = nearest z 0 ∧ (nearest z 0).isFinite = true := by
  simp only [toFloat, ofInt?] at read
  split at read
  · rename_i y held
    split at held
    · obtain rfl := Except.ok.inj read
      exact ⟨(Option.some.inj held).symm, by assumption⟩
    · cases held
  · cases read

/-! What lies between a double and a whole number lies between the double and that of the whole
number, because the double itself is rounded to itself. -/

theorem nearest_own {x : Float} (finite : x.isFinite = true) :
    (nearest (units x) (-1074)).isFinite = true ∧ units (nearest (units x) (-1074)) = units x :=
  nearest_exact finite (by decide) (Int.mul_one _)

theorem units_le_nearest {x : Float} {z : Int} (finite : x.isFinite = true)
    (held : (nearest z 0).isFinite = true) (le : units x ≤ z * unitsPerOne) :
    units x ≤ units (nearest z 0) := by
  obtain ⟨again, same⟩ := nearest_own finite
  have le' : units x * 2 ^ (-1074 + 1074 : Int).toNat ≤ z * unitsPerOne := by
    rwa [show units x * 2 ^ (-1074 + 1074 : Int).toNat = units x from Int.mul_one _]
  rw [← same]
  exact units_nearest_le (by decide) (by decide) again held le'

theorem nearest_le_units {x : Float} {z : Int} (finite : x.isFinite = true)
    (held : (nearest z 0).isFinite = true) (le : z * unitsPerOne ≤ units x) :
    units (nearest z 0) ≤ units x := by
  obtain ⟨again, same⟩ := nearest_own finite
  have le' : z * unitsPerOne ≤ units x * 2 ^ (-1074 + 1074 : Int).toNat := by
    rwa [show units x * 2 ^ (-1074 + 1074 : Int).toNat = units x from Int.mul_one _]
  rw [← same]
  exact units_nearest_le (by decide) (by decide) held again le'

theorem below_asDouble {a b : Numeral} (first : a.HasDouble) (second : b.HasDouble)
    (ordered : a.below b = false) : a.asDouble.below b.asDouble = false := by
  obtain ⟨x, readX⟩ := first
  obtain ⟨y, readY⟩ := second
  rw [asDouble_of_read readX, asDouble_of_read readY]
  apply decide_eq_false
  intro less
  cases a with
  | whole z =>
    obtain ⟨rfl, heldZ⟩ := nearest_of_toFloat readX
    cases b with
    | whole w =>
      obtain ⟨rfl, heldW⟩ := nearest_of_toFloat readY
      have le : w * unitsPerOne ≤ z * unitsPerOne :=
        Int.mul_le_mul_of_nonneg_right (Int.not_lt.mp (of_decide_eq_false ordered)) (by decide)
      have rounded := units_nearest_le (by decide) (by decide) heldW heldZ le
      have := units_lt_of_lt heldZ heldW less
      omega
    | real y =>
      obtain rfl := Except.ok.inj readY
      cases finite : y.isFinite with
      | true =>
        simp only [below, finite, ↓reduceIte, decide_eq_false_iff_not] at ordered
        have rounded := units_le_nearest finite heldZ (Int.not_lt.mp ordered)
        have := units_lt_of_lt heldZ finite less
        omega
      | false =>
        simp only [below, finite] at ordered
        exact not_lt_of_unbounded_right finite ordered less
  | real x =>
    obtain rfl := Except.ok.inj readX
    cases b with
    | whole w =>
      obtain ⟨rfl, heldW⟩ := nearest_of_toFloat readY
      cases finite : x.isFinite with
      | true =>
        simp only [below, finite, ↓reduceIte, decide_eq_false_iff_not] at ordered
        have rounded := nearest_le_units finite heldW (Int.not_lt.mp ordered)
        have := units_lt_of_lt finite heldW less
        omega
      | false =>
        simp only [below, finite] at ordered
        exact not_lt_of_unbounded_left finite ordered less
    | real y =>
      obtain rfl := Except.ok.inj readY
      exact of_decide_eq_false ordered less

end Joinery.Numeral
