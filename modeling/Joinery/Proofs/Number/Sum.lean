import Joinery.Estimate.Sum
import Joinery.Proofs.Number.Shortest

/-!
Sums of hundredths. A sum is rounded once, by less than a share of what is summed, and so are the
amounts that are summed. All of this together stays below a quarter of a hundredth, so that the rounded
sum is the sum of the rounded amounts.
-/
namespace Joinery.Number
open Float.Model
open Float.Model.UnpackedFloat (Sign decreaseExponent)

theorem sign_error {z : Int} (some : z ≠ 0) (n : Nat) :
    (z - z.sign * n).natAbs = ((z.natAbs : Int) - n).natAbs := by
  rcases Int.lt_or_gt_of_ne some with below | above
  · rw [Int.sign_eq_neg_one_of_neg below]
    omega
  · rw [Int.sign_eq_one_of_pos above]
    omega

/-- What is not too large is rounded to a double that differs by a small share of it. -/
theorem nearest_near {m e z : Int} (least : -1074 ≤ e) (same : m * 2 ^ (e + 1074).toNat = z)
    (most : z.natAbs ≤ 2 ^ 49 * unitsPerOne.natAbs) :
    (nearest m e).isFinite = true ∧ 2 ^ 53 * (z - units (nearest m e)).natAbs ≤ z.natAbs := by
  have size : m.natAbs * 2 ^ (e + 1074).toNat = z.natAbs := by
    rw [← same, Int.natAbs_mul, Int.natAbs_pow]
    rfl
  by_cases zero : m = 0
  · subst zero
    obtain rfl : z = 0 := by rw [← same, Int.zero_mul]
    have none : units 0 = 0 := units_of_zero (s := .positive) rfl
    obtain ⟨finite, exact⟩ := nearest_exact (x := 0) rfl least (same.trans none.symm)
    rw [exact, none]
    exact ⟨finite, Nat.le_refl 0⟩
  · have places {k : Nat} (one : unitsPerOne.natAbs = 2 ^ k) : z.natAbs.log2 ≤ 49 + k := by
      have le := log2_le_of_le most
      rwa [one, log2_times_power (by decide), Nat.log2_two_pow] at le
    have bits : m.natAbs.log2 + (e + 1074).toNat ≤ 49 + 1074 := by
      rw [← log2_times_power (by omega), size]
      exact places natAbs_unitsPerOne
    have finite : (nearest m e).isFinite = true := by
      apply nearest_isFinite
      unfold aim
      omega
    have sign : m.sign = z.sign := by
      rw [← same, Int.sign_mul, Int.sign_eq_one_of_pos (Int.pow_pos (by decide)), Int.mul_one]
    have some : z ≠ 0 := by
      rintro rfl
      exact zero (Int.sign_eq_zero_iff_zero.mp sign)
    refine ⟨finite, ?_⟩
    rw [units_nearest least finite, size, sign, sign_error some]
    have error := roundedUnits_error z.natAbs
    omega

theorem units_aligned (s : Sign) {m : Nat} {e k : Int} (least : -1074 ≤ k) (below : k ≤ e) :
    s.apply ((decreaseExponent m e k).1 : Int) * 2 ^ (k + 1074).toNat =
      s.apply ((m * 2 ^ (e + 1074).toNat : Nat) : Int) := by
  have places : (e + 1074).toNat = (e - k).toNat + (k + 1074).toNat := by omega
  simp only [decreaseExponent, Nat.shiftLeft_eq]
  rw [places, Nat.pow_add]
  cases s <;> simp [Sign.apply] <;> ring

theorem held_of_shape {x y : Float} (same : x.toModel.unpack = y.toModel.unpack) :
    x.isFinite = y.isFinite ∧ units x = units y := by
  refine ⟨?_, ?_⟩
  · change x.toModel.unpack.isFinite = y.toModel.unpack.isFinite
    rw [same]
  · unfold units
    rw [same]

theorem add_nearest {x y : Float} (finite : x.isFinite = true) (finiteToo : y.isFinite = true) :
    ∃ m e, -1074 ≤ e ∧ m * 2 ^ (e + 1074).toNat = units x + units y ∧
      (x + y).isFinite = (nearest m e).isFinite ∧ units (x + y) = units (nearest m e) := by
  have packed : (x + y).toModel.unpack =
      (Float.Model.pack (UnpackedFloat.add .binary64 x.toModel.unpack y.toModel.unpack)).unpack := rfl
  -- beside a zero the other amount is the sum, and is the nearest to itself
  have exact (held : (x + y).isFinite = true) (same : units (x + y) = units x + units y) :
      ∃ m e, -1074 ≤ e ∧ m * 2 ^ (e + 1074).toNat = units x + units y ∧
        (x + y).isFinite = (nearest m e).isFinite ∧ units (x + y) = units (nearest m e) := by
    have own := nearest_exact (m := units (x + y)) (e := -1074) held (by decide) (Int.mul_one _)
    exact ⟨_, -1074, by decide, (Int.mul_one _).trans same, held.trans own.1.symm, own.2.symm⟩
  rcases shape_of_finite finite with ⟨s, shape⟩ | ⟨s, m, e, positive, shape⟩
  · rcases shape_of_finite finiteToo with ⟨t, shapeToo⟩ | ⟨t, n, k, positiveToo, shapeToo⟩
    · have zero : ∃ r, (x + y).toModel.unpack = .zero r := by
        rw [packed, shape, shapeToo]
        cases s <;> cases t <;> exact ⟨_, rfl⟩
      obtain ⟨r, sum⟩ := zero
      refine exact ?_ ?_
      · change (x + y).toModel.unpack.isFinite = true
        rw [sum]
        rfl
      · rw [units_of_zero sum, units_of_zero shape, units_of_zero shapeToo]
        rfl
    · have sum : (x + y).toModel.unpack = y.toModel.unpack := by
        rw [packed, shape, shapeToo]
        exact unpack_pack_fits positiveToo (fits_of_unpack shapeToo)
      obtain ⟨same, equal⟩ := held_of_shape sum
      exact exact (same.trans finiteToo) (by rw [equal, units_of_zero shape, Int.zero_add])
  · rcases shape_of_finite finiteToo with ⟨t, shapeToo⟩ | ⟨t, n, k, positiveToo, shapeToo⟩
    · have sum : (x + y).toModel.unpack = x.toModel.unpack := by
        rw [packed, shape, shapeToo]
        exact unpack_pack_fits positive (fits_of_unpack shape)
      obtain ⟨same, equal⟩ := held_of_shape sum
      exact exact (same.trans finite) (by rw [equal, units_of_zero shapeToo, Int.add_zero])
    · have least : -1074 ≤ min e k :=
        Int.le_min.mpr ⟨(fits_of_unpack shape).least, (fits_of_unpack shapeToo).least⟩
      have sum : x + y = nearest (s.apply ((decreaseExponent m e (min e k)).1 : Int) +
          t.apply ((decreaseExponent n k (min e k)).1 : Int)) (min e k) := by
        change Float.ofModel (.pack (UnpackedFloat.add .binary64 x.toModel.unpack y.toModel.unpack)) = _
        rw [shape, shapeToo]
        rfl
      refine ⟨_, min e k, least, ?_, congrArg Float.isFinite sum, congrArg units sum⟩
      rw [Int.add_mul, units_aligned s least (by omega), units_aligned t least (by omega),
        units_of_finite shape, units_of_finite shapeToo]

theorem add_near {x y : Float} (finite : x.isFinite = true) (finiteToo : y.isFinite = true)
    (most : (units x + units y).natAbs ≤ 2 ^ 49 * unitsPerOne.natAbs) :
    (x + y).isFinite = true ∧
      2 ^ 53 * (units x + units y - units (x + y)).natAbs ≤ (units x + units y).natAbs := by
  obtain ⟨m, e, least, same, finiteSum, size⟩ := add_nearest finite finiteToo
  rw [finiteSum, size]
  exact nearest_near least same most

/-! Sums of what holds hundredths. -/

def centsTogether (ns : List Int) : Nat := (ns.map Int.natAbs).sum

theorem natAbs_sum_le_together (ns : List Int) : ns.sum.natAbs ≤ centsTogether ns := by
  induction ns with
  | nil => exact Nat.le_refl 0
  | cons n ns ih =>
    have apart := Int.natAbs_add_le n ns.sum
    simp only [centsTogether, List.map_cons, List.sum_cons] at ih ⊢
    omega

theorem natAbs_le_together {ns : List Int} {n : Int} (member : n ∈ ns) :
    n.natAbs ≤ centsTogether ns := List.single_le_sum (by simp) _ (List.mem_map_of_mem member)

variable {ns : List Int} {xs : List Float}

theorem exact_sum_error (holds : List.Forall₂ HoldsCents ns xs) :
    2 ^ 53 * (ns.sum * unitsPerOne - 100 * (xs.map units).sum).natAbs ≤
      centsTogether ns * unitsPerOne.natAbs := by
  induction holds with
  | nil => simp [centsTogether]
  | @cons n x ns xs first _ ih =>
    have error := first.error
    simp only [centsTogether, List.map_cons, List.sum_cons, Int.add_mul, Nat.add_mul] at ih ⊢
    omega

/-- The hundredths come to little more than what is held, so that a bound on the one bounds the other. -/
theorem together_of_units (holds : List.Forall₂ HoldsCents ns xs)
    (bounded : (xs.map fun x => (units x).natAbs).sum < 10 ^ 12 * unitsPerOne.natAbs) :
    centsTogether ns ≤ 2 ^ 48 := by
  have size : (2 ^ 53 - 1) * (centsTogether ns * unitsPerOne.natAbs) ≤
      2 ^ 53 * (100 * (xs.map fun x => (units x).natAbs).sum) := by
    clear bounded
    induction holds with
    | nil => simp [centsTogether]
    | @cons n x ns xs first _ ih =>
      have error := first.error
      have sizes := Int.natAbs_mul n unitsPerOne
      simp only [centsTogether, List.map_cons, List.sum_cons, Nat.add_mul] at ih ⊢
      omega
  by_contra more
  have filled : (2 ^ 48 + 1) * unitsPerOne.natAbs ≤ centsTogether ns * unitsPerOne.natAbs :=
    Nat.mul_le_mul_right _ (by omega)
  omega

theorem cents_of_holds (holds : List.Forall₂ HoldsCents ns xs) (most : centsTogether ns ≤ 2 ^ 48) :
    ns = xs.map cents := by
  induction holds with
  | nil => rfl
  | @cons n x ns xs first _ ih =>
    simp only [centsTogether, List.map_cons, List.sum_cons] at most ih ⊢
    rw [first.cents_eq (by omega), ← ih (by omega)]

theorem holds_cents (rounded : ∀ x ∈ xs, ∃ z, x = roundHundredths z)
    (bounded : (xs.map fun x => (units x).natAbs).sum < 10 ^ 12 * unitsPerOne.natAbs) :
    (∀ x ∈ xs, HoldsCents (cents x) x) ∧ centsTogether (xs.map cents) ≤ 2 ^ 48 := by
  obtain ⟨ns, holds⟩ : ∃ ns, List.Forall₂ HoldsCents ns xs := by
    clear bounded
    induction xs with
    | nil => exact ⟨[], .nil⟩
    | cons x xs ih =>
      obtain ⟨z, rfl⟩ := rounded x List.mem_cons_self
      obtain ⟨ns, holds⟩ := ih fun y member => rounded y (List.mem_cons_of_mem _ member)
      exact ⟨roundedCents z :: ns, .cons (holds_roundHundredths z) holds⟩
  have most := together_of_units holds bounded
  obtain rfl := cents_of_holds holds most
  rw [List.forall₂_map_left_iff, List.forall₂_same] at holds
  exact ⟨holds, most⟩

/-- A double within an eighth of a hundredth. -/
structure NearCents (n : Int) (x : Float) : Prop where
  finite : x.isFinite = true
  near : 8 * (n * unitsPerOne - 100 * units x).natAbs ≤ unitsPerOne.natAbs

theorem sum_near (holds : List.Forall₂ HoldsCents ns xs) (most : centsTogether ns ≤ 2 ^ 48) :
    ∃ y, sum? xs = some y ∧ NearCents ns.sum y := by
  have error := exact_sum_error holds
  have share : centsTogether ns * unitsPerOne.natAbs ≤ 2 ^ 48 * unitsPerOne.natAbs :=
    Nat.mul_le_mul_right _ most
  have size : (ns.sum * unitsPerOne).natAbs ≤ 2 ^ 48 * unitsPerOne.natAbs := by
    rw [Int.natAbs_mul]
    exact Nat.mul_le_mul_right _ (Nat.le_trans (natAbs_sum_le_together ns) most)
  obtain ⟨finite, rounded⟩ := nearest_near (m := (xs.map units).sum) (e := -1074)
    (by decide) (Int.mul_one _) (by omega)
  -- of the eighth, a 32nd is what the amounts are off together, and a 16th what rounding the sum adds
  refine ⟨ofUnits (xs.map units).sum, ?_, finite, ?_⟩
  · simp only [sum?]
    exact if_pos finite
  · rw [ofUnits]
    omega

theorem NearCents.holds {n : Int} {y : Float} (near : NearCents n y) (most : n.natAbs ≤ 2 ^ 48) :
    HoldsCents n (roundHundredths y) := by
  have := near.near
  exact holds_of_near near.finite most (by omega)

theorem holds_add {m n : Int} {x y : Float} (holds : HoldsCents m x) (near : NearCents n y)
    (most : m.natAbs + n.natAbs ≤ 2 ^ 48) : HoldsCents (m + n) (roundHundredths (x + y)) := by
  have error := holds.error
  have together := near.near
  have shareFirst : m.natAbs * unitsPerOne.natAbs ≤ 2 ^ 48 * unitsPerOne.natAbs :=
    Nat.mul_le_mul_right _ (by omega)
  have size : ((m + n) * unitsPerOne).natAbs ≤ 2 ^ 48 * unitsPerOne.natAbs := by
    rw [Int.natAbs_mul]
    exact Nat.mul_le_mul_right _ (by omega)
  rw [Int.add_mul] at size
  obtain ⟨finite, rounded⟩ := add_near holds.isFinite near.finite (by omega)
  -- a 32nd for the amount, an eighth for the sum and a 16th for adding them are less than a quarter
  apply holds_of_near finite (by omega)
  rw [Int.add_mul]
  omega

end Joinery.Number

namespace Joinery.Estimate
open Number

theorem sum_of_cents {ns : List Int} {xs : List Float} (holds : List.Forall₂ HoldsCents ns xs)
    (most : centsTogether ns ≤ 2 ^ 48) : ∃ y, sum xs = .ok y ∧ NearCents ns.sum y := by
  obtain ⟨y, summed, near⟩ := sum_near holds most
  exact ⟨y, by rw [sum, summed], near⟩

theorem total_of_cents {ns : List Int} {xs : List Float} (holds : List.Forall₂ HoldsCents ns xs)
    (most : centsTogether ns ≤ 2 ^ 48) : ∃ y, total xs = .ok y ∧ HoldsCents ns.sum y := by
  obtain ⟨y, summed, near⟩ := sum_of_cents holds most
  refine ⟨roundHundredths y, by rw [total, summed]; rfl, ?_⟩
  exact near.holds (Nat.le_trans (natAbs_sum_le_together ns) most)

end Joinery.Estimate
