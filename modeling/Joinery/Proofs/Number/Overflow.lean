import Joinery.Number.Power
import Joinery.Proofs.Number.Monotone

/-!
Doubles that are not finite. No sum, difference or product with one of them is finite. A quotient is
only if it divides a finite double by an infinity, and then it is a zero; a power is only if it is a
zero or a one. A sum of finite doubles may leave them, but it is a number.
-/
namespace Joinery.Number
open Float.Model
open Float.Model.UnpackedFloat (Sign)

theorem unbounded_pack {f : UnpackedFloat} (unbounded : f.isFinite = false) :
    (Float.Model.pack f).unpack.isFinite = false := by
  cases f with
  | notANumber => rfl
  | infinity s => cases s <;> rfl
  | zero s => cases unbounded
  | finite s m e positive => cases unbounded

section
variable {f g : UnpackedFloat}

theorem unbounded_sum (either : f.isFinite = false ∨ g.isFinite = false) :
    (UnpackedFloat.add .binary64 f g).isFinite = false := by
  cases f with
  | notANumber => rfl
  | infinity s =>
    cases g with
    | infinity t => cases s <;> cases t <;> rfl
    | _ => rfl
  | zero s | finite s m e positive =>
    cases g with
    | zero t | finite t n k positive => simp [UnpackedFloat.isFinite] at either
    | _ => rfl

theorem sub_eq_add_neg (f g : UnpackedFloat) :
    UnpackedFloat.sub .binary64 f g = UnpackedFloat.add .binary64 f g.neg := by
  cases f with
  | finite s m e positive =>
    cases g with
    | finite t n k other =>
      have flipped (z : Int) : (-t).apply z = -t.apply z := by
        cases t
        · exact (Int.neg_neg z).symm
        · rfl
      simp only [UnpackedFloat.sub, UnpackedFloat.add, UnpackedFloat.neg, flipped, Int.sub_eq_add_neg]
    | _ => rfl
  | _ => cases g <;> rfl

theorem unbounded_difference (either : f.isFinite = false ∨ g.isFinite = false) :
    (UnpackedFloat.sub .binary64 f g).isFinite = false := by
  have same : g.neg.isFinite = g.isFinite := by cases g <;> rfl
  rw [sub_eq_add_neg]
  exact unbounded_sum (same.symm ▸ either)

theorem unbounded_product (either : f.isFinite = false ∨ g.isFinite = false) :
    (UnpackedFloat.mul .binary64 f g).isFinite = false := by
  cases f with
  | notANumber => rfl
  | infinity s => cases g <;> rfl
  | zero s | finite s m e positive =>
    cases g with
    | zero t | finite t n k positive => simp [UnpackedFloat.isFinite] at either
    | _ => rfl

theorem unbounded_quotient (either : f.isFinite = false ∨ g.isFinite = false) :
    (UnpackedFloat.div .binary64 f g).isFinite = false ∨
      f.isFinite = true ∧ ∃ s t, g = .infinity s ∧ UnpackedFloat.div .binary64 f g = .zero t := by
  cases f with
  | notANumber => exact .inl rfl
  | infinity s => cases g <;> exact .inl rfl
  | zero s | finite s m e positive =>
    cases g with
    | zero t | finite t n k positive => simp [UnpackedFloat.isFinite] at either
    | notANumber => exact .inl rfl
    | infinity t => exact .inr ⟨rfl, t, _, rfl, rfl⟩

end

/-! The same for doubles. -/

section
variable {x y : Float}

theorem finite_of_add (finite : (x + y).isFinite = true) :
    x.isFinite = true ∧ y.isFinite = true := by
  by_contra either
  rw [not_and_or, Bool.not_eq_true, Bool.not_eq_true] at either
  exact Bool.false_ne_true ((unbounded_pack (unbounded_sum either)).symm.trans finite)

theorem finite_of_sub (finite : (x - y).isFinite = true) :
    x.isFinite = true ∧ y.isFinite = true := by
  by_contra either
  rw [not_and_or, Bool.not_eq_true, Bool.not_eq_true] at either
  exact Bool.false_ne_true ((unbounded_pack (unbounded_difference either)).symm.trans finite)

theorem finite_of_mul (finite : (x * y).isFinite = true) :
    x.isFinite = true ∧ y.isFinite = true := by
  by_contra either
  rw [not_and_or, Bool.not_eq_true, Bool.not_eq_true] at either
  exact Bool.false_ne_true ((unbounded_pack (unbounded_product either)).symm.trans finite)

theorem zero_beq {t : Sign} : (Float.ofModel (Float.Model.pack (.zero t)) == 0) = true := by
  cases t <;> rfl

theorem finite_of_div (finite : (x / y).isFinite = true) :
    x.isFinite = true ∧
      (y.isFinite = true ∨ y.isInf = true ∧ (x / y == 0) = true) := by
  by_cases both : x.isFinite = true ∧ y.isFinite = true
  · exact ⟨both.1, .inl both.2⟩
  rw [not_and_or, Bool.not_eq_true, Bool.not_eq_true] at both
  rcases unbounded_quotient both with unbounded | ⟨bounded, s, t, infinite, zero⟩
  · exact absurd ((unbounded_pack unbounded).symm.trans finite) Bool.false_ne_true
  · refine ⟨bounded, .inr ⟨?_, ?_⟩⟩
    · change y.toModel.unpack.isInf = true
      rw [infinite]
      rfl
    · have same : x / y = Float.ofModel (Float.Model.pack (.zero t)) := by
        rw [← zero]
        rfl
      rw [same]
      exact zero_beq

end

/-! A sum of finite doubles may be an infinity, but it is a number. -/

theorem number_pack {f : UnpackedFloat} (number : f.isNaN = false) :
    (Float.Model.pack f).unpack.isNaN = false := by
  cases f with
  | notANumber => cases number
  | infinity s | zero s => cases s <;> rfl
  | finite s m e positive =>
    by_cases most : e ≤ 971
    · exact number_of_finite (x := .ofModel (.pack _)) (isFinite_unpack_pack positive most)
    · rw [unpack_pack_overflow positive (Int.not_le.mp most)]
      rfl

theorem AtMost.number {limit : Int} {f : UnpackedFloat} (held : AtMost limit f) : f.isNaN = false := by
  cases f with
  | notANumber => exact held.elim
  | infinity s | zero s | finite s m e positive => rfl

theorem number_sum {f g : UnpackedFloat} (first : f.isFinite = true) (second : g.isFinite = true) :
    (UnpackedFloat.add .binary64 f g).isNaN = false := by
  cases f with
  | notANumber | infinity s => cases first
  | zero s =>
    cases g with
    | notANumber | infinity t => cases second
    | zero t => cases s <;> cases t <;> rfl
    | finite t n k other => rfl
  | finite s m e positive =>
    cases g with
    | notANumber | infinity t => cases second
    | zero t => rfl
    | finite t n k other => exact (normalize_atMost _ _ _).number

theorem number_of_add {x y : Float} (first : x.isFinite = true) (second : y.isFinite = true) :
    (x + y).isNaN = false := number_pack (number_sum first second)

theorem not_isInf_of_finite {x : Float} (finite : x.isFinite = true) : x.isInf = false := by
  change x.toModel.unpack.isInf = false
  change x.toModel.unpack.isFinite = true at finite
  generalize x.toModel.unpack = f at *
  cases f with
  | notANumber | infinity s => cases finite
  | zero s | finite s m e positive => rfl

theorem abs_not_finite {x : Float} (infinite : x.isInf = true) : x.abs.isFinite = false := by
  refine unbounded_pack ?_
  change x.toModel.unpack.isInf = true at infinite
  generalize x.toModel.unpack = f at *
  cases f with
  | infinity s => rfl
  | notANumber | zero s | finite s m e positive => cases infinite

theorem unboundedPower_finite {a b : Float} :
    (unboundedPower a b).isFinite = true →
      (unboundedPower a b == 0) = true ∨ (unboundedPower a b == 1) = true := by
  have zero : ((0 : Float) == 0) = true := by decide +kernel
  have minusZero : ((-0.0 : Float) == 0) = true := by decide +kernel
  have one : ((1 : Float) == 1) = true := by decide +kernel
  unfold unboundedPower
  split
  · rename_i none
    split
    · exact fun _ => .inr one
    · exact fun finite => absurd (none.symm.trans (number_of_finite finite)) Bool.noConfusion
  split
  · rename_i none
    split
    · exact fun _ => .inr one
    · exact fun finite => absurd (none.symm.trans (number_of_finite finite)) Bool.noConfusion
  split
  · rename_i infinite
    split
    · split
      · exact fun finite => absurd (infinite.symm.trans (not_isInf_of_finite finite)) Bool.noConfusion
      · exact fun finite => absurd ((abs_not_finite infinite).symm.trans finite) Bool.noConfusion
    · split
      · exact fun _ => .inr one
      · split
        · exact fun _ => .inl minusZero
        · exact fun _ => .inl zero
  split
  · exact fun _ => .inr one
  split
  · exact fun finite => absurd finite (by decide +kernel)
  split
  · exact fun finite => absurd finite (by decide +kernel)
  · exact fun _ => .inl zero

end Joinery.Number
