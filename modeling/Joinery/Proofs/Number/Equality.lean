import Joinery.Number.Hundredths
import Joinery.Proofs.Number.Packing

/-!
Equality of doubles. Equal doubles hold the same number, where the sign of a zero does not matter,
and sums, products and roundings of equal doubles are equal.
-/
namespace Joinery.Number
open Float.Model
open Float.Model.UnpackedFloat (Sign)

/-- The same shape, or a zero and a zero. -/
inductive Matches : UnpackedFloat → UnpackedFloat → Prop where
  | same (f : UnpackedFloat) : Matches f f
  | zeros (s t : Sign) : Matches (.zero s) (.zero t)

theorem matches_of_compare {f g : UnpackedFloat} (equal : f.compare g = some .eq) : Matches f g := by
  have parts {e k : Int} {m n : Nat} (both : (compare e k).then (compare m n) = .eq) :
      e = k ∧ m = n := by
    obtain ⟨exponents, mantissas⟩ := Ordering.then_eq_eq.mp both
    exact ⟨Int.compare_eq_eq.mp exponents, Nat.compare_eq_eq.mp mantissas⟩
  cases f with
  | zero s =>
    cases g with
    | zero t => exact .zeros s t
    | finite t m e positive => cases t <;> cases equal
    | infinity t => cases t <;> cases equal
    | notANumber => cases equal
  | infinity s =>
    cases g with
    | infinity t => cases s <;> cases t <;> first | exact .same _ | cases equal
    | zero t => cases s <;> cases equal
    | finite t m e positive => cases s <;> cases equal
    | notANumber => cases s <;> cases equal
  | notANumber => cases equal
  | finite s m e positive =>
    cases g with
    | zero t => cases s <;> cases equal
    | infinity t => cases s <;> cases t <;> cases equal
    | notANumber => cases s <;> cases equal
    | finite t n k other =>
      cases s <;> cases t
      case negative.negative =>
        have order := Option.some.inj equal
        rw [Ordering.swap_eq_eq] at order
        obtain ⟨rfl, rfl⟩ := parts order
        exact .same _
      case positive.positive =>
        obtain ⟨rfl, rfl⟩ := parts (Option.some.inj equal)
        exact .same _
      all_goals cases equal

theorem compare_self {f : UnpackedFloat} (number : f ≠ .notANumber) : f.compare f = some .eq := by
  cases f with
  | zero s => rfl
  | infinity s => cases s <;> rfl
  | notANumber => exact absurd rfl number
  | finite s m e positive => cases s <;> simp [UnpackedFloat.compare]

theorem Matches.mul {f g h k : UnpackedFloat} (first : Matches f g) (second : Matches h k) :
    Matches (UnpackedFloat.mul .binary64 f h) (UnpackedFloat.mul .binary64 g k) := by
  cases first with
  | same f =>
    cases second with
    | same h => exact .same _
    | zeros s t =>
      cases f with
      | zero r => exact .zeros _ _
      | finite r m e positive => exact .zeros _ _
      | infinity r => exact .same _
      | notANumber => exact .same _
  | zeros s t =>
    cases second with
    | zeros r q => exact .zeros _ _
    | same h =>
      cases h with
      | zero r => exact .zeros _ _
      | finite r m e positive => exact .zeros _ _
      | infinity r => exact .same _
      | notANumber => exact .same _

theorem Matches.add {f g h k : UnpackedFloat} (first : Matches f g) (second : Matches h k) :
    Matches (UnpackedFloat.add .binary64 f h) (UnpackedFloat.add .binary64 g k) := by
  have zeros (a b c d : Sign) : Matches (UnpackedFloat.add .binary64 (.zero a) (.zero b))
      (UnpackedFloat.add .binary64 (.zero c) (.zero d)) := by
    cases a <;> cases b <;> cases c <;> cases d <;> exact .zeros _ _
  cases first with
  | same f =>
    cases second with
    | same h => exact .same _
    | zeros s t =>
      cases f with
      | zero r => exact zeros ..
      | finite r m e positive => exact .same _
      | infinity r => exact .same _
      | notANumber => exact .same _
  | zeros s t =>
    cases second with
    | zeros r q => exact zeros ..
    | same h =>
      cases h with
      | zero r => exact zeros ..
      | finite r m e positive => exact .same _
      | infinity r => exact .same _
      | notANumber => exact .same _

theorem Matches.packed {f g : UnpackedFloat} (fits : Matches f g) :
    Matches (Float.Model.pack f).unpack (Float.Model.pack g).unpack := by
  cases fits with
  | same f => exact .same _
  | zeros s t => cases s <;> cases t <;> exact .zeros _ _

def Alike (x y : Float) : Prop := Matches x.toModel.unpack y.toModel.unpack

theorem Alike.refl (x : Float) : Alike x x := .same _

theorem alike_of_beq {x y : Float} (equal : (x == y) = true) : Alike x y :=
  matches_of_compare (eq_of_beq equal)

theorem beq_self {x : Float} (number : x.isNaN = false) : (x == x) = true := by
  have some : x.toModel.unpack ≠ .notANumber := by
    intro none
    change x.toModel.unpack.isNaN = false at number
    rw [none] at number
    cases number
  have equal : (x.toModel.unpack.compare x.toModel.unpack == Option.some .eq) = true :=
    beq_of_eq (compare_self some)
  exact equal

theorem number_of_finite {x : Float} (finite : x.isFinite = true) : x.isNaN = false := by
  change x.toModel.unpack.isNaN = false
  change x.toModel.unpack.isFinite = true at finite
  cases shape : x.toModel.unpack with
  | notANumber =>
    rw [shape] at finite
    cases finite
  | _ => rfl

theorem beq_self_of_finite {x : Float} (finite : x.isFinite = true) : (x == x) = true :=
  beq_self (number_of_finite finite)

theorem Alike.mul {a b x y : Float} (first : Alike a b) (second : Alike x y) :
    Alike (a * x) (b * y) := (Matches.mul first second).packed

theorem Alike.add {a b x y : Float} (first : Alike a b) (second : Alike x y) :
    Alike (a + x) (b + y) := (Matches.add first second).packed

theorem lt_iff (x y : Float) : x < y ↔ x.toModel.unpack.lt y.toModel.unpack = true := by
  change decide (x.toModel < y.toModel) = true ↔ _
  rw [decide_eq_true_iff]
  rfl

theorem Alike.heldHundredths {x y : Float} (alike : Alike x y) :
    heldHundredths x = heldHundredths y := by
  unfold Number.heldHundredths shortest
  unfold Alike at alike
  generalize x.toModel.unpack = f at *
  generalize y.toModel.unpack = g at *
  cases alike <;> rfl

theorem Alike.roundHundredths {x y : Float} (alike : Alike x y) :
    roundHundredths x = roundHundredths y := by
  have held := alike.heldHundredths
  have sign : x < 0 ↔ y < 0 := by
    rw [lt_iff, lt_iff]
    unfold Alike at alike
    generalize x.toModel.unpack = f at *
    generalize y.toModel.unpack = g at *
    cases alike with
    | same f => exact Iff.rfl
    | zeros s t => exact Iff.rfl
  unfold Number.roundHundredths
  simp only [held, sign]

end Joinery.Number
