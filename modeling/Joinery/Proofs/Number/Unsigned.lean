import Joinery.Number.Power
import Joinery.Proofs.Number.Order

/-!
Doubles that are not below zero. They are the positive ones, the zeros of either sign and what is no
number, and no sum, product, quotient or power of them is below zero.
-/
namespace Joinery.Number
open Float.Model
open Float.Model.UnpackedFloat (Sign packComponents roundWithAccuracy)

def Unsigned : UnpackedFloat → Prop
  | .notANumber | .zero _ => True
  | .infinity s | .finite s _ _ _ => s = .positive

theorem zero_shape : (0 : Float).toModel.unpack = .zero .positive := by rfl

theorem unsigned_iff {x : Float} : ¬ x < 0 ↔ Unsigned x.toModel.unpack := by
  rw [lt_iff, zero_shape]
  generalize x.toModel.unpack = f
  cases f with
  | notANumber => simp [Unsigned, UnpackedFloat.lt, UnpackedFloat.compare]
  | zero s => simp [Unsigned, UnpackedFloat.lt, UnpackedFloat.compare]
  | infinity s => cases s <;> simp [Unsigned, UnpackedFloat.lt, UnpackedFloat.compare]
  | finite s m e positive => cases s <;> simp [Unsigned, UnpackedFloat.lt, UnpackedFloat.compare]

theorem zero_le_of_not_lt {x : Float} (finite : x.isFinite = true) (above : ¬ x < 0) : 0 ≤ x :=
  le_of_not_lt rfl (number_of_finite finite) above

theorem not_lt_of_zero_le {x : Float} (above : 0 ≤ x) : ¬ x < 0 := by
  rw [le_iff, zero_shape] at above
  rw [unsigned_iff]
  generalize x.toModel.unpack = f at *
  cases f with
  | notANumber => trivial
  | zero s => trivial
  | infinity s => cases s <;> simp_all [Unsigned, UnpackedFloat.le, UnpackedFloat.compare]
  | finite s m e positive =>
    cases s <;> simp_all [Unsigned, UnpackedFloat.le, UnpackedFloat.compare]

theorem unsigned_packed (e : BitVec 11) (m : BitVec 52) :
    Unsigned (UnpackedFloat.unpack Format.binary64
      (packComponents Format.binary64 .positive e m)) := by
  simp only [UnpackedFloat.unpack, UnpackedFloat.unpackMantissa_packComponents,
    UnpackedFloat.unpackExponent_packComponents, sign_of_packed]
  split
  · split
    · rfl
    · trivial
  · split
    · split
      · trivial
      · rfl
    · rfl

theorem unsigned_pack {f : UnpackedFloat} (unsigned : Unsigned f) :
    Unsigned (Float.Model.pack f).unpack := by
  change Unsigned (UnpackedFloat.unpack Format.binary64 (UnpackedFloat.pack Format.binary64 f))
  cases f with
  | notANumber => exact unsigned_packed _ _
  | zero s =>
    have shape : UnpackedFloat.unpack Format.binary64
        (UnpackedFloat.pack Format.binary64 (.zero s)) = .zero s := unpack_packed_zero s
    rw [shape]
    trivial
  | infinity s =>
    obtain rfl : s = .positive := unsigned
    exact unsigned_packed _ _
  | finite s m e positive =>
    obtain rfl : s = .positive := unsigned
    simp only [UnpackedFloat.pack]
    split
    · exact unsigned_packed _ _
    · split
      · exact unsigned_packed _ _
      · exact unsigned_packed _ _

theorem unsigned_rounded (m : Nat) (e : Int) (accuracy : UnpackedFloat.Accuracy) :
    Unsigned (roundWithAccuracy .binary64 .positive m e accuracy) := by
  unfold roundWithAccuracy
  dsimp only
  split
  · trivial
  · rfl

theorem unsigned_normalize {m : Int} (above : 0 ≤ m) (e : Int) (zeroSign : Sign) :
    Unsigned (.normalize .binary64 m e zeroSign) := by
  unfold UnpackedFloat.normalize
  cases order : compare m 0 with
  | lt =>
    have below := Int.compare_eq_lt.mp order
    omega
  | eq => trivial
  | gt => exact unsigned_rounded _ _ _

section
variable {f g : UnpackedFloat} (first : Unsigned f) (second : Unsigned g)
include first second

theorem unsigned_sum : Unsigned (UnpackedFloat.add .binary64 f g) := by
  cases f with
  | notANumber => trivial
  | infinity s =>
    obtain rfl : s = .positive := first
    cases g with
    | infinity t =>
      obtain rfl : t = .positive := second
      rfl
    | notANumber => trivial
    | zero t => rfl
    | finite t n k positive => rfl
  | zero s =>
    cases g with
    | zero t => cases s <;> cases t <;> trivial
    | notANumber => trivial
    | infinity t => exact second
    | finite t n k positive => exact second
  | finite s m e positive =>
    obtain rfl : s = .positive := first
    cases g with
    | finite t n k positive =>
      obtain rfl : t = .positive := second
      exact unsigned_normalize (Int.add_nonneg (Int.natCast_nonneg _) (Int.natCast_nonneg _)) _ _
    | notANumber => trivial
    | infinity t => exact second
    | zero t => rfl

theorem unsigned_product : Unsigned (UnpackedFloat.mul .binary64 f g) := by
  cases f with
  | notANumber => trivial
  | infinity s =>
    obtain rfl : s = .positive := first
    cases g with
    | zero t => trivial
    | notANumber => trivial
    | infinity t =>
      obtain rfl : t = .positive := second
      rfl
    | finite t n k positive =>
      obtain rfl : t = .positive := second
      rfl
  | zero s => cases g <;> trivial
  | finite s m e positive =>
    obtain rfl : s = .positive := first
    cases g with
    | zero t => trivial
    | notANumber => trivial
    | infinity t =>
      obtain rfl : t = .positive := second
      rfl
    | finite t n k positive =>
      obtain rfl : t = .positive := second
      exact unsigned_rounded _ _ _

theorem unsigned_quotient (divisor : ∀ s, g ≠ .zero s) :
    Unsigned (UnpackedFloat.div .binary64 f g) := by
  cases g with
  | zero t => exact absurd rfl (divisor t)
  | notANumber => cases f <;> trivial
  | infinity t =>
    obtain rfl : t = .positive := second
    cases f <;> trivial
  | finite t n k positive =>
    obtain rfl : t = .positive := second
    cases f with
    | notANumber => trivial
    | zero s => trivial
    | infinity s =>
      obtain rfl : s = .positive := first
      rfl
    | finite s m e positive =>
      obtain rfl : s = .positive := first
      exact unsigned_rounded _ _ _

end

/-! The same for doubles. -/

section
variable {x y : Float} (first : ¬ x < 0) (second : ¬ y < 0)
include first second

theorem add_not_lt : ¬ x + y < 0 := by
  rw [unsigned_iff] at *
  exact unsigned_pack (unsigned_sum first second)

theorem mul_not_lt : ¬ x * y < 0 := by
  rw [unsigned_iff] at *
  exact unsigned_pack (unsigned_product first second)

theorem div_not_lt (divisor : (y == 0) = false) : ¬ x / y < 0 := by
  rw [unsigned_iff] at *
  refine unsigned_pack (unsigned_quotient first second fun s zero => ?_)
  change y.toModel.unpack.beq (0 : Float).toModel.unpack = false at divisor
  rw [zero, zero_shape] at divisor
  cases divisor

end

theorem abs_not_lt (x : Float) : ¬ x.abs < 0 := by
  rw [unsigned_iff]
  refine unsigned_pack ?_
  generalize x.toModel.unpack = f
  cases f <;> trivial

theorem nearest_not_lt {m : Int} (above : 0 ≤ m) (e : Int) : ¬ nearest m e < 0 := by
  rw [unsigned_iff]
  exact unsigned_pack (unsigned_normalize above e _)

theorem infinity_not_lt : ¬ infinity < 0 := by decide +kernel

theorem ofInt?_not_lt {n : Int} {x : Float} (above : 0 ≤ n) (held : ofInt? n = some x) :
    ¬ x < 0 := by
  unfold ofInt? at held
  dsimp only at held
  split at held
  · obtain rfl := Option.some.inj held
    exact nearest_not_lt above 0
  · cases held

theorem zero_not_lt : ¬ (0 : Float) < 0 := by decide +kernel

theorem one_not_lt : ¬ (1 : Float) < 0 := by decide +kernel

theorem unboundedPower_not_lt {a b : Float} (base : ¬ a < 0) (exponent : ¬ b < 0) :
    ¬ unboundedPower a b < 0 := by
  unfold unboundedPower
  split
  · split
    · exact one_not_lt
    · exact base
  split
  · split
    · exact one_not_lt
    · exact exponent
  split
  · split
    · split
      · exact base
      · exact abs_not_lt a
    · split
      · exact one_not_lt
      · simpa [base] using zero_not_lt
  split
  · exact one_not_lt
  split
  · exact infinity_not_lt
  split
  · exact infinity_not_lt
  · exact zero_not_lt

theorem boundedSize_not_lt {a b x : Float} (raised : boundedSize a b = .ok x) : ¬ x < 0 := by
  unfold boundedSize at raised
  dsimp only at raised
  split at raised
  · cases raised
  · split at raised
    · cases raised
    · obtain rfl := Except.ok.inj raised
      exact abs_not_lt _

theorem power_not_lt {a b x : Float} (base : ¬ a < 0) (exponent : ¬ b < 0)
    (raised : power a b = .ok x) : ¬ x < 0 := by
  unfold power at raised
  split at raised
  · obtain rfl := Except.ok.inj raised
    exact unboundedPower_not_lt base exponent
  split at raised
  · obtain rfl := Except.ok.inj raised
    exact one_not_lt
  split at raised
  · obtain rfl := Except.ok.inj raised
    split
    · exact base
    · exact zero_not_lt
  exact boundedSize_not_lt raised

theorem powersOfTen_above :
    ∀ power ∈ Float.exactlyRepresentablePowersOfTen, ¬ power < 0 ∧ (power == 0) = false := by
  decide +kernel

theorem unsigned_ofScientific (m : Nat) (e : Int) :
    Unsigned (UnpackedFloat.ofScientific .binary64 m e) := by
  unfold UnpackedFloat.ofScientific
  split
  · trivial
  split
  · rfl
  split
  · trivial
  split
  · exact unsigned_product rfl rfl
  · exact unsigned_quotient rfl rfl nofun

theorem decimal_not_lt (d : Decimal) : ¬ d.toFloat < 0 := by
  unfold Decimal.toFloat Float.ofScientific
  split
  · rename_i few
    have whole : ¬ d.digits.toUInt64.toFloat < 0 := nearest_not_lt (Int.natCast_nonneg _) 0
    obtain ⟨above, notZero⟩ := powersOfTen_above _
      (Array.getElem_mem (Nat.lt_of_le_of_lt few.2 (by decide)))
    dsimp only
    split
    · exact div_not_lt whole above notZero
    · exact mul_not_lt whole above
  · rw [unsigned_iff]
    exact unsigned_pack (unsigned_ofScientific _ _)

theorem units_nonneg {x : Float} (above : ¬ x < 0) : 0 ≤ units x := by
  rw [unsigned_iff] at above
  unfold units
  split
  · rename_i s m e positive shape
    rw [shape] at above
    obtain rfl : s = .positive := above
    exact Int.natCast_nonneg _
  · exact Int.le_refl 0

theorem sum?_not_lt {xs : List Float} {x : Float} (each : ∀ y ∈ xs, ¬ y < 0)
    (summed : sum? xs = some x) : ¬ x < 0 := by
  unfold sum? at summed
  dsimp only at summed
  split at summed
  · obtain rfl := Option.some.inj summed
    refine nearest_not_lt (List.sum_nonneg ?_) _
    intro n member
    obtain ⟨y, listed, rfl⟩ := List.mem_map.mp member
    exact units_nonneg (each y listed)
  · cases summed

theorem roundHundredths_not_lt {x : Float} (above : ¬ x < 0) : ¬ roundHundredths x < 0 := by
  rw [roundHundredths, if_neg]
  · exact decimal_not_lt _
  · simp [above]

end Joinery.Number
