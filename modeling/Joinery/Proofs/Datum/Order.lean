import Joinery.Proofs.Datum.Giant
import Joinery.Proofs.Number.Rounded
import Mathlib.Order.WithBot

/-!
The order of numbers. Whole numbers and doubles are compared by what they stand for exactly, with an
infinity at either end, so that the order is transitive where the two kinds meet. A larger number that
has a finite double bounds the doubles of all smaller ones.
-/
namespace Joinery
open Number

/-- Exact sizes in units, between the two infinities. -/
abbrev Level := WithBot (WithTop Int)

namespace Level

def held (u : Int) : Level := ((u : WithTop Int) : WithBot (WithTop Int))

variable {u v : Int}

@[simp] theorem held_inj : held u = held v ↔ u = v := by simp [held]

@[simp] theorem held_lt_held : held u < held v ↔ u < v := by simp [held]

@[simp] theorem held_le_held : held u ≤ held v ↔ u ≤ v := by simp [held]

@[simp] theorem held_lt_top : held u < ⊤ := WithBot.coe_lt_coe.mpr (WithTop.coe_lt_top u)

theorem exists_held {i : Level} (above : held u ≤ i) (below : i ≤ held v) : ∃ z, i = held z := by
  induction i using WithBot.recBotCoe with
  | bot => exact absurd above (WithBot.not_coe_le_bot _)
  | coe i =>
    induction i using WithTop.recTopCoe with
    | top => exact absurd below (not_le_of_gt held_lt_top)
    | coe z => exact ⟨z, rfl⟩

@[simp] theorem bot_lt_held : ⊥ < held u := WithBot.bot_lt_coe _

end Level

namespace Number
open Float.Model
open Float.Model.UnpackedFloat (Sign)

def level (x : Float) : Option Level :=
  match x.toModel.unpack with
  | .notANumber => none
  | .infinity .positive => some ⊤
  | .infinity .negative => some ⊥
  | .zero _ | .finite .. => some (.held (units x))

section
variable {x y : Float}

theorem level_of_finite (finite : x.isFinite = true) : level x = some (.held (units x)) := by
  rcases shape_of_finite finite with ⟨s, shape⟩ | ⟨s, m, e, positive, shape⟩ <;> simp only [level, shape]

theorem lt_iff_level : x < y ↔ ∃ i ∈ level x, ∃ j ∈ level y, i < j := by
  by_cases both : x.isFinite = true ∧ y.isFinite = true
  · rw [level_of_finite both.1, level_of_finite both.2, lt_iff_units both.1 both.2]
    simp
  change ¬ (x.toModel.unpack.isFinite = true ∧ y.toModel.unpack.isFinite = true) at both
  rw [lt_iff]
  unfold level UnpackedFloat.lt
  generalize units x = u
  generalize units y = v
  generalize x.toModel.unpack = f at *
  generalize y.toModel.unpack = g at *
  have signs : compare Sign.negative Sign.positive = .lt := rfl
  cases f with
  | notANumber => simp [UnpackedFloat.compare]
  | infinity s =>
    cases g with
    | infinity t => cases s <;> cases t <;> simp [UnpackedFloat.compare, signs]
    | _ => cases s <;> simp [UnpackedFloat.compare]
  | zero s | finite s m e positive =>
    cases g with
    | notANumber => simp [UnpackedFloat.compare]
    | infinity t => cases t <;> simp [UnpackedFloat.compare]
    | zero t | finite t n k other => exact absurd ⟨rfl, rfl⟩ both

theorem level_of_beq (equal : (x == y) = true) : ∃ i, level x = some i ∧ level y = some i := by
  have compared : x.toModel.unpack.compare y.toModel.unpack = some .eq := eq_of_beq equal
  have alike := alike_of_beq equal
  unfold level
  rw [alike.units_eq]
  unfold Alike at alike
  generalize units y = v
  generalize x.toModel.unpack = f at *
  generalize y.toModel.unpack = g at *
  cases alike with
  | zeros s t => exact ⟨_, rfl, rfl⟩
  | same f =>
    cases f with
    | notANumber => cases compared
    | infinity s => cases s <;> exact ⟨_, rfl, rfl⟩
    | zero s | finite s m e positive => exact ⟨_, rfl, rfl⟩

theorem finite_of_level {u : Int} (same : level x = some (.held u)) :
    x.isFinite = true ∧ units x = u := by
  by_cases finite : x.isFinite = true
  · rw [level_of_finite finite] at same
    exact ⟨finite, by simpa [Level.held] using same⟩
  · rw [Bool.not_eq_true] at finite
    rcases shape_of_unbounded finite with ⟨s, shape⟩ | shape
    · cases s <;> simp [level, shape, Level.held] at same
    · simp [level, shape] at same

variable (unbounded : x.isFinite = false) (u : Int)
include unbounded

theorem held_lt_unbounded : (x.isInf && 0 < x) = true ↔ ∃ j ∈ level x, .held u < j := by
  change (x.toModel.unpack.isInf && decide (0 < x)) = true ↔ _
  rcases shape_of_unbounded unbounded with ⟨s, shape⟩ | shape
  · cases s <;> simp [level, shape, lt_iff, zero_shape, UnpackedFloat.isInf, UnpackedFloat.lt,
      UnpackedFloat.compare]
  · simp [level, shape, UnpackedFloat.isInf]

theorem unbounded_lt_held : (x.isInf && x < 0) = true ↔ ∃ i ∈ level x, i < .held u := by
  change (x.toModel.unpack.isInf && decide (x < 0)) = true ↔ _
  rcases shape_of_unbounded unbounded with ⟨s, shape⟩ | shape
  · cases s <;> simp [level, shape, lt_iff, zero_shape, UnpackedFloat.isInf, UnpackedFloat.lt,
      UnpackedFloat.compare]
  · simp [level, shape, UnpackedFloat.isInf]

end
end Number

namespace Numeral

def level : Numeral → Option Level
  | .whole n => some (.held (n * unitsPerOne))
  | .real x => Number.level x

theorem below_iff_level {a b : Numeral} :
    a.below b = true ↔ ∃ i ∈ a.level, ∃ j ∈ b.level, i < j := by
  have wholes {m n : Int} : m < n ↔ m * unitsPerOne < n * unitsPerOne :=
    (Int.mul_lt_mul_right unitsPerOne_pos).symm
  cases a with
  | whole m =>
    cases b with
    | whole n => simp [below, level, ← wholes]
    | real y =>
      by_cases finite : y.isFinite = true
      · simp [below, level, finite, level_of_finite finite]
      · rw [Bool.not_eq_true] at finite
        have order := held_lt_unbounded finite (m * unitsPerOne)
        simpa [below, level, finite] using order
  | real x =>
    cases b with
    | whole n =>
      by_cases finite : x.isFinite = true
      · simp [below, level, finite, level_of_finite finite]
      · rw [Bool.not_eq_true] at finite
        have order := unbounded_lt_held finite (n * unitsPerOne)
        simpa [below, level, finite] using order
    | real y => simp [below, level, lt_iff_level]

theorem level_of_agrees {a b : Numeral} (same : a.agrees b = true) :
    ∃ i, a.level = some i ∧ b.level = some i := by
  have mixed {n : Int} {x : Float} (held : (x.isFinite && n * unitsPerOne == units x) = true) :
      Number.level x = some (.held (n * unitsPerOne)) := by
    rw [Bool.and_eq_true, beq_iff_eq] at held
    rw [level_of_finite held.1, held.2]
  cases a with
  | whole m =>
    cases b with
    | whole n =>
      obtain rfl := eq_of_beq same
      exact ⟨_, rfl, rfl⟩
    | real y => exact ⟨_, rfl, mixed same⟩
  | real x =>
    cases b with
    | whole n => exact ⟨_, mixed same, rfl⟩
    | real y => exact level_of_beq same

/-- Numbers are ordered by what they stand for; nothing is above or below no number. -/
instance : LE Numeral := ⟨fun a b => a.below b = true ∨ a.agrees b = true⟩

instance (a b : Numeral) : Decidable (a ≤ b) :=
  inferInstanceAs (Decidable (a.below b = true ∨ a.agrees b = true))

section
variable {a b c : Numeral}

theorem level_of_le (le : a ≤ b) : ∃ i ∈ a.level, ∃ j ∈ b.level, i ≤ j := by
  rcases le with below | agrees
  · obtain ⟨i, first, j, second, less⟩ := below_iff_level.mp below
    exact ⟨i, first, j, second, less.le⟩
  · obtain ⟨i, first, second⟩ := level_of_agrees agrees
    exact ⟨i, first, i, second, le_refl i⟩

theorem below_of_le (below : c.below a = true) (le : a ≤ b) : c.below b = true := by
  obtain ⟨i, first, j, second, less⟩ := below_iff_level.mp below
  obtain ⟨j', same, k, third, most⟩ := level_of_le le
  obtain rfl : j = j' := Option.some.inj (second.symm.trans same)
  exact below_iff_level.mpr ⟨i, first, k, third, less.trans_le most⟩

theorem above_of_le {bound : Level} (le : a ≤ b) (above : ∀ i ∈ a.level, bound ≤ i) :
    ∀ j ∈ b.level, bound ≤ j := by
  intro j found
  obtain ⟨i, first, k, second, order⟩ := level_of_le le
  obtain rfl : j = k := Option.some.inj (found.symm.trans second)
  exact (above i first).trans order

/-- What a number of units from zero on is held as, no matter by which kind of number. -/
def Holds (n : Numeral) (u : Nat) : Prop := n.level = some (.held u)

theorem holds_of_le {v : Nat} (le : a ≤ b) (above : ∀ i ∈ a.level, .held 0 ≤ i) (holds : b.Holds v) :
    ∃ u ≤ v, a.Holds u := by
  obtain ⟨i, first, j, second, order⟩ := level_of_le le
  obtain rfl : j = .held v := Option.some.inj (second.symm.trans holds)
  obtain ⟨z, rfl⟩ := Level.exists_held (above i first) order
  have least := Level.held_le_held.mp (above _ first)
  obtain ⟨u, rfl⟩ := Int.eq_ofNat_of_zero_le least
  exact ⟨u, Int.ofNat_le.mp (Level.held_le_held.mp order), first⟩

theorem rounded_whole {z : Int} {u : Nat} (size : z * unitsPerOne = u) :
    Rounded (nearest z 0) (roundedUnits u) := by
  obtain ⟨m, rfl⟩ : ∃ m : Nat, z = m :=
    Int.eq_ofNat_of_zero_le (Int.nonneg_of_mul_nonneg_left (by omega) unitsPerOne_pos)
  obtain ⟨j, one, places⟩ := unit_places
  have rounded := nearest_rounded (m := m) (e := 0) (by decide)
  have same : u = m * 2 ^ j := by
    rw [← one, ← Int.natAbs_natCast m, ← Int.natAbs_mul, size, Int.natAbs_natCast]
  rwa [show (0 + 1074 : Int).toNat = j from places.symm, ← same] at rounded

variable {n : Numeral} {u : Nat} (holds : n.Holds u)
include holds

theorem rounded_of_holds {x : Float} (read : n.toFloat = .ok x) : Rounded x (roundedUnits u) := by
  cases n with
  | whole z =>
    have size : z * unitsPerOne = u := by simpa [Holds, level] using holds
    have rounded := rounded_whole size
    by_cases finite : (nearest z 0).isFinite = true
    · simp only [toFloat, ofInt?, if_pos finite] at read
      obtain rfl := Except.ok.inj read
      exact rounded
    · simp [toFloat, ofInt?, finite] at read
  | real y =>
    obtain rfl := Except.ok.inj read
    obtain ⟨finite, size⟩ := finite_of_level holds
    exact Sized.exact ⟨finite, size⟩

theorem read_of_holds (bits : (roundedUnits u).log2 ≤ 2097) : ∃ x, n.toFloat = .ok x := by
  cases n with
  | whole z =>
    have size : z * unitsPerOne = u := by simpa [Holds, level] using holds
    have rounded := rounded_whole size
    simp [toFloat, ofInt?, rounded.finite_iff.mpr bits]
  | real y => exact ⟨y, rfl⟩

omit holds in
theorem holds_of_read {x : Float} (above : ∀ i ∈ n.level, .held 0 ≤ i) (read : n.toFloat = .ok x)
    (finite : x.isFinite = true) : ∃ u, n.Holds u := by
  have held {z : Int} (same : n.level = some (.held z)) : ∃ u, n.Holds u := by
    obtain ⟨u, rfl⟩ := Int.eq_ofNat_of_zero_le (Level.held_le_held.mp (above _ same))
    exact ⟨u, same⟩
  cases n with
  | whole z => exact held rfl
  | real y =>
    obtain rfl := Except.ok.inj read
    exact held (level_of_finite finite)

end

theorem under_of_le {a b : Numeral} (le : a ≤ b) (above : ∀ i ∈ a.level, .held 0 ≤ i) {y : Float}
    (read : b.toFloat = .ok y) (finite : y.isFinite = true) : ∃ x, a.toFloat = .ok x ∧ Under x y := by
  obtain ⟨v, holds⟩ := holds_of_read (above_of_le le above) read finite
  obtain ⟨u, fewer, holdsToo⟩ := holds_of_le le above holds
  have rounded := rounded_of_holds holds read
  have bits := log2_le_of_le (roundedUnits_le fewer)
  obtain ⟨x, readToo⟩ := read_of_holds holdsToo (bits.trans (rounded.finite_iff.mp finite))
  exact ⟨x, readToo, (rounded_of_holds holdsToo readToo).under rounded (roundedUnits_le fewer) finite⟩

end Numeral
end Joinery
