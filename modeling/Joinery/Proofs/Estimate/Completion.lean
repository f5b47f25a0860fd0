import Joinery.Proofs.Estimate.Portion
import Joinery.Proofs.Number.Unsigned

/-!
Completion in percent. It is rounded to hundredths, so that a share within half a hundredth of all or
of none counts as all or as none. The two shares that are just half a hundredth away go up.
-/
namespace Joinery

namespace Number

theorem roundHundredths_of_size {x : Float} (above : ¬ x < 0) :
    roundHundredths x = (Decimal.mk (heldHundredths x) (-2)).toFloat := by
  rw [roundHundredths, if_neg (by simp [above])]

theorem zero_lt_decimal_iff {n : Nat} (held : n < hundredthsLimit) :
    0 < (Decimal.mk n (-2)).toFloat ↔ n ≠ 0 := by
  constructor
  · rintro above rfl
    exact absurd above (by decide +kernel)
  · intro some
    obtain ⟨finite, same⟩ := units_toFloat held
    apply zero_lt_of_units finite
    have error := centUnits_error n
    have one := unitsPerOne_pos
    have filled : unitsPerOne.natAbs ≤ n * unitsPerOne.natAbs :=
      Nat.le_mul_of_pos_left _ (Nat.pos_of_ne_zero some)
    rw [same]
    by_contra none
    obtain none : centUnits n = 0 := by omega
    have size : ((n : Int) * unitsPerOne).natAbs = n * unitsPerOne.natAbs := Int.natAbs_mul ..
    rw [none] at error
    simp only [Int.natCast_zero, Int.mul_zero, Int.sub_zero, size] at error
    omega

theorem hundred_le_decimal_iff {n : Nat} (most : n ≤ 10000) :
    100 ≤ (Decimal.mk n (-2)).toFloat ↔ n = 10000 := by
  constructor
  · intro full
    by_contra less
    have hundred : units (100 : Float) = 100 * unitsPerOne := by decide +kernel
    obtain ⟨finite, same⟩ := units_toFloat (Nat.lt_of_le_of_lt most (by decide))
    have least := units_le_of_le (by decide +kernel) finite full
    have error := centUnits_error n
    have one := unitsPerOne_pos
    have share : n * unitsPerOne.natAbs ≤ 9999 * unitsPerOne.natAbs :=
      Nat.mul_le_mul_right _ (by omega)
    have size : ((n : Int) * unitsPerOne).natAbs = n * unitsPerOne.natAbs := Int.natAbs_mul ..
    rw [hundred, same] at least
    omega
  · rintro rfl
    decide +kernel

end Number

namespace Estimate
open Number
open Float.Model

theorem Holds.not_lt {x : Float} {u : Nat} (holds : Holds x u) : ¬ x < 0 := by
  obtain ⟨positive, shape⟩ := holds.shape
  rw [unsigned_iff, shape]
  rfl

theorem zero_over {m : Nat} {e : Int} (positive : 0 < m) :
    UnpackedFloat.div .binary64 (.zero .positive) (.finite .positive m e positive) =
      .zero .positive := rfl

theorem unpack_no_share {n : Nat} (some : 0 < n) (few : n < 2 ^ 63) :
    (ratio 0 n * 100).toModel.unpack = .zero .positive := by
  have bits := log2_of_few some few
  obtain ⟨positive, shape⟩ := (holds_whole some (by omega)).shape
  have divided : (ratio 0 n).toModel.unpack = .zero .positive := by
    change (Float.Model.pack (UnpackedFloat.div .binary64 (nearest 0 0).toModel.unpack
      (nearest n 0).toModel.unpack)).unpack = _
    have zero : (nearest 0 0).toModel.unpack = .zero .positive := by
      change (Float.Model.pack (UnpackedFloat.normalize .binary64 0 0 .positive)).unpack = _
      rw [normalize_eq, if_pos rfl]
      rfl
    rw [shape, zero, zero_over positive]
    rfl
  change (Float.Model.pack (UnpackedFloat.mul .binary64 (ratio 0 n).toModel.unpack
    (100 : Float).toModel.unpack)).unpack = _
  rw [divided]
  rfl

theorem completion_of_none {n : Nat} (some : 0 < n) (few : n < 2 ^ 63) :
    roundHundredths (ratio 0 n * 100) = 0 := by
  have alike : Alike (ratio 0 n * 100) 0 := by
    rw [Alike, unpack_no_share some few]
    exact .same _
  rw [alike.roundHundredths]
  decide +kernel

namespace Part
variable {k n : Nat} (part : Part k n)
include part

theorem heldHundredths_le : heldHundredths (ratio k n * 100) ≤ 10000 := by
  have some := part.some
  have le := part.le
  rw [part.heldHundredths_eq]
  exact part.hundredths_le (by omega)

theorem full_iff : heldHundredths (ratio k n * 100) = 10000 ↔ 19999 * n ≤ 20000 * k := by
  have most := part.heldHundredths_le
  rcases Nat.lt_trichotomy (20000 * k) (19999 * n) with less | tie | more
  · have below := part.hundredths_le (c := 9999) (by omega)
    rw [← part.heldHundredths_eq] at below
    omega
  · obtain ⟨j, rfl⟩ : ∃ j, k = 19999 * j := ⟨k / 19999, by omega⟩
    obtain rfl : n = 20000 * j := by omega
    have same := heldHundredths_scaled ⟨by decide, by decide, by decide⟩ part
    have full : heldHundredths (ratio 19999 20000 * 100) = 10000 := by decide +kernel
    rw [same, full]
    omega
  · have above := part.lt_hundredths (c := 9999) (by omega)
    rw [← part.heldHundredths_eq] at above
    omega

theorem none_iff : heldHundredths (ratio k n * 100) = 0 ↔ 20000 * k < n := by
  rcases Nat.lt_trichotomy (20000 * k) n with less | rfl | more
  · have below := part.hundredths_le (c := 0) (by omega)
    rw [← part.heldHundredths_eq] at below
    omega
  · have one : Part (1 * k) (20000 * k) := by rwa [Nat.one_mul]
    have same := heldHundredths_scaled ⟨by decide, by decide, by decide⟩ one
    have some : heldHundredths (ratio 1 20000 * 100) = 1 := by decide +kernel
    rw [Nat.one_mul] at same
    rw [same, some]
    omega
  · have above := part.lt_hundredths (c := 0) (by omega)
    rw [← part.heldHundredths_eq] at above
    omega

theorem hundred_le_iff : 100 ≤ roundHundredths (ratio k n * 100) ↔ 19999 * n ≤ 20000 * k := by
  rw [roundHundredths_of_size part.holds_percent.not_lt, hundred_le_decimal_iff part.heldHundredths_le,
    part.full_iff]

theorem zero_lt_iff : 0 < roundHundredths (ratio k n * 100) ↔ n ≤ 20000 * k := by
  have held := Nat.lt_of_le_of_lt part.heldHundredths_le (by decide : 10000 < hundredthsLimit)
  rw [roundHundredths_of_size part.holds_percent.not_lt, zero_lt_decimal_iff held, Ne, part.none_iff, Nat.not_lt]

end Part

theorem completion_bounds {statuses : List Progress} (few : statuses.length < 2 ^ 36) :
    (100 ≤ completion statuses ↔ statuses ≠ [] ∧
      19999 * statuses.length ≤ 20000 * statuses.count .completed) ∧
    (0 < completion statuses ↔ statuses ≠ [] ∧ statuses.length ≤ 20000 * statuses.count .completed) := by
  have nothing : ¬ (100 : Float) ≤ 0 ∧ ¬ (0 : Float) < 0 := by decide +kernel
  cases statuses with
  | nil => simpa [completion] using nothing
  | cons s rest =>
    have rounded : completion (s :: rest) =
        roundHundredths (ratio ((s :: rest).count .completed) (s :: rest).length * 100) := rfl
    have length : 0 < (s :: rest).length := Nat.zero_lt_succ _
    have le : (s :: rest).count .completed ≤ (s :: rest).length := List.count_le_length
    rw [rounded]
    generalize (s :: rest).count .completed = k at *
    generalize (s :: rest).length = n at *
    rcases Nat.eq_zero_or_pos k with rfl | some
    · rw [completion_of_none length (by omega)]
      constructor
      · exact iff_of_false nothing.1 (by omega)
      · exact iff_of_false nothing.2 (by omega)
    · have part : Part k n := ⟨some, le, few⟩
      simp [part.hundred_le_iff, part.zero_lt_iff]

end Estimate

end Joinery
