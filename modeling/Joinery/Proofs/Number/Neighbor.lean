import Joinery.Proofs.Number.Hundredths

/-!
What a number is rounded to. The sizes that doubles hold have gaps between them, and a number in a gap
is rounded to the nearer end of it, or from the middle to the end with the even mantissa. No number is
rounded to two sizes, and a larger number to no smaller size.
-/
namespace Joinery.Number

def EvenHeld (u : Nat) : Prop := ∃ m e, Fits m e ∧ m % 2 = 0 ∧ u = m * 2 ^ (e + 1074).toNat

/-- A number of units is rounded to the nearest size that a double can have, and from the middle
between two sizes to the one with the even mantissa. -/
structure RoundsTo (q : ℚ) (u : Nat) : Prop where
  held : Held u
  near : ∀ v, Held v → |q - u| ≤ |q - v|
  even : ∀ v, Held v → v ≠ u → |q - u| = |q - v| → EvenHeld u

/-! The next sizes on either side. -/

theorem fits_zero : Fits 0 (-1074) := ⟨by decide, by decide, by decide, .inr rfl⟩

theorem Held.le_below {v m k : Nat} (held : Held v) (full : 2 ^ 52 < m) (less : v < m * 2 ^ k) :
    v ≤ (m - 1) * 2 ^ k := by
  have step : m * 2 ^ k ≤ (m + 1) * 2 ^ k := Nat.mul_le_mul_right _ (Nat.le_succ m)
  rcases held.apart full with low | same | high
  · exact low
  · exact absurd same (Nat.ne_of_lt less)
  · exact absurd (Nat.le_trans step high) (Nat.not_le.mpr less)

/-- Twice the way down to the next size. Below a power of two the sizes lie twice as close. -/
def gapBelow (m : Nat) (e : Int) : Nat :=
  if m = 2 ^ 52 ∧ e ≠ -1074 then 2 ^ (e + 1074).toNat else 2 * 2 ^ (e + 1074).toNat

namespace Fits
variable {m w : Nat} {e : Int} (fits : Fits m e)
include fits

theorem held : Held (m * 2 ^ (e + 1074).toNat) := .inr ⟨m, e, fits, rfl⟩

theorem above (held : Held w) (less : m * 2 ^ (e + 1074).toNat < w) :
    (m + 1) * 2 ^ (e + 1074).toNat ≤ w := by
  rcases held.on_grid (e + 1074).toNat with ⟨g, rfl⟩ | low
  · rw [Nat.mul_comm (2 ^ (e + 1074).toNat)] at less ⊢
    exact Nat.mul_le_mul_right _ (Nat.lt_of_mul_lt_mul_right less)
  · rcases fits.full with full | rfl
    · have filled := Nat.mul_le_mul_right (2 ^ (e + 1074).toNat) full
      rw [← Nat.pow_add] at filled
      omega
    · rw [show (-1074 + 1074 : Int).toNat = 0 from rfl] at less ⊢
      omega

theorem held_above (room : e < 971) : Held ((m + 1) * 2 ^ (e + 1074).toNat) := by
  have ⟨small, least, _, full⟩ := fits
  by_cases carry : m + 1 = 2 ^ 53
  · refine .inr ⟨2 ^ 52, e + 1, ⟨by decide, by omega, by omega, .inl (Nat.le_refl _)⟩, ?_⟩
    rw [carry, show (e + 1 + 1074).toNat = (e + 1074).toNat + 1 by omega, Nat.pow_succ, Nat.pow_succ]
    ring
  · exact .inr ⟨m + 1, e, ⟨by omega, least, by omega, by omega⟩, rfl⟩

theorem below (held : Held w) (less : w < m * 2 ^ (e + 1074).toNat) :
    2 * w + gapBelow m e ≤ 2 * (m * 2 ^ (e + 1074).toNat) := by
  have ⟨_, least, _, full⟩ := fits
  unfold gapBelow
  split
  · rename_i first
    obtain ⟨j, place⟩ : ∃ j, (e + 1074).toNat = j + 1 := ⟨(e + 1074).toNat - 1, by omega⟩
    rw [first.1, place, Nat.pow_succ] at less ⊢
    rcases held.on_grid j with ⟨g, rfl⟩ | low
    · have fewer : g < 2 ^ 53 := by
        apply Nat.lt_of_mul_lt_mul_left (a := 2 ^ j)
        omega
      have step := Nat.mul_le_mul_left (2 ^ j) (Nat.succ_le_of_lt fewer)
      rw [Nat.mul_succ] at step
      omega
    · rw [Nat.pow_add] at low
      have some := Nat.two_pow_pos j
      omega
  · rename_i inner
    have full : 2 ^ 52 < m ∨ e = -1074 := by omega
    rcases full with full | rfl
    · generalize (e + 1074).toNat = k at *
      have filled := Nat.mul_le_mul_right (2 ^ k) (Nat.succ_le_of_lt full)
      rw [Nat.succ_mul, ← Nat.pow_add] at filled
      rcases held.on_grid k with ⟨g, rfl⟩ | low
      · rw [Nat.mul_comm (2 ^ k)] at less ⊢
        have step := Nat.mul_le_mul_right (2 ^ k) (Nat.lt_of_mul_lt_mul_right less)
        rw [Nat.succ_mul] at step
        omega
      · omega
    · rw [show (-1074 + 1074 : Int).toNat = 0 from rfl] at less ⊢
      omega

theorem held_below (positive : 0 < m) :
    ∃ w, Held w ∧ 2 * w + gapBelow m e = 2 * (m * 2 ^ (e + 1074).toNat) := by
  have ⟨small, least, most, full⟩ := fits
  unfold gapBelow
  split
  · rename_i first
    obtain ⟨rfl, coarse⟩ := first
    refine ⟨(2 ^ 53 - 1) * 2 ^ (e - 1 + 1074).toNat,
      .inr ⟨2 ^ 53 - 1, e - 1, ⟨by decide, by omega, by omega, .inl (by decide)⟩, rfl⟩, ?_⟩
    rw [show (e + 1074).toNat = (e - 1 + 1074).toNat + 1 by omega, Nat.pow_succ]
    omega
  · rename_i inner
    refine ⟨(m - 1) * 2 ^ (e + 1074).toNat,
      .inr ⟨m - 1, e, ⟨by omega, least, most, by omega⟩, rfl⟩, ?_⟩
    obtain ⟨n, rfl⟩ := Nat.exists_eq_add_of_le' positive
    rw [Nat.add_sub_cancel]
    ring

end Fits

/-! Which of two sizes is nearer. -/

section
variable {q u v : ℚ}

theorem near_iff : |q - u| ≤ |q - v| ↔ 0 ≤ (u - v) * (2 * q - (u + v)) := by
  have squares : (u - v) * (2 * q - (u + v)) = (q - v) ^ 2 - (q - u) ^ 2 := by ring
  rw [squares, sub_nonneg, sq_le_sq]

theorem near_iff_of_gt (more : v < u) : |q - u| ≤ |q - v| ↔ u + v ≤ 2 * q := by
  rw [near_iff, mul_nonneg_iff_of_pos_left (sub_pos.mpr more), sub_nonneg]

theorem near_iff_of_lt (less : u < v) : |q - u| ≤ |q - v| ↔ 2 * q ≤ u + v := by
  have swapped : (u - v) * (2 * q - (u + v)) = (v - u) * (u + v - 2 * q) := by ring
  rw [near_iff, swapped, mul_nonneg_iff_of_pos_left (sub_pos.mpr less), sub_nonneg]

theorem half_of_alike (different : u ≠ v) (alike : |q - u| = |q - v|) : 2 * q = u + v := by
  rcases lt_or_gt_of_ne different with less | more
  · have first := (near_iff_of_lt less).mp alike.le
    have second := (near_iff_of_gt less).mp alike.ge
    linarith
  · have first := (near_iff_of_gt more).mp alike.le
    have second := (near_iff_of_lt more).mp alike.ge
    linarith

end

namespace RoundsTo
variable {q r : ℚ} {u v : Nat}

theorem not_lt_of_alike (first : RoundsTo q u) (second : RoundsTo q v)
    (alike : |q - u| = |q - v|) : ¬ u < v := by
  intro less
  have apart : (u : ℚ) ≠ v := by exact_mod_cast Nat.ne_of_lt less
  have half := half_of_alike apart alike
  -- both mantissas are even, but the size above the lower one has an odd mantissa
  obtain ⟨m, e, fits, even, rfl⟩ := first.even v second.held (Nat.ne_of_gt less) alike
  obtain ⟨n, k, other, evenToo, same⟩ := second.even _ first.held (Nat.ne_of_lt less) alike.symm
  have next := fits.above second.held less
  have step : m * 2 ^ (e + 1074).toNat < (m + 1) * 2 ^ (e + 1074).toNat :=
    Nat.mul_lt_mul_of_pos_right (Nat.lt_succ_self m) (Nat.two_pow_pos _)
  have odd : Fits (m + 1) e := by
    have ⟨small, least, most, full⟩ := fits
    exact ⟨by omega, least, most, by omega⟩
  rcases Nat.lt_or_eq_of_le next with between | next
  · have nearer := first.near _ odd.held
    rw [near_iff_of_lt (by exact_mod_cast step), half] at nearer
    have beyond : (((m + 1) * 2 ^ (e + 1074).toNat : Nat) : ℚ) < v := by exact_mod_cast between
    linarith
  · obtain ⟨rfl, -⟩ := odd.unique other (next.trans same)
    omega

theorem unique (first : RoundsTo q u) (second : RoundsTo q v) : u = v := by
  have alike := le_antisymm (first.near v second.held) (second.near u first.held)
  exact Nat.le_antisymm (Nat.not_lt.mp (second.not_lt_of_alike first alike.symm))
    (Nat.not_lt.mp (first.not_lt_of_alike second alike))

theorem mono (first : RoundsTo q u) (second : RoundsTo r v) (le : q ≤ r) : u ≤ v := by
  by_contra more
  have less : (v : ℚ) < u := by exact_mod_cast Nat.not_le.mp more
  have low := (near_iff_of_gt less).mp (first.near v second.held)
  have high := (near_iff_of_lt less).mp (second.near u first.held)
  obtain rfl : q = r := le_antisymm le (by linarith)
  exact more (Nat.le_of_eq (first.unique second))

end RoundsTo

/-! What a quotient is rounded to. -/

theorem roundHalfEven_even {num den : Nat} (some : 0 < den)
    (half : 2 * (((den * roundHalfEven num den : Nat) : Int) - num).natAbs = den) :
    roundHalfEven num den % 2 = 0 := by
  have whole := Nat.div_add_mod num den
  have small : num % den < den := Nat.mod_lt num some
  have next : den * (num / den + 1) = den * (num / den) + den := Nat.mul_succ _ _
  simp only [roundHalfEven] at half ⊢
  split
  · rename_i less
    rw [if_pos less] at half
    omega
  · rename_i atLeast
    split
    · omega
    · rename_i other
      rw [if_neg atLeast, if_neg other] at half
      omega

theorem fits_of_carried {r k : Nat} (full : 2 ^ 52 ≤ r) (most : r ≤ 2 ^ 53) (place : k ≤ 2044) :
    ∃ m e, Fits m e ∧ (r % 2 = 0 → m % 2 = 0) ∧ r * 2 ^ k = m * 2 ^ (e + 1074).toNat := by
  rcases Nat.lt_or_eq_of_le most with small | rfl
  · refine ⟨r, k - 1074, ⟨small, by omega, by omega, .inl full⟩, id, ?_⟩
    rw [show (k - 1074 + 1074 : Int).toNat = k by omega]
  · have fits : Fits (2 ^ 52) (k + 1 - 1074) :=
      ⟨by decide, by omega, by omega, .inl (Nat.le_refl _)⟩
    refine ⟨2 ^ 52, k + 1 - 1074, fits, ?_, ?_⟩
    · decide
    · rw [show (k + 1 - 1074 + 1074 : Int).toNat = k + 1 by omega, Nat.pow_succ, Nat.pow_succ]
      ring

theorem distance_eq (num u : Nat) {den : Nat} (some : 0 < den) :
    |(num : ℚ) / den - u| = ((((den * u : Nat) : Int) - num).natAbs : ℚ) / den := by
  have positive : (0 : ℚ) < den := by exact_mod_cast some
  have apart : (num : ℚ) / den - u = -(den * u - num) / den := by
    field_simp
    ring
  rw [apart, abs_div, abs_neg, abs_of_pos positive, Nat.cast_natAbs, Int.cast_abs]
  push_cast
  rfl

/-- A quotient with enough places is rounded to the nearest size. -/
theorem roundsTo_quotient {num den : Nat} (some : 0 < den) (long : 52 ≤ (num / den).log2)
    (most : (num / den).log2 ≤ 2096) : RoundsTo ((num : ℚ) / den) (roundedQuotient num den) := by
  have positive : (0 : ℚ) < den := by exact_mod_cast some
  have step : 0 < den * 2 ^ ((num / den).log2 - 52) := Nat.mul_pos some (Nat.two_pow_pos _)
  have grid := grid_le long
  have same : den * roundedQuotient num den = den * 2 ^ ((num / den).log2 - 52) *
      roundHalfEven num (den * 2 ^ ((num / den).log2 - 52)) := by
    rw [roundedQuotient]
    ac_rfl
  have full : 2 ^ 52 ≤ roundHalfEven num (den * 2 ^ ((num / den).log2 - 52)) := by
    refine Nat.le_trans ?_ (le_roundHalfEven _ _)
    rw [← Nat.div_div_eq_div_mul]
    exact le_div_log2 long
  have carried : roundHalfEven num (den * 2 ^ ((num / den).log2 - 52)) ≤ 2 ^ 53 := by
    refine Nat.le_trans (roundHalfEven_le _ _) ?_
    rw [← Nat.div_div_eq_div_mul]
    exact div_log2_lt _
  obtain ⟨m, e, fits, even, size⟩ :=
    fits_of_carried full carried (k := (num / den).log2 - 52) (by omega)
  rw [← roundedQuotient] at size
  refine ⟨size ▸ fits.held, fun v held => ?_, fun v held different alike => ?_⟩
  · rw [distance_eq _ _ some, distance_eq _ _ some, div_le_div_iff_of_pos_right positive, Nat.cast_le,
      same]
    rcases held.on_grid_of some ((num / den).log2 - 52) with ⟨g, on⟩ | under
    · rw [on]
      exact roundHalfEven_nearest num step g
    · have nearest := roundHalfEven_nearest num step (2 ^ 52)
      omega
  · refine ⟨m, e, fits, even ?_, size⟩
    rw [distance_eq _ _ some, distance_eq _ _ some, div_left_inj' positive.ne', Nat.cast_inj] at alike
    -- two sizes as near as each other lie on the grid of the quotient, half a step to either side
    by_contra odd
    refine absurd alike (Nat.ne_of_lt (roundedQuotient_nearest some long ?_ held different))
    rw [same]
    exact fun half => odd (roundHalfEven_even step half)

/-! The numbers that are rounded to one size. -/

/-- The numbers from the middle of one gap to the middle of the next, with both middles if the mantissa
between them is even. -/
def Around (m : Nat) (e : Int) (q : ℚ) : Prop :=
  let size : ℚ := (m * 2 ^ (e + 1074).toNat : Nat)
  let step : ℚ := (2 ^ (e + 1074).toNat : Nat)
  if m % 2 = 0 then 4 * size - gapBelow m e ≤ 4 * q ∧ 4 * q ≤ 4 * size + 2 * step
  else 4 * size - gapBelow m e < 4 * q ∧ 4 * q < 4 * size + 2 * step

namespace Fits
variable {m : Nat} {e : Int} {q : ℚ} (fits : Fits m e)
include fits

theorem even_of_evenHeld (even : EvenHeld (m * 2 ^ (e + 1074).toNat)) : m % 2 = 0 := by
  obtain ⟨n, k, other, even, same⟩ := even
  obtain ⟨rfl, -⟩ := fits.unique other same
  exact even

theorem roundsTo_of_around (around : Around m e q) : RoundsTo q (m * 2 ^ (e + 1074).toNat) := by
  have lower {v : Nat} (held : Held v) (less : v < m * 2 ^ (e + 1074).toNat) :
      2 * (v : ℚ) + gapBelow m e ≤ 2 * (m * 2 ^ (e + 1074).toNat : Nat) := by
    exact_mod_cast fits.below held less
  have upper {v : Nat} (held : Held v) (more : m * 2 ^ (e + 1074).toNat < v) :
      ((m * 2 ^ (e + 1074).toNat : Nat) : ℚ) + (2 ^ (e + 1074).toNat : Nat) ≤ v := by
    have next := fits.above held more
    rw [Nat.succ_mul] at next
    exact_mod_cast next
  unfold Around at around
  dsimp only at around
  refine ⟨fits.held, fun v held => ?_, fun v held different alike => ?_⟩
  · have ends : 4 * ((m * 2 ^ (e + 1074).toNat : Nat) : ℚ) - gapBelow m e ≤ 4 * q ∧
        4 * q ≤ 4 * (m * 2 ^ (e + 1074).toNat : Nat) + 2 * (2 ^ (e + 1074).toNat : Nat) := by
      split at around
      · exact around
      · exact ⟨around.1.le, around.2.le⟩
    rcases Nat.lt_trichotomy v (m * 2 ^ (e + 1074).toNat) with less | rfl | more
    · rw [near_iff_of_gt (by exact_mod_cast less)]
      linarith [lower held less]
    · exact le_refl _
    · rw [near_iff_of_lt (by exact_mod_cast more)]
      linarith [upper held more]
  · by_cases even : m % 2 = 0
    · exact ⟨m, e, fits, even, rfl⟩
    · rw [if_neg even] at around
      have half := half_of_alike (by exact_mod_cast different.symm) alike
      rcases Nat.lt_or_gt_of_ne different with less | more
      · linarith [lower held less]
      · linarith [upper held more]

theorem around_of_roundsTo (positive : 0 < m) (room : e < 971)
    (rounds : RoundsTo q (m * 2 ^ (e + 1074).toNat)) : Around m e q := by
  obtain ⟨w, held, below⟩ := fits.held_below positive
  have above := fits.held_above room
  have gap : 0 < gapBelow m e := by
    have some := Nat.two_pow_pos (e + 1074).toNat
    unfold gapBelow
    split <;> omega
  have step := Nat.two_pow_pos (e + 1074).toNat
  rw [Nat.succ_mul] at above
  have less : (w : ℚ) < (m * 2 ^ (e + 1074).toNat : Nat) := by
    exact_mod_cast (by omega : w < m * 2 ^ (e + 1074).toNat)
  have more : ((m * 2 ^ (e + 1074).toNat : Nat) : ℚ) <
      (m * 2 ^ (e + 1074).toNat + 2 ^ (e + 1074).toNat : Nat) := by
    exact_mod_cast Nat.lt_add_of_pos_right step
  have low := (near_iff_of_gt less).mp (rounds.near w held)
  have high := (near_iff_of_lt more).mp (rounds.near _ above)
  have down : 2 * (w : ℚ) + gapBelow m e = 2 * (m * 2 ^ (e + 1074).toNat : Nat) := by
    exact_mod_cast below
  rw [Nat.cast_add] at high more
  unfold Around
  dsimp only
  split
  · constructor <;> linarith
  · rename_i odd
    -- on the middle of a gap the mantissa would have to be even
    constructor
    · refine lt_of_le_of_ne (by linarith) fun middle => odd (fits.even_of_evenHeld ?_)
      refine rounds.even w held (by exact_mod_cast less.ne) (le_antisymm ?_ ?_)
      · exact (near_iff_of_gt less).mpr low
      · exact (near_iff_of_lt less).mpr (by linarith)
    · refine lt_of_le_of_ne (by linarith) fun middle => odd (fits.even_of_evenHeld ?_)
      refine rounds.even _ above (by omega) (le_antisymm ?_ ?_) <;> rw [Nat.cast_add]
      · exact (near_iff_of_lt more).mpr high
      · exact (near_iff_of_gt more).mpr (by linarith)

end Fits

theorem roundsTo_zero : RoundsTo 0 0 := by
  refine ⟨.inl rfl, fun v _ => ?_, fun v _ _ _ => ⟨0, -1074, fits_zero, rfl, rfl⟩⟩
  rw [Nat.cast_zero, sub_zero, abs_zero]
  exact abs_nonneg _

theorem roundsTo_centUnits {n : Nat} (held : n < hundredthsLimit) :
    RoundsTo (n * unitsPerOne / 100) (centUnits n) := by
  rcases Nat.eq_zero_or_pos n with rfl | some
  · rw [centUnits_zero, Nat.cast_zero, zero_mul, zero_div]
    exact roundsTo_zero
  · have digits := log2_le_of_held held
    have places := log2_cents_le n
    have rounds := roundsTo_quotient Nat.ofNat_pos (long_cents some) (by omega)
    rw [Nat.cast_mul] at rounds
    rwa [unitsPerOne_eq, Int.cast_natCast, centUnits]

end Joinery.Number
