import Joinery.Proofs.Number.Cents

/-!
The shortest decimal of a double lies in the basin of the double, half a step of a mantissa away at
most. A double that is near enough to a whole number of hundredths is therefore rounded to it.
-/
namespace Joinery.Number
open Float.Model
open Float.Model.UnpackedFloat (Sign)

theorem Basin.bounds_of_holds {b : Basin} {n : Nat} (holds : b.holds n = true) :
    b.low ≤ n ∧ n ≤ b.high := by
  unfold Basin.holds at holds
  split at holds
  · simpa using holds
  · have strict : b.low < n ∧ n < b.high := by simpa using holds
    omega

theorem Basin.holds_onGrid {b : Basin} {place n : Nat} (found : b.onGrid? place = some n) :
    b.holds (n * gridStep place) = true := by
  unfold Basin.onGrid? at found
  generalize gridStep place = step at *
  dsimp only at found
  generalize b.middle / step = below at *
  split at found
  · cases found
  · rename_i low high
    cases found
    exact low
  · rename_i low high
    cases found
    exact high
  · rename_i low high
    split at found
    · cases found
      exact low
    · split at found
      · cases found
        rcases Nat.mod_two_eq_zero_or_one below with even | odd
        · rw [even, Nat.add_zero]
          exact low
        · rw [odd]
          exact high
      · cases found
        exact high

theorem gridStep_pos (place : Nat) : 0 < gridStep place :=
  Nat.mul_pos (Nat.pow_pos (by decide)) (Nat.two_pow_pos 1076)

/-- The decimal that is found is in the basin, or on the finest grid next to the middle. -/
theorem Basin.shortestFrom_eq (b : Basin) (place : Nat) :
    ∃ d p : Nat, b.shortestFrom place = ⟨d, p - finestPlace⟩ ∧
      (b.holds (d * gridStep p) = true ∨
        p = 0 ∧ d * gridStep p ≤ b.middle ∧ b.middle < d * gridStep p + gridStep p) := by
  induction place with
  | zero =>
    refine ⟨b.middle / gridStep 0, 0, ?_, Or.inr ⟨rfl, Nat.div_mul_le_self _ _, ?_⟩⟩
    · rw [Basin.shortestFrom, Int.natCast_zero, Int.zero_sub]
    · exact Nat.lt_div_mul_add (gridStep_pos 0)
  | succ place ih =>
    simp only [Basin.shortestFrom]
    split
    · rename_i n found
      exact ⟨n, place + 1, rfl, Or.inl (Basin.holds_onGrid found)⟩
    · exact ih

theorem basin_bounds {m : Nat} {e : Int} (positive : 0 < m) {n : Nat}
    (holds : (basin m e).holds n = true) :
    (((n : Int) - (basin m e).middle)).natAbs ≤ 2 * (2 ^ (e + 1074).toNat * 10 ^ finestPlace) := by
  obtain ⟨low, high⟩ := Basin.bounds_of_holds holds
  simp only [basin] at low high ⊢
  generalize 2 ^ (e + 1074).toNat * 10 ^ finestPlace = quarter at *
  have some : 4 * quarter ≤ 4 * m * quarter := Nat.mul_le_mul_right _ (by omega)
  split at low <;> omega

theorem middle_eq (m : Nat) (e : Int) :
    (basin m e).middle = 4 * (m * 2 ^ (e + 1074).toNat * 10 ^ finestPlace) := by
  rw [basin]
  ac_rfl

theorem shortest_near {x : Float} (finite : x.isFinite = true) :
    ∃ d p : Nat, shortest x = ⟨d, p - finestPlace⟩ ∧
      2 ^ 53 * (((d * gridStep p : Nat) : Int) -
        (4 * ((units x).natAbs * 10 ^ finestPlace) : Nat)).natAbs ≤
      4 * (((units x).natAbs + 2 ^ 52) * 10 ^ finestPlace) + 2 ^ 53 * gridStep 0 := by
  rcases shape_of_finite finite with ⟨s, shape⟩ | ⟨s, m, e, positive, shape⟩
  · refine ⟨0, finestPlace, ?_, ?_⟩
    · simp only [shortest, shape]
      rw [Int.sub_self]
    · rw [units_of_zero shape, Nat.zero_mul, Int.natAbs_zero, Nat.zero_mul]
      exact Nat.zero_le _
  · obtain ⟨d, p, found, spot⟩ := (basin m e).shortestFrom_eq
      (digitCount ((basin m e).middle / gridStep 0))
    have shortest : shortest x = (basin m e).shortest := by simp only [shortest, shape]
    refine ⟨d, p, by rw [shortest, Basin.shortest, found], ?_⟩
    have fits := fits_of_unpack shape
    rw [units_of_finite shape, natAbs_apply, ← middle_eq]
    rcases spot with holds | ⟨rfl, low, high⟩
    · have bounds := basin_bounds positive holds
      have half : 2 ^ 52 * 2 ^ (e + 1074).toNat ≤ m * 2 ^ (e + 1074).toNat + 2 ^ 52 := by
        rcases fits.full with full | rfl
        · exact Nat.le_add_right_of_le (Nat.mul_le_mul_right _ full)
        · exact Nat.le_add_left _ _
      have share := Nat.mul_le_mul_right (10 ^ finestPlace) half
      rw [Nat.mul_assoc] at share
      omega
    · omega

/-- A decimal is rounded to at most so many hundredths as long as it is less than half a hundredth
above them. -/
theorem Decimal.hundredths_le_iff {d p k c : Nat} :
    (Decimal.mk d (p - (k + 2 : Nat))).hundredths ≤ c ↔
      2 * (100 * (d * 10 ^ p)) < (2 * c + 1) * (100 * 10 ^ k) := by
  rw [Decimal.hundredths]
  dsimp only
  by_cases coarse : k ≤ p
  · obtain ⟨j, rfl⟩ := Nat.exists_eq_add_of_le coarse
    have whole : 2 * (100 * (d * 10 ^ (k + j))) = 2 * (d * 10 ^ j) * (100 * 10 ^ k) := by
      rw [Nat.pow_add]
      ac_rfl
    rw [if_pos (by omega), show ((k + j : Nat) - (k + 2 : Nat) + 2 : Int).toNat = j by omega, whole,
      Nat.mul_lt_mul_right (by positivity)]
    omega
  · obtain ⟨j, rfl⟩ := Nat.exists_eq_add_of_le (Nat.le_of_not_le coarse)
    have parts : (2 * c + 1) * (100 * 10 ^ (p + j)) = (2 * c + 1) * 10 ^ j * (100 * 10 ^ p) := by
      rw [Nat.pow_add]
      ac_rfl
    have whole : 2 * (100 * (d * 10 ^ p)) = 2 * d * (100 * 10 ^ p) := by ac_rfl
    rw [if_neg (by omega), show (-(p - (p + j + 2 : Nat) + 2 : Int)).toNat = j by omega, whole, parts,
      Nat.mul_lt_mul_right (by positivity), roundHalfUp, ← Nat.lt_add_one_iff,
      Nat.div_lt_iff_lt_mul (by positivity)]
    have split : (c + 1) * (2 * 10 ^ j) = (2 * c + 1) * 10 ^ j + 10 ^ j := by ring
    omega

theorem Decimal.hundredths_eq {d p k n : Nat}
    (near : 2 * (((100 * (d * 10 ^ p) : Nat) : Int) - (n * (100 * 10 ^ k) : Nat)).natAbs < 100 * 10 ^ k) :
    (Decimal.mk d (p - (k + 2 : Nat))).hundredths = n := by
  have above : (2 * n + 1) * (100 * 10 ^ k) = 2 * (n * (100 * 10 ^ k)) + 100 * 10 ^ k := by ring
  have most : (Decimal.mk d (p - (k + 2 : Nat))).hundredths ≤ n :=
    hundredths_le_iff.mpr (by omega)
  have least : ¬ (Decimal.mk d (p - (k + 2 : Nat))).hundredths + 1 ≤ n := by
    intro fewer
    have below := hundredths_le_iff.mp (Nat.le_sub_one_of_lt fewer)
    have steps : (2 * (n - 1) + 1) * (100 * 10 ^ k) + 100 * 10 ^ k = 2 * (n * (100 * 10 ^ k)) := by
      obtain ⟨m, rfl⟩ := Nat.exists_eq_add_of_le' (Nat.le_trans (Nat.le_add_left 1 _) fewer)
      rw [Nat.add_sub_cancel]
      ring
    omega
  omega

theorem gridStep_eq (place : Nat) : gridStep place = 4 * (10 ^ place * unitsPerOne.natAbs) := by
  have fourfold (k : Nat) : 10 ^ place * 2 ^ (2 + k) = 4 * (10 ^ place * 2 ^ k) := by
    rw [Nat.pow_add, Nat.mul_left_comm]
  rw [gridStep, natAbs_unitsPerOne, show 1076 = 2 + 1074 from rfl]
  exact fourfold 1074

theorem finest_grid : 2 ^ 20 ≤ 10 ^ finestPlace ∧ 2 ^ 72 ≤ unitsPerOne.natAbs := by
  have wide {k : Nat} (le : 72 ≤ k) : 2 ^ 72 ≤ 2 ^ k := Nat.pow_le_pow_right (by decide) le
  constructor
  · exact Nat.le_trans (by decide : 2 ^ 20 ≤ 10 ^ 7) (Nat.pow_le_pow_right (by decide) (by decide))
  · rw [natAbs_unitsPerOne]
    generalize same : 1074 = k
    exact wide (by omega)

/-- A decimal near to what is near to a number of hundredths is near to them, too. Here the decimal is
a multiple of the finest step, and `one` and `finest` are how units and such steps are counted. -/
theorem decimal_near {a u n one finest : Nat} (most : n ≤ 2 ^ 48)
    (near : 4 * (((100 * u : Nat) : Int) - (n * one : Nat)).natAbs ≤ one)
    (error : 2 ^ 53 * (((a * one : Nat) : Int) - (u * finest : Nat)).natAbs ≤
      (u + 2 ^ 52) * finest + 2 ^ 53 * one)
    (fine : 2 ^ 20 ≤ finest) (small : 2 ^ 72 ≤ one) :
    2 * (((100 * a : Nat) : Int) - (n * finest : Nat)).natAbs < finest := by
  have cents : 4 * (((100 * u * finest : Nat) : Int) - (n * one * finest : Nat)).natAbs ≤
      one * finest := by
    rw [natAbs_scaled, ← Nat.mul_assoc]
    exact Nat.mul_le_mul_right finest near
  have share : n * (one * finest) ≤ 2 ^ 48 * (one * finest) := Nat.mul_le_mul_right _ most
  have few : 2 ^ 72 * finest ≤ one * finest := Nat.mul_le_mul_right _ small
  have fewToo : 2 ^ 20 * one ≤ one * finest := by
    rw [Nat.mul_comm]
    exact Nat.mul_le_mul_left _ fine
  -- a quarter for what is held, a 32nd for the basin, and next to nothing for the finest step
  have scaled : 2 * (((100 * a * one : Nat) : Int) - (n * finest * one : Nat)).natAbs < finest * one := by
    rw [Nat.mul_assoc n finest, Nat.mul_comm finest one, Nat.mul_assoc 100]
    rw [Nat.mul_assoc n one, Nat.mul_assoc 100] at cents
    rw [Nat.add_mul] at error
    omega
  rw [natAbs_scaled, ← Nat.mul_assoc] at scaled
  exact Nat.lt_of_mul_lt_mul_right scaled

theorem shortest_steps {x : Float} (finite : x.isFinite = true) :
    ∃ d p : Nat, shortest x = ⟨d, p - finestPlace⟩ ∧
      2 ^ 53 * (((d * 10 ^ p * unitsPerOne.natAbs : Nat) : Int) -
        ((units x).natAbs * 10 ^ finestPlace : Nat)).natAbs ≤
      ((units x).natAbs + 2 ^ 52) * 10 ^ finestPlace + 2 ^ 53 * unitsPerOne.natAbs := by
  obtain ⟨d, p, found, error⟩ := shortest_near finite
  refine ⟨d, p, found, ?_⟩
  rw [gridStep_eq, gridStep_eq, Nat.mul_left_comm d 4, Nat.pow_zero, Nat.one_mul, ← Nat.mul_assoc d]
    at error
  omega

theorem heldHundredths_eq {x : Float} {n : Nat} (finite : x.isFinite = true) (most : n ≤ 2 ^ 48)
    (near : 4 * (((100 * (units x).natAbs : Nat) : Int) - (n * unitsPerOne.natAbs : Nat)).natAbs ≤
      unitsPerOne.natAbs) : heldHundredths x = n := by
  obtain ⟨d, p, found, error⟩ := shortest_steps finite
  obtain ⟨fine, small⟩ := finest_grid
  have places {k : Nat} (same : finestPlace = k + 2) : 10 ^ finestPlace = 100 * 10 ^ k := by
    rw [same, Nat.pow_add, Nat.mul_comm]
  have hundredths : (shortest x).hundredths = n := by
    rw [found]
    apply Decimal.hundredths_eq (k := 398)
    rw [← places rfl]
    exact decimal_near most near error fine small
  have held : n < hundredthsLimit := Nat.lt_of_le_of_lt most (by decide)
  rw [heldHundredths, hundredths, if_pos held]

theorem units_zero : units 0 = 0 := units_of_zero (s := .positive) rfl

theorem lt_zero_iff {x : Float} (finite : x.isFinite = true) : x < 0 ↔ units x < 0 := by
  rw [← units_zero]
  exact lt_iff_units finite rfl

theorem zero_lt_of_units {x : Float} (finite : x.isFinite = true) (above : 0 < units x) : 0 < x :=
  lt_of_units_lt rfl finite (units_zero ▸ above)

theorem roundedCents_eq {x : Float} {n : Int} (finite : x.isFinite = true) (most : n.natAbs ≤ 2 ^ 48)
    (near : 4 * (n * unitsPerOne - 100 * units x).natAbs ≤ unitsPerOne.natAbs) :
    roundedCents x = n := by
  have one := unitsPerOne_pos
  have size : n.natAbs * unitsPerOne.natAbs = (n * unitsPerOne).natAbs := (Int.natAbs_mul ..).symm
  have held : heldHundredths x = n.natAbs := by
    apply heldHundredths_eq finite most
    rw [size]
    omega
  rw [roundedCents, held]
  by_cases below : x < 0
  · have negative := (lt_zero_iff finite).mp below
    have notAbove : ¬ 0 < n := by
      intro above
      have filled : 1 * unitsPerOne ≤ n * unitsPerOne :=
        Int.mul_le_mul_of_nonneg_right above (Int.le_of_lt one)
      omega
    rw [if_pos below]
    omega
  · have natural := (lt_zero_iff finite).not.mp below
    have notBelow : ¬ n < 0 := by
      intro under
      have filled : n * unitsPerOne ≤ -1 * unitsPerOne :=
        Int.mul_le_mul_of_nonneg_right (by omega) (Int.le_of_lt one)
      omega
    rw [if_neg below]
    omega

theorem holds_of_near {x : Float} {n : Int} (finite : x.isFinite = true) (most : n.natAbs ≤ 2 ^ 48)
    (near : 4 * (n * unitsPerOne - 100 * units x).natAbs ≤ unitsPerOne.natAbs) :
    HoldsCents n (roundHundredths x) := by
  have holds := holds_roundHundredths x
  rwa [roundedCents_eq finite most near] at holds

end Joinery.Number
