import Joinery.Proofs.Number.Neighbor

/-!
The decimals that read back as a double. They are the points of its basin, and the shortest decimal is
the point nearest to the double on the coarsest decimal grid that has one in the basin.
-/
namespace Joinery.Number

namespace Basin
variable {b : Basin}

/-- The basin as an interval. -/
def Contains (b : Basin) (g : ℚ) : Prop :=
  if b.closed then b.low ≤ g ∧ g ≤ b.high else b.low < g ∧ g < b.high

theorem contains_iff {n : Nat} : b.Contains n ↔ b.holds n = true := by
  unfold Contains holds
  split <;> simp

theorem Contains.between {f g h : ℚ} (low : b.Contains f) (high : b.Contains h) (above : f ≤ g)
    (below : g ≤ h) : b.Contains g := by
  unfold Contains at *
  split at low
  · rename_i closed
    rw [if_pos closed] at high ⊢
    exact ⟨low.1.trans above, below.trans high.2⟩
  · rename_i apart
    rw [if_neg apart] at high ⊢
    exact ⟨low.1.trans_le above, below.trans_lt high.2⟩

theorem holds_between {i n j : Nat} (low : b.holds i = true) (high : b.holds j = true) (above : i ≤ n)
    (below : n ≤ j) : b.holds n = true :=
  contains_iff.mp ((contains_iff.mpr low).between (contains_iff.mpr high) (Nat.cast_le.mpr above)
    (Nat.cast_le.mpr below))

/-- The two neighbours of the middle are the candidates, and the nearer one is taken if both are in the
basin. -/
theorem onGrid?_cases {place n : Nat} (found : b.onGrid? place = some n) :
    (n = b.middle / gridStep place ∧
      (b.holds ((b.middle / gridStep place + 1) * gridStep place) = true →
        2 * (b.middle % gridStep place) ≤ gridStep place)) ∨
    (n = b.middle / gridStep place + 1 ∧
      (b.holds (b.middle / gridStep place * gridStep place) = true →
        gridStep place ≤ 2 * (b.middle % gridStep place))) := by
  unfold onGrid? at found
  dsimp only at found
  generalize gridStep place = step at *
  generalize b.middle / step = below at *
  split at found
  · cases found
  · rename_i low high
    cases found
    exact .inl ⟨rfl, fun other => absurd other (by rw [high]; decide)⟩
  · rename_i low high
    cases found
    exact .inr ⟨rfl, fun other => absurd other (by rw [low]; decide)⟩
  · split at found
    · cases found
      exact .inl ⟨rfl, fun _ => by omega⟩
    · split at found
      · cases found
        rcases Nat.mod_two_eq_zero_or_one below with even | odd
        · exact .inl ⟨by rw [even, Nat.add_zero], fun _ => by omega⟩
        · exact .inr ⟨by rw [odd], fun _ => by omega⟩
      · cases found
        exact .inr ⟨rfl, fun _ => by omega⟩

section
variable {place : Nat} (center : b.holds b.middle = true)
include center

theorem holds_below {j : Nat} (held : b.holds (j * gridStep place) = true)
    (le : j ≤ b.middle / gridStep place) :
    b.holds (b.middle / gridStep place * gridStep place) = true :=
  holds_between held center (Nat.mul_le_mul_right _ le) (Nat.div_mul_le_self _ _)

theorem holds_above {j : Nat} (held : b.holds (j * gridStep place) = true)
    (more : b.middle / gridStep place < j) :
    b.holds ((b.middle / gridStep place + 1) * gridStep place) = true := by
  refine holds_between center held ?_ (Nat.mul_le_mul_right _ more)
  rw [Nat.succ_mul]
  exact Nat.le_of_lt (Nat.lt_div_mul_add (gridStep_pos place))

theorem not_holds_of_none (none : b.onGrid? place = none) (j : Nat) :
    b.holds (j * gridStep place) = false := by
  unfold onGrid? at none
  dsimp only at none
  split at none
  · rename_i low high
    by_contra held
    rw [Bool.not_eq_false] at held
    rcases Nat.lt_or_ge (b.middle / gridStep place) j with more | le
    · exact absurd (holds_above center held more) (by rw [high]; decide)
    · exact absurd (holds_below center held le) (by rw [low]; decide)
  · cases none
  · cases none
  · split at none
    · cases none
    · split at none <;> cases none

/-- The point that is taken is the nearest one in the basin. -/
theorem nearest_of_onGrid? {n j : Nat} (found : b.onGrid? place = some n)
    (held : b.holds (j * gridStep place) = true) :
    (((n * gridStep place : Nat) : Int) - b.middle).natAbs ≤
      (((j * gridStep place : Nat) : Int) - b.middle).natAbs := by
  have whole : b.middle / gridStep place * gridStep place + b.middle % gridStep place = b.middle :=
    Nat.div_add_mod' _ _
  have rest : b.middle % gridStep place < gridStep place := Nat.mod_lt _ (gridStep_pos place)
  rcases Nat.lt_or_ge (b.middle / gridStep place) j with more | le
  · have far := Nat.mul_le_mul_right (gridStep place) (Nat.succ_le_of_lt more)
    rw [Nat.succ_mul] at far
    rcases onGrid?_cases found with ⟨rfl, nearer⟩ | ⟨rfl, -⟩
    · have half := nearer (holds_above center held more)
      omega
    · rw [Nat.succ_mul]
      omega
  · have far := Nat.mul_le_mul_right (gridStep place) le
    rcases onGrid?_cases found with ⟨rfl, -⟩ | ⟨rfl, nearer⟩
    · omega
    · have half := nearer (holds_below center held le)
      rw [Nat.succ_mul]
      omega

end

/-- The coarsest grid with a point in the basin is the one that is found. -/
theorem shortestFrom_found {place : Nat}
    (some : ∃ p, 0 < p ∧ p ≤ place ∧ b.onGrid? p ≠ none) :
    ∃ d p : Nat, b.shortestFrom place = ⟨d, p - finestPlace⟩ ∧ b.onGrid? p = .some d ∧
      ∀ above, p < above → above ≤ place → b.onGrid? above = none := by
  induction place with
  | zero =>
    obtain ⟨p, positive, le, -⟩ := some
    omega
  | succ place ih =>
    simp only [shortestFrom]
    split
    · rename_i n found
      exact ⟨n, place + 1, rfl, found, fun above more le => by omega⟩
    · rename_i none
      obtain ⟨p, positive, le, point⟩ := some
      have lower : p ≠ place + 1 := by
        rintro rfl
        exact point none
      obtain ⟨d, q, same, found, coarser⟩ := ih ⟨p, positive, by omega, point⟩
      refine ⟨d, q, same, found, fun above more le => ?_⟩
      rcases Nat.lt_or_eq_of_le le with below | rfl
      · exact coarser above more (by omega)
      · exact none

/-- The nearest of the points that the coarsest grid with any has in the basin. -/
structure Coarsest (b : Basin) (d p : Nat) : Prop where
  held : b.holds (d * gridStep p) = true
  coarser : ∀ above, p < above → ∀ j, b.holds (j * gridStep above) = false
  nearest : ∀ j, b.holds (j * gridStep p) = true →
    (((d * gridStep p : Nat) : Int) - b.middle).natAbs ≤
      (((j * gridStep p : Nat) : Int) - b.middle).natAbs

end Basin

theorem digitCount_pos (n : Nat) : 0 < digitCount n := Nat.length_toDigits_pos

theorem digitCount_le_iff {n k : Nat} (some : 0 < k) : digitCount n ≤ k ↔ n < 10 ^ k :=
  Nat.length_toDigits_le_iff (by decide) some

/-! The basin of a double. -/

theorem gridStep_scaled (i place : Nat) : gridStep (place + i) = 10 ^ i * gridStep place := by
  rw [gridStep, gridStep, ← Nat.mul_assoc, ← Nat.pow_add, Nat.add_comm]

section
variable {m : Nat} {e : Int} (positive : 0 < m)
include positive

theorem basin_sides :
    (basin m e).low + 2 ^ (e + 1074).toNat * 10 ^ finestPlace ≤ (basin m e).middle ∧
      (basin m e).middle < (basin m e).high ∧ (basin m e).high < 2 * (basin m e).middle ∧
      0 < (basin m e).low := by
  have some : 0 < 2 ^ (e + 1074).toNat * 10 ^ finestPlace :=
    Nat.mul_pos (Nat.two_pow_pos _) (Nat.pow_pos (by decide))
  simp only [basin]
  generalize 2 ^ (e + 1074).toNat * 10 ^ finestPlace = quarter at *
  have filled : 4 * quarter ≤ 4 * m * quarter := Nat.mul_le_mul_right _ (by omega)
  split <;> omega

theorem basin_center : (basin m e).holds (basin m e).middle = true := by
  obtain ⟨low, high, -, -⟩ := basin_sides (e := e) positive
  have some : 0 < 2 ^ (e + 1074).toNat * 10 ^ finestPlace :=
    Nat.mul_pos (Nat.two_pow_pos _) (Nat.pow_pos (by decide))
  have less : (basin m e).low < (basin m e).middle := by omega
  unfold Basin.holds
  split <;> simp [less, high, less.le, high.le]

theorem not_holds_zero : (basin m e).holds 0 = false := by
  obtain ⟨-, -, -, some⟩ := basin_sides (e := e) positive
  unfold Basin.holds
  split
  · simpa using Nat.ne_of_gt some
  · simp

/-- Even the second finest grid has a point in every basin. -/
theorem onGrid?_one : (basin m e).onGrid? 1 ≠ none := by
  intro none
  have missed := Basin.not_holds_of_none (basin_center positive) none
    ((basin m e).middle / gridStep 1)
  have step : gridStep 1 < 2 ^ (e + 1074).toNat * 10 ^ finestPlace := by
    rw [gridStep_eq]
    calc 4 * (10 ^ 1 * unitsPerOne.natAbs) ≤ 200 * (2 ^ 53 * unitsPerOne.natAbs) := by omega
      _ < 10 ^ finestPlace := finest_step
      _ ≤ 2 ^ (e + 1074).toNat * 10 ^ finestPlace := Nat.le_mul_of_pos_left _ (Nat.two_pow_pos _)
  have below := Nat.lt_div_mul_add (a := (basin m e).middle) (gridStep_pos 1)
  have above := Nat.div_mul_le_self (basin m e).middle (gridStep 1)
  obtain ⟨low, high, -, -⟩ := basin_sides (e := e) positive
  have held : (basin m e).holds ((basin m e).middle / gridStep 1 * gridStep 1) = true := by
    unfold Basin.holds
    split <;> simp <;> omega
  rw [missed] at held
  cases held

theorem not_holds_coarse {place : Nat} (coarse : digitCount ((basin m e).middle / gridStep 0) < place)
    (j : Nat) : (basin m e).holds (j * gridStep place) = false := by
  obtain ⟨-, -, high, -⟩ := basin_sides (e := e) positive
  rcases Nat.eq_zero_or_pos j with rfl | some
  · rw [Nat.zero_mul]
    exact not_holds_zero positive
  · have digits : (basin m e).middle / gridStep 0 <
        10 ^ digitCount ((basin m e).middle / gridStep 0) :=
      (digitCount_le_iff (digitCount_pos _)).mp (Nat.le_refl _)
    generalize digitCount ((basin m e).middle / gridStep 0) = count at *
    rw [Nat.div_lt_iff_lt_mul (gridStep_pos 0), ← gridStep_scaled, Nat.zero_add] at digits
    obtain ⟨i, rfl⟩ := Nat.exists_eq_add_of_lt coarse
    have wide : 10 * gridStep count ≤ j * gridStep (count + i + 1) := by
      rw [Nat.add_assoc, gridStep_scaled, Nat.pow_succ', Nat.mul_assoc,
        Nat.mul_left_comm j]
      refine Nat.mul_le_mul_left 10 ?_
      rw [← Nat.mul_assoc]
      exact Nat.le_mul_of_pos_left _ (Nat.mul_pos some (Nat.pow_pos (by decide)))
    by_contra held
    rw [Bool.not_eq_false] at held
    obtain ⟨-, most⟩ := Basin.bounds_of_holds held
    omega

theorem shortest_spec :
    ∃ d p : Nat, (basin m e).shortest = ⟨d, p - finestPlace⟩ ∧ (basin m e).Coarsest d p := by
  have center := basin_center (e := e) positive
  obtain ⟨d, p, same, found, coarser⟩ :=
    (basin m e).shortestFrom_found ⟨1, by decide, Nat.length_toDigits_pos, onGrid?_one positive⟩
  refine ⟨d, p, same, Basin.holds_onGrid found, fun above more j => ?_,
    fun j held => Basin.nearest_of_onGrid? center found held⟩
  rcases Nat.lt_or_ge (digitCount ((basin m e).middle / gridStep 0)) above with coarse | le
  · exact not_holds_coarse positive coarse j
  · exact Basin.not_holds_of_none center (coarser above more le) j

theorem basin_low : (basin m e).low + gapBelow m e * 10 ^ finestPlace =
    4 * (m * 2 ^ (e + 1074).toNat) * 10 ^ finestPlace := by
  have filled : 4 * (2 ^ (e + 1074).toNat * 10 ^ finestPlace) ≤
      4 * m * (2 ^ (e + 1074).toNat * 10 ^ finestPlace) := Nat.mul_le_mul_right _ (by omega)
  have size : 4 * (m * 2 ^ (e + 1074).toNat) * 10 ^ finestPlace =
      4 * m * (2 ^ (e + 1074).toNat * 10 ^ finestPlace) := by ac_rfl
  have twice : 2 * 2 ^ (e + 1074).toNat * 10 ^ finestPlace =
      2 * (2 ^ (e + 1074).toNat * 10 ^ finestPlace) := Nat.mul_assoc ..
  rw [size]
  simp only [basin, gapBelow]
  split
  · omega
  · rw [twice]
    omega

theorem contains_grains {q : ℚ} :
    (basin m e).Contains (4 * q * (10 ^ finestPlace : Nat)) ↔ Around m e q := by
  have grains : (0 : ℚ) < (10 ^ finestPlace : Nat) := Nat.cast_pos.mpr (Nat.pow_pos (by decide))
  have low : ((basin m e).low : ℚ) = (4 * (m * 2 ^ (e + 1074).toNat : Nat) - gapBelow m e) *
      (10 ^ finestPlace : Nat) := by
    have cast := congrArg (Nat.cast : Nat → ℚ) (basin_low (e := e) positive)
    generalize 10 ^ finestPlace = scale at *
    push_cast at cast ⊢
    linarith
  have high : ((basin m e).high : ℚ) = (4 * (m * 2 ^ (e + 1074).toNat : Nat) +
      2 * (2 ^ (e + 1074).toNat : Nat)) * (10 ^ finestPlace : Nat) := by
    simp only [basin]
    generalize 10 ^ finestPlace = scale
    push_cast
    ring
  have parity : (basin m e).closed = true ↔ m % 2 = 0 := by simp [basin]
  unfold Basin.Contains Around
  dsimp only
  rw [low, high, if_congr parity rfl rfl]
  split
  · rw [mul_le_mul_iff_left₀ grains, mul_le_mul_iff_left₀ grains]
  · rw [mul_lt_mul_iff_left₀ grains, mul_lt_mul_iff_left₀ grains]

end

/-! Decimal numbers. -/

def Decimal.value (d : Decimal) : ℚ := d.digits * 10 ^ d.exponent

theorem unitsPerOne_cast : (unitsPerOne : ℚ) = (unitsPerOne.natAbs : ℚ) := by
  have size : (unitsPerOne.natAbs : Int) = unitsPerOne := Int.natAbs_of_nonneg unitsPerOne_pos.le
  rw [← Int.cast_natCast unitsPerOne.natAbs, size]

theorem Decimal.grains (d p : Nat) :
    4 * ((Decimal.mk d (p - finestPlace)).value * unitsPerOne) * (10 ^ finestPlace : Nat) =
      (d * gridStep p : Nat) := by
  have scale : (10 : ℚ) ^ finestPlace ≠ 0 := pow_ne_zero _ (by norm_num)
  rw [unitsPerOne_cast, gridStep_eq, value]
  generalize unitsPerOne.natAbs = one
  generalize finestPlace = places at *
  push_cast
  rw [zpow_sub₀ (by norm_num), zpow_natCast, zpow_natCast]
  field_simp

theorem Decimal.value_nonneg (d : Decimal) : 0 ≤ d.value :=
  mul_nonneg (Nat.cast_nonneg _) (zpow_nonneg (by norm_num) _)

theorem Decimal.value_le {c : Decimal} {n : Nat} {k : Int} (digits : c.digits ≤ n)
    (place : c.exponent ≤ k) : c.value ≤ (Decimal.mk n k).value := by
  have step : (10 : ℚ) ^ c.exponent ≤ 10 ^ k := zpow_le_zpow_right₀ (by norm_num) place
  exact mul_le_mul (Nat.cast_le.mpr digits) step (by positivity) (Nat.cast_nonneg n)

section
variable {m : Nat} {e : Int} (positive : 0 < m)
include positive

theorem around_iff_holds {n p : Nat} :
    Around m e ((Decimal.mk n (p - finestPlace)).value * unitsPerOne) ↔
      (basin m e).holds (n * gridStep p) = true := by
  rw [← contains_grains positive, Decimal.grains, Basin.contains_iff]

variable {d p : Nat} (coarsest : (basin m e).Coarsest d p)
include coarsest

theorem exponent_le_place {c : Decimal} (around : Around m e (c.value * unitsPerOne)) :
    c.exponent ≤ p - finestPlace := by
  by_contra more
  obtain ⟨q, place⟩ : ∃ q : Nat, c.exponent = q - finestPlace :=
    ⟨(c.exponent + finestPlace).toNat, by omega⟩
  obtain ⟨n, k⟩ := c
  dsimp only at place more
  rw [place] at around more
  have held := (around_iff_holds positive).mp around
  have missed := coarsest.coarser q (by omega) n
  rw [held] at missed
  cases missed

/-- None has fewer digits, because between the two would be a point of a coarser grid. -/
theorem digitCount_le {c : Decimal} (around : Around m e (c.value * unitsPerOne)) :
    digitCount d ≤ digitCount c.digits := by
  by_contra fewer
  have some := digitCount_pos c.digits
  obtain ⟨i, count⟩ : ∃ i, digitCount d = i + 2 := ⟨digitCount d - 2, by omega⟩
  have more : 10 ^ (i + 1) ≤ d := by
    by_contra less
    have short := (digitCount_le_iff (Nat.succ_pos i)).mpr (Nat.not_le.mp less)
    omega
  have less : c.digits < 10 ^ (i + 1) :=
    (digitCount_le_iff (Nat.succ_pos i)).mp (by omega)
  have lower : (basin m e).Contains (4 * (c.value * unitsPerOne) * (10 ^ finestPlace : Nat)) :=
    (contains_grains positive).mpr around
  have upper := Basin.contains_iff.mpr coarsest.held
  have between := lower.between upper (g := (1 * gridStep (p + (i + 1)) : Nat)) ?_ ?_
  · have missed := coarsest.coarser (p + (i + 1)) (by omega) 1
    rw [Basin.contains_iff.mp between] at missed
    cases missed
  · rw [Nat.one_mul, gridStep_scaled, ← Decimal.grains]
    have le := Decimal.value_le less.le (exponent_le_place positive coarsest around)
    have one : (0 : ℚ) ≤ unitsPerOne := Int.cast_nonneg unitsPerOne_pos.le
    gcongr
  · rw [Nat.cast_le, Nat.one_mul, gridStep_scaled]
    exact Nat.mul_le_mul_right _ more

/-- None with the same place is nearer to what the double holds. -/
theorem nearest_value {c : Decimal} (around : Around m e (c.value * unitsPerOne))
    (place : c.exponent = p - finestPlace) :
    |(Decimal.mk d (p - finestPlace)).value * unitsPerOne - (m * 2 ^ (e + 1074).toNat : Nat)| ≤
      |c.value * unitsPerOne - (m * 2 ^ (e + 1074).toNat : Nat)| := by
  obtain ⟨n, k⟩ := c
  obtain rfl : k = p - finestPlace := place
  have near := coarsest.nearest n ((around_iff_holds positive).mp around)
  have grains : (0 : ℚ) < 4 * (10 ^ finestPlace : Nat) :=
    mul_pos (by norm_num) (Nat.cast_pos.mpr (Nat.pow_pos (by decide)))
  have counted (j : Nat) : ((((j * gridStep p : Nat) : Int) - (basin m e).middle).natAbs : ℚ) =
      |(Decimal.mk j (p - finestPlace)).value * unitsPerOne - (m * 2 ^ (e + 1074).toNat : Nat)| *
        (4 * (10 ^ finestPlace : Nat)) := by
    rw [Nat.cast_natAbs, Int.cast_abs, Int.cast_sub, Int.cast_natCast, Int.cast_natCast,
      ← Decimal.grains, middle_eq, Nat.cast_mul 4, Nat.cast_mul (m * _), ← abs_of_pos grains,
      ← abs_mul]
    congr 1
    push_cast
    ring
  rw [← @Nat.cast_le ℚ, counted, counted, mul_le_mul_iff_left₀ grains] at near
  exact near

end

end Joinery.Number
