import Joinery.Proofs.Duration.Bigger
import Joinery.Proofs.Keyed
import Joinery.Proofs.Product.Fresh
import Joinery.Proofs.Rates.Accepted

/-!
Larger components cost no less. The cost of the material grows with every size of a component, past the
thickness from which boards cost more, as the guessed hours of work do.
-/
namespace Joinery
open Number

structure Size.Within (s s' : Size) : Prop where
  length : s.length ≤ s'.length
  width : s.width ≤ s'.width
  thickness : s.thickness ≤ s'.thickness

structure RateTable.Unsigned (t : RateTable) : Prop where
  materials : ∀ entry ∈ t.materials, ¬ entry.2 < 0
  fallback : t.materialFallback.Unsigned

theorem RateTable.Unsigned.materialPrice_not_lt {t : RateTable} (unsigned : t.Unsigned)
    {material : Datum} {price : Float} (quoted : t.materialPrice material = .ok price) :
    ¬ price < 0 := by
  obtain ⟨name, -, found⟩ := bind_ok.mp quoted
  split at found
  · rename_i x own
    obtain rfl := Except.ok.inj found
    exact unsigned.materials (_, x) (Keyed.mem_of_get? own)
  · exact unsigned.fallback.toFloat_not_lt found

namespace Estimate

def costAt (price : Float) (s : Size) : Float :=
  let cost := s.squareMetres * price
  if Duration.thickBoard < s.thickness then cost * thickBoardCostFactor else cost

def fullMaterialCost (rates : RateTable) (c : Component) : Outcome Float :=
  (rates.materialPrice (.text c.material)).map fun price => costAt price c.size

theorem materialCost_eq (rates : RateTable) (c : Component) :
    materialCost rates c = (fullMaterialCost rates c).map roundHundredths := by
  unfold materialCost boardCost fullMaterialCost
  cases rates.materialPrice (.text c.material) <;> rfl

theorem under_of_measures {x y : Float} (first : Measure x) (second : Measure y) (le : x ≤ y) :
    Under x y :=
  under_of_units first.finite second.finite (units_nonneg first.not_lt)
    ((le_iff_units first.finite second.finite).mp le)

section
variable {s s' : Size} (valid : s.Valid) (validToo : s'.Valid) (within : s.Within s')
include valid validToo within

theorem squareMetres_under (finite : s'.squareMetres.isFinite = true) :
    Under s.squareMetres s'.squareMetres := by
  have length := under_of_measures valid.length validToo.length within.length
  have width := under_of_measures valid.width validToo.width within.width
  have area := length.mul width (finite_of_div finite).1
  exact area.div (by decide +kernel) (by decide +kernel) finite

theorem thick_of_within (thick : Duration.thickBoard < s.thickness) :
    Duration.thickBoard < s'.thickness := by
  have bounded : Duration.thickBoard.isFinite = true := by decide +kernel
  have finite := valid.thickness.finite
  have finiteToo := validToo.thickness.finite
  rw [lt_iff_units bounded finite] at thick
  rw [lt_iff_units bounded finiteToo]
  exact thick.trans_le ((le_iff_units finite finiteToo).mp within.thickness)

theorem costAt_under {price : Float} (above : ¬ price < 0)
    (finite : (costAt price s').isFinite = true) : Under (costAt price s) (costAt price s') := by
  have flat (finite : (s'.squareMetres * price).isFinite = true) :
      Under (s.squareMetres * price) (s'.squareMetres * price) := by
    obtain ⟨area, priced⟩ := finite_of_mul finite
    exact (squareMetres_under valid validToo within area).mul (under_self priced above) finite
  unfold costAt at finite ⊢
  dsimp only at finite ⊢
  -- a board that grows may become a thick one, but a thick one does not become thin
  by_cases thick : Duration.thickBoard < s'.thickness
  · rw [if_pos thick] at finite ⊢
    have under := flat (finite_of_mul finite).1
    split
    · exact under.mul (under_self (by decide +kernel) (by decide +kernel)) finite
    · exact under.stretch (by decide +kernel) (by decide +kernel) finite
  · rw [if_neg thick] at finite ⊢
    rw [if_neg fun thin => thick (thick_of_within valid validToo within thin)]
    exact flat finite

omit valid within in
theorem costAt_not_lt {price : Float} (above : ¬ price < 0) : ¬ costAt price s' < 0 := by
  have cost := mul_not_lt (squareMetres_not_lt validToo) above
  unfold costAt
  dsimp only
  split
  · exact mul_not_lt cost (by decide +kernel)
  · exact cost

end

/-- The cost of the material of a larger component bounds that of a smaller one, as long as its
hundredths can be held. -/
theorem materialCost_le {rates : RateTable} (unsigned : rates.Unsigned) {c c' : Component}
    (valid : c.size.Valid) (validToo : c'.size.Valid) (within : c.size.Within c'.size)
    (material : c.material = c'.material) {y : Float} (taken : fullMaterialCost rates c' = .ok y)
    (below : y < leastUnheld) :
    ∃ x, materialCost rates c = .ok x ∧ materialCost rates c' = .ok (roundHundredths y) ∧
      x ≤ roundHundredths y := by
  obtain ⟨price, quoted, rfl⟩ := map_ok.mp taken
  have above := unsigned.materialPrice_not_lt quoted
  have finite := finite_of_lt (costAt_not_lt validToo above) below
  have under := costAt_under valid validToo within above finite
  refine ⟨roundHundredths (costAt price c.size), ?_, ?_, under.roundHundredths_le below⟩
  · rw [materialCost_eq, fullMaterialCost, material, quoted]
    rfl
  · rw [materialCost_eq, taken]
    rfl

end Estimate

/-- Larger never costs or takes less, neither the material of a component nor the work on a piece of a
material, as long as the hundredths of the larger result can be held. Of work nothing may be below zero,
and length and width must be rounded alike on both sides. -/
theorem bigger_never_less :
    (∀ (rates : RateTable) (c c' : Component) (y : Float), rates.Unsigned → c.size.Valid →
      c'.size.Valid → c.size.Within c'.size → c.material = c'.material →
      Estimate.fullMaterialCost rates c' = .ok y → y < leastUnheld →
      ∃ x, Estimate.materialCost rates c = .ok x ∧
        Estimate.materialCost rates c' = .ok (roundHundredths y) ∧ x ≤ roundHundredths y) ∧
    ∀ (name : String) (w w' : Duration.Workpiece) (y : Float), w.Unsigned → w'.Unsigned →
      w.Within w' → Numeral.RoundsAlike w.length w.width w'.length w'.width →
      Duration.fullHours name w' = .ok y → y < leastUnheld →
      ∃ x, Duration.guessedHours name w = .ok x ∧
        Duration.guessedHours name w' = .ok (roundHundredths y) ∧ x ≤ roundHundredths y :=
  ⟨fun _ _ _ _ unsigned valid validToo within material taken below =>
    Estimate.materialCost_le unsigned valid validToo within material taken below,
    fun _ _ _ _ unsigned unsignedToo within alike taken below =>
    Duration.guessedHours_le unsigned unsignedToo within alike taken below⟩

namespace Shelf

def thickSize : Size := (Size.make (.int 700) (.real 450.5) (.int 28)).value (by decide +kernel)

def thickSide : Component := { side with size := thickSize }

def piece : Duration.Workpiece := ⟨.whole 700, .whole 300, .whole 18, .whole 4, .whole 1, "mdf"⟩

def thickPiece : Duration.Workpiece :=
  ⟨.whole 700, .real 450.5, .real 25.5, .whole 4, .real 2, "mdf"⟩

end Shelf

theorem whole_lossless {n : Int} {x : Float} (read : (Numeral.whole n).toFloat = .ok x)
    (finite : x.isFinite = true) (size : units x = n * unitsPerOne) : (Numeral.whole n).Lossless :=
  ⟨x, read, by rw [level_of_finite finite, size]; rfl⟩

theorem thick_never_less :
    (∃ x y, Estimate.materialCost .standard Shelf.side = .ok x ∧
      Estimate.materialCost .standard Shelf.thickSide = .ok y ∧ x ≤ y) ∧
    ∃ x y, Duration.guessedHours "Edge banding" Shelf.piece = .ok x ∧
      Duration.guessedHours "Edge banding" Shelf.thickPiece = .ok y ∧ x ≤ y := by
  have prices : RateTable.standard.Unsigned := ⟨by decide +kernel, by decide +kernel⟩
  have measured {s : Size} (sizes : ∀ x ∈ [s.length, s.width, s.thickness],
      x.isFinite = true ∧ ¬ x < 0) : s.Valid := by
    simp only [List.forall_mem_cons] at sizes
    obtain ⟨length, width, thickness, -⟩ := sizes
    exact ⟨measure_of_not_lt length.1 length.2, measure_of_not_lt width.1 width.2,
      measure_of_not_lt thickness.1 thickness.2⟩
  have valid : Shelf.side.size.Valid := measured (by decide +kernel)
  have validToo : Shelf.thickSide.size.Valid := measured (by decide +kernel)
  have within : Shelf.side.size.Within Shelf.thickSide.size :=
    ⟨by decide +kernel, by decide +kernel, by decide +kernel⟩
  have unsigned : Shelf.piece.Unsigned :=
    ⟨by decide +kernel, by decide +kernel, by decide +kernel, by decide +kernel⟩
  have unsignedToo : Shelf.thickPiece.Unsigned :=
    ⟨by decide +kernel, by decide +kernel, by decide +kernel, by decide +kernel⟩
  have smaller : Shelf.piece.Within Shelf.thickPiece :=
    ⟨by decide +kernel, by decide +kernel, by decide +kernel, by decide +kernel, by decide +kernel, rfl⟩
  have lossless {n : Int} (read : (Numeral.whole n).toFloat.isOk = true)
      (finite : ((Numeral.whole n).toFloat.value read).isFinite = true)
      (size : units ((Numeral.whole n).toFloat.value read) = n * unitsPerOne) :
      (Numeral.whole n).Lossless := whole_lossless (Outcome.eq_value read) finite size
  have alike : Numeral.RoundsAlike Shelf.piece.length Shelf.piece.width Shelf.thickPiece.length
      Shelf.thickPiece.width :=
    ⟨fun _ _ => ⟨lossless (by decide +kernel) (by decide +kernel) (by decide +kernel),
      lossless (by decide +kernel) (by decide +kernel) (by decide +kernel)⟩, nofun⟩
  obtain ⟨x, cost, more, costs⟩ := bigger_never_less.1 .standard Shelf.side Shelf.thickSide
    ((Estimate.fullMaterialCost .standard Shelf.thickSide).value (by decide +kernel)) prices valid
    validToo within (by decide +kernel) (Outcome.eq_value _) (by decide +kernel)
  obtain ⟨y, hours, longer, takes⟩ := bigger_never_less.2 "Edge banding" Shelf.piece Shelf.thickPiece
    ((Duration.fullHours "Edge banding" Shelf.thickPiece).value (by decide +kernel)) unsigned
    unsignedToo smaller alike (Outcome.eq_value _) (by decide +kernel)
  exact ⟨⟨x, _, cost, more, costs⟩, ⟨y, _, hours, longer, takes⟩⟩

/-- A larger piece that takes less, with hundredths that can be held. -/
def Duration.Shrinks (name : String) (w w' : Workpiece) : Prop :=
  w.Within w' ∧ ∃ x y, guessedHours name w = .ok x ∧ fullHours name w' = .ok y ∧ y < leastUnheld ∧
    roundHundredths y < x

/-- A longer piece of a width below zero takes less to be cut, and so does a piece whose length becomes
a double beside a width that is not one. -/
theorem guessedHours_shrinks :
    Duration.Shrinks "Cutting" ⟨.whole 1000, .whole (-1000), .whole 18, .whole 0, .whole 0, ""⟩
      ⟨.whole 2000, .whole (-1000), .whole 18, .whole 0, .whole 0, ""⟩ ∧
    Duration.Shrinks "Cutting"
      ⟨.whole 3, .whole 73786976294838214656, .whole 18, .whole 0, .whole 0, ""⟩
      ⟨.real 3, .whole 73786976294838214656, .whole 18, .whole 0, .whole 0, ""⟩ := by
  have shrinks {w w' : Duration.Workpiece} (within : w.Within w')
      (guessed : (Duration.guessedHours "Cutting" w).isOk = true)
      (taken : (Duration.fullHours "Cutting" w').isOk = true)
      (below : (Duration.fullHours "Cutting" w').value taken < leastUnheld)
      (less : roundHundredths ((Duration.fullHours "Cutting" w').value taken) <
        (Duration.guessedHours "Cutting" w).value guessed) : Duration.Shrinks "Cutting" w w' :=
    ⟨within, _, _, Outcome.eq_value guessed, Outcome.eq_value taken, below, less⟩
  constructor
  · refine shrinks ⟨?_, ?_, ?_, ?_, ?_, rfl⟩ ?_ ?_ ?_ ?_ <;> decide +kernel
  · refine shrinks ⟨?_, ?_, ?_, ?_, ?_, rfl⟩ ?_ ?_ ?_ ?_ <;> decide +kernel

end Joinery
