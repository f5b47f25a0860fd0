import Joinery.Proofs.Datum.Order
import Joinery.Proofs.Duration.Unsigned

/-!
Larger pieces take no less. Guessed hours grow with every size and every count of a piece of work, and
no jump of a factor turns the order around. Whole numbers are multiplied and added exactly and doubles
are rounded, so that length and width must be of a kind that rounds alike on both sides.
-/
namespace Joinery
open Number

namespace Numeral

theorem Unsigned.level {n : Numeral} (unsigned : n.Unsigned) : ∀ i ∈ n.level, .held 0 ≤ i := by
  intro i found
  cases n with
  | whole z =>
    obtain rfl := Option.some.inj found
    exact Level.held_le_held.mpr (Int.mul_nonneg unsigned unitsPerOne_pos.le)
  | real x =>
    by_contra less
    refine unsigned (lt_iff_level.mpr ⟨i, found, .held 0, ?_, not_le.mp less⟩)
    rw [level_of_finite measure_zero.finite, units_zero]
    rfl

/-! Sums and products. -/

def exact : Numeral → Numeral → Bool
  | .whole _, .whole _ => true
  | _, _ => false

/-- A number that is read as a double without a loss. -/
def Lossless (n : Numeral) : Prop := ∃ x, n.toFloat = .ok x ∧ Number.level x = n.level

/-- Neither operation shrinks when an operand grows, and on doubles it is the one on whole numbers,
rounded once. -/
structure Growing (f : Int → Int → Int) (g : Float → Float → Float) : Prop where
  exact {a b a' b' : Int} : 0 ≤ a → 0 ≤ b → a ≤ a' → b ≤ b' → 0 ≤ f a b ∧ f a b ≤ f a' b'
  under {x y x' y' : Float} : Under x x' → Under y y' → (g x' y').isFinite = true →
    Under (g x y) (g x' y')
  finite {x y : Float} : (g x y).isFinite = true → x.isFinite = true ∧ y.isFinite = true
  rounded {x y : Float} {a b : Nat} : Sized x (a * unitsPerOne.natAbs) →
    Sized y (b * unitsPerOne.natAbs) →
    Rounded (g x y) (roundedUnits ((f a b).natAbs * unitsPerOne.natAbs))

theorem growing_times : Growing (· * ·) (· * ·) where
  exact first second le le' :=
    ⟨Int.mul_nonneg first second, Int.mul_le_mul le le' second (first.trans le)⟩
  under := Under.mul
  finite := finite_of_mul
  rounded {x y a b} first second := by
    have some : 0 < unitsPerOne.natAbs := Int.natAbs_pos.mpr unitsPerOne_pos.ne'
    have same (one : Nat) : a * one * (b * one) = ((a : Int) * b).natAbs * one * one := by
      rw [Int.natAbs_mul, Int.natAbs_natCast, Int.natAbs_natCast]
      ac_rfl
    have rounded := first.mul second
    rwa [same, roundedQuotient_whole _ some] at rounded

theorem growing_plus : Growing (· + ·) (· + ·) where
  exact first second le le' := ⟨Int.add_nonneg first second, Int.add_le_add le le'⟩
  under := Under.add
  finite := finite_of_add
  rounded {x y a b} first second := by
    have rounded := first.add second
    rwa [← Nat.add_mul, ← Int.natAbs_natCast (a + b), Int.natCast_add] at rounded

theorem exact_iff {a b : Numeral} : exact a b = true ↔ ∃ m n, a = .whole m ∧ b = .whole n := by
  cases a <;> cases b <;> simp [exact]

section
variable {f : Int → Int → Int} {g : Float → Float → Float} {a b : Numeral}

theorem combine_inexact (inexact : exact a b = false) :
    combine f g a b = do return .real (g (← a.toFloat) (← b.toFloat)) := by
  cases a <;> cases b <;> first | rfl | cases inexact

theorem whole_holds (n : Nat) : Holds (.whole n) (n * unitsPerOne.natAbs) := by
  simp only [Holds, level, Int.natCast_mul, Int.natAbs_of_nonneg unitsPerOne_pos.le]

theorem Lossless.sized {m : Nat} (lossless : (whole m).Lossless) :
    ∃ x, (whole m).toFloat = .ok x ∧ Sized x (m * unitsPerOne.natAbs) := by
  obtain ⟨x, read, same⟩ := lossless
  obtain ⟨finite, size⟩ := finite_of_level (same.trans (whole_holds m))
  exact ⟨x, read, finite, size⟩

theorem combine_lossless (growing : Growing f g) (above : a.Unsigned) (aboveToo : b.Unsigned)
    (whole : exact a b = true) (first : a.Lossless) (second : b.Lossless) :
    ∃ n u x y, combine f g a b = .ok n ∧ n.Holds u ∧ a.toFloat = .ok x ∧ b.toFloat = .ok y ∧
      x.isFinite = true ∧ y.isFinite = true ∧ Rounded (g x y) (roundedUnits u) := by
  obtain ⟨m, n, rfl, rfl⟩ := exact_iff.mp whole
  obtain ⟨m, rfl⟩ := Int.eq_ofNat_of_zero_le above
  obtain ⟨n, rfl⟩ := Int.eq_ofNat_of_zero_le aboveToo
  obtain ⟨x, read, sized⟩ := first.sized
  obtain ⟨y, readToo, sizedToo⟩ := second.sized
  have natural := (growing.exact above aboveToo le_rfl le_rfl).1
  refine ⟨.whole (f m n), (f m n).natAbs * unitsPerOne.natAbs, x, y, rfl, ?_, read, readToo,
    sized.finite, sizedToo.finite, growing.rounded sized sizedToo⟩
  have holds := whole_holds (f m n).natAbs
  rwa [Int.natAbs_of_nonneg natural] at holds

/-- Where only one of two pairs is exact, it is so without a loss for doubles. -/
structure RoundsAlike (a b a' b' : Numeral) : Prop where
  first : exact a b = true → exact a' b' = false → a.Lossless ∧ b.Lossless
  second : exact a' b' = true → exact a b = false → a'.Lossless ∧ b'.Lossless

theorem whole_le {m n : Int} (le : Numeral.whole m ≤ .whole n) : m ≤ n := by
  rcases le with below | agrees
  · exact (of_decide_eq_true below).le
  · exact (eq_of_beq agrees).le

theorem whole_le_of_le {m n : Int} (le : m ≤ n) : Numeral.whole m ≤ .whole n := by
  rcases le.lt_or_eq with less | rfl
  · exact .inl (decide_eq_true less)
  · exact .inr (beq_self_eq_true m)

theorem read_under {n : Numeral} {u : Nat} {x : Float} (holds : n.Holds u)
    (rounded : Rounded x (roundedUnits u)) (finite : x.isFinite = true) :
    ∃ z, n.toFloat = .ok z ∧ Under z x := by
  obtain ⟨z, read⟩ := read_of_holds holds (rounded.finite_iff.mp finite)
  exact ⟨z, read, (rounded_of_holds holds read).under rounded le_rfl finite⟩

section
variable {a' b' n' : Numeral} {z' : Float} (growing : Growing f g) (alike : RoundsAlike a b a' b')
  (above : a.Unsigned) (aboveToo : b.Unsigned) (le : a ≤ a') (leToo : b ≤ b')
  (result : combine f g a' b' = .ok n') (read : n'.toFloat = .ok z') (finite : z'.isFinite = true)
include growing alike above aboveToo le leToo result read finite

theorem combine_under_double (inexact : exact a' b' = false) :
    ∃ n z, combine f g a b = .ok n ∧ n.toFloat = .ok z ∧ Under z z' := by
  rw [combine_inexact inexact] at result
  obtain ⟨x', readX', rest⟩ := bind_ok.mp result
  obtain ⟨y', readY', same⟩ := bind_ok.mp rest
  obtain rfl := Except.ok.inj same
  obtain rfl := Except.ok.inj read
  obtain ⟨finiteX, finiteY⟩ := growing.finite finite
  obtain ⟨x, readX, underX⟩ := under_of_le le above.level readX' finiteX
  obtain ⟨y, readY, underY⟩ := under_of_le leToo aboveToo.level readY' finiteY
  have under := growing.under underX underY finite
  cases whole : exact a b with
  | false =>
    refine ⟨.real (g x y), g x y, ?_, rfl, under⟩
    rw [combine_inexact whole, readX, readY]
    rfl
  | true =>
    obtain ⟨first, second⟩ := alike.first whole inexact
    obtain ⟨n, u, x₀, y₀, result, holds, readX₀, readY₀, -, -, rounded⟩ :=
      combine_lossless growing above aboveToo whole first second
    obtain rfl := Except.ok.inj (readX.symm.trans readX₀)
    obtain rfl := Except.ok.inj (readY.symm.trans readY₀)
    obtain ⟨z, readZ, same⟩ := read_under holds rounded under.finite
    exact ⟨n, z, result, readZ, same.trans under⟩

theorem combine_under_whole (aboveB : a'.Unsigned) (aboveB' : b'.Unsigned)
    (whole' : exact a' b' = true) :
    ∃ n z, combine f g a b = .ok n ∧ n.toFloat = .ok z ∧ Under z z' := by
  cases whole : exact a b with
  | false =>
    -- the smaller operands are doubles, so that the larger ones are taken for the doubles they are
    obtain ⟨first, second⟩ := alike.second whole' whole
    obtain ⟨n, u, x', y', result', holds, readX', readY', finiteX, finiteY, rounded⟩ :=
      combine_lossless growing aboveB aboveB' whole' first second
    obtain rfl := Except.ok.inj (result.symm.trans result')
    obtain ⟨x, readX, underX⟩ := under_of_le le above.level readX' finiteX
    obtain ⟨y, readY, underY⟩ := under_of_le leToo aboveToo.level readY' finiteY
    have other := rounded_of_holds holds read
    have finite' := rounded.finite_iff.mpr (other.finite_iff.mp finite)
    refine ⟨.real (g x y), g x y, ?_, rfl, ?_⟩
    · rw [combine_inexact whole, readX, readY]
      rfl
    · exact (growing.under underX underY finite').trans (rounded.under other le_rfl finite)
  | true =>
    obtain ⟨m, n, rfl, rfl⟩ := exact_iff.mp whole
    obtain ⟨m', n', rfl, rfl⟩ := exact_iff.mp whole'
    obtain rfl := Except.ok.inj result
    obtain ⟨natural, more⟩ := growing.exact above aboveToo (whole_le le) (whole_le leToo)
    have natural : (Numeral.whole (f m n)).Unsigned := natural
    obtain ⟨z, read, under⟩ := under_of_le (whole_le_of_le more) natural.level read finite
    exact ⟨_, z, rfl, read, under⟩

theorem combine_under (aboveB : a'.Unsigned) (aboveB' : b'.Unsigned) :
    ∃ n z, combine f g a b = .ok n ∧ n.toFloat = .ok z ∧ Under z z' := by
  cases whole : exact a' b' with
  | false => exact combine_under_double growing alike above aboveToo le leToo result read finite whole
  | true =>
    exact combine_under_whole growing alike above aboveToo le leToo result read finite aboveB aboveB'
      whole

end
end
end Numeral

namespace Duration

/-- A finite value of the second bounds the value of the first. -/
def Bounded (o o' : Outcome Float) : Prop :=
  ∀ y, o' = .ok y → y.isFinite = true → ∃ x, o = .ok x ∧ Under x y

theorem Bounded.apply {o o' : Outcome Float} (bounded : Bounded o o') {f f' : Float → Float}
    (finite : ∀ y, (f' y).isFinite = true → y.isFinite = true)
    (under : ∀ x y, Under x y → (f' y).isFinite = true → Under (f x) (f' y)) :
    Bounded (do return f (← o)) (do return f' (← o')) := by
  intro z result finiteZ
  obtain ⟨y, found, same⟩ := bind_ok.mp result
  obtain rfl := Except.ok.inj same
  obtain ⟨x, less, order⟩ := bounded y found (finite y finiteZ)
  exact ⟨f x, bind_ok.mpr ⟨x, less, rfl⟩, under x y order finiteZ⟩

theorem bounded_toFloat {n n' : Numeral} (above : n.Unsigned) (le : n ≤ n') :
    Bounded n.toFloat n'.toFloat := fun _ => Numeral.under_of_le le above.level

theorem Bounded.mul {o o' : Outcome Float} (bounded : Bounded o o') {c c' : Float}
    (factor : Under c c') : Bounded (do return (← o) * c) (do return (← o') * c') :=
  bounded.apply (fun _ finite => (finite_of_mul finite).1) fun _ _ under => under.mul factor

def fullHours (name : String) (w : Workpiece) : Outcome Float := do
  return (← baseHours (Work.ofName? name) w) * thicknessFactor w.thickness * materialFactor w.material

theorem guessedHours_eq (name : String) (w : Workpiece) :
    guessedHours name w = (fullHours name w).map roundHundredths := by
  unfold guessedHours fullHours
  cases baseHours (Work.ofName? name) w <;> rfl

/-- No larger in any size or count, and of the same material. -/
structure Workpiece.Within (w w' : Workpiece) : Prop where
  length : w.length ≤ w'.length
  width : w.width ≤ w'.width
  thickness : w.thickness ≤ w'.thickness
  holes : w.holes ≤ w'.holes
  edges : w.edges ≤ w'.edges
  material : w.material = w'.material

theorem workHours_under (work : Work) : Under work.baseHours work.baseHours :=
  under_self (by cases work <;> decide +kernel) (workHours_not_lt work)

theorem thicknessFactor_under {t t' : Numeral} (le : t ≤ t') :
    Under (thicknessFactor t) (thicknessFactor t') := by
  have under {x y : Float} (order : x.isFinite = true ∧ y.isFinite = true ∧ 0 ≤ units x ∧
      units x ≤ units y) : Under x y :=
    under_of_units order.1 order.2.1 order.2.2.1 order.2.2.2
  unfold thicknessFactor
  split
  · rename_i thick
    rw [if_pos (Numeral.below_of_le thick le)]
    exact under (by decide +kernel)
  · split <;> exact under (by decide +kernel)

theorem materialFactor_under (material : String) :
    Under (materialFactor material) (materialFactor material) := by
  refine under_self ?_ (materialFactor_not_lt material)
  unfold materialFactor
  dsimp only
  split
  · decide +kernel
  · split <;> decide +kernel

section
variable {w w' : Workpiece} (unsigned : w.Unsigned) (unsignedToo : w'.Unsigned) (within : w.Within w')
  (alike : Numeral.RoundsAlike w.length w.width w'.length w'.width)
include unsigned unsignedToo within alike

theorem squareMetres_bounded : Bounded w.squareMetres w'.squareMetres := by
  intro z result finite
  obtain ⟨area', product, rest⟩ := bind_ok.mp result
  obtain ⟨y, read, same⟩ := bind_ok.mp rest
  obtain rfl := Except.ok.inj same
  rw [Numeral.times_eq] at product
  obtain ⟨area, x, product, read, under⟩ := Numeral.combine_under Numeral.growing_times alike
    unsigned.length unsigned.width within.length within.width product read (finite_of_div finite).1
    unsignedToo.length unsignedToo.width
  rw [← Numeral.times_eq] at product
  exact ⟨x / 1000000, bind_ok.mpr ⟨area, product, bind_ok.mpr ⟨x, read, rfl⟩⟩,
    under.div (by decide +kernel) (by decide +kernel) finite⟩

theorem edgeMetres_bounded : Bounded w.edgeMetres w'.edgeMetres := by
  intro z result finite
  obtain ⟨half', sum, rest⟩ := bind_ok.mp result
  obtain ⟨y, read, same⟩ := bind_ok.mp rest
  obtain rfl := Except.ok.inj same
  rw [Numeral.plus_eq] at sum
  have finiteTwice := (finite_of_div finite).1
  obtain ⟨half, x, sum, read, under⟩ := Numeral.combine_under Numeral.growing_plus alike
    unsigned.length unsigned.width within.length within.width sum read (finite_of_mul finiteTwice).2
    unsignedToo.length unsignedToo.width
  rw [← Numeral.plus_eq] at sum
  have two : Under 2 2 := under_self (by decide +kernel) (by decide +kernel)
  exact ⟨2 * x / 1000, bind_ok.mpr ⟨half, sum, bind_ok.mpr ⟨x, read, rfl⟩⟩,
    (two.mul under finiteTwice).div (by decide +kernel) (by decide +kernel) finite⟩

theorem baseHours_bounded (work : Option Work) : Bounded (baseHours work w) (baseHours work w') := by
  have byArea (work : Work) := (squareMetres_bounded unsigned unsignedToo within alike).mul
    (workHours_under work)
  cases work with
  | none =>
    intro z result finite
    obtain rfl := Except.ok.inj result
    exact ⟨usualHours, rfl, under_self finite (by decide +kernel)⟩
  | some work =>
    cases work with
    | edge =>
      intro z result finite
      obtain ⟨metres', measured, rest⟩ := bind_ok.mp result
      obtain ⟨edges', read, same⟩ := bind_ok.mp rest
      obtain rfl := Except.ok.inj same
      obtain ⟨finiteMetres, finiteEdges⟩ := finite_of_mul finite
      obtain ⟨metres, measured, under⟩ := edgeMetres_bounded unsigned unsignedToo within alike metres'
        measured (finite_of_mul finiteMetres).1
      obtain ⟨edges, read, underToo⟩ :=
        bounded_toFloat unsigned.edges within.edges edges' read finiteEdges
      exact ⟨_, bind_ok.mpr ⟨metres, measured, bind_ok.mpr ⟨edges, read, rfl⟩⟩,
        (under.mul (workHours_under .edge) finiteMetres).mul underToo finite⟩
    | drill => exact (bounded_toFloat unsigned.holes within.holes).mul (workHours_under .drill)
    | cut => exact byArea .cut
    | assemble => exact byArea .assemble
    | sand => exact byArea .sand
    | paint => exact byArea .paint

theorem fullHours_bounded (name : String) : Bounded (fullHours name w) (fullHours name w') := by
  have base := baseHours_bounded unsigned unsignedToo within alike (Work.ofName? name)
  have thickness := thicknessFactor_under within.thickness
  have material := materialFactor_under w.material
  unfold fullHours
  rw [← within.material]
  exact base.apply (fun _ finite => (finite_of_mul (finite_of_mul finite).1).1) fun _ _ under finite =>
    (under.mul thickness (finite_of_mul finite).1).mul material finite

omit unsigned within alike in
theorem fullHours_not_lt {name : String} {y : Float} (taken : fullHours name w' = .ok y) : ¬ y < 0 := by
  obtain ⟨hours, base, same⟩ := bind_ok.mp taken
  obtain rfl := Except.ok.inj same
  exact mul_not_lt (mul_not_lt (baseHours_not_lt unsignedToo base)
    (thicknessFactor_not_lt w'.thickness)) (materialFactor_not_lt w'.material)

/-- The hours guessed for a larger piece bound those for a smaller one, as long as their hundredths can
be held. -/
theorem guessedHours_le {name : String} {y : Float} (taken : fullHours name w' = .ok y)
    (below : y < leastUnheld) :
    ∃ x, guessedHours name w = .ok x ∧ guessedHours name w' = .ok (roundHundredths y) ∧
      x ≤ roundHundredths y := by
  have finite := finite_of_lt (fullHours_not_lt unsignedToo taken) below
  obtain ⟨x, less, under⟩ := fullHours_bounded unsigned unsignedToo within alike name y taken finite
  refine ⟨roundHundredths x, ?_, ?_, under.roundHundredths_le below⟩
  · rw [guessedHours_eq, less]
    rfl
  · rw [guessedHours_eq, taken]
    rfl

end
end Duration
end Joinery
