import Joinery.Proofs.Component.Valid
import Joinery.Proofs.Duration.Environment
import Joinery.Proofs.Estimate.Totals
import Joinery.Proofs.Formula.Unsigned

/-!
Durations that are not negative. No value that a formula sees of a valid component is below zero, as
long as no parameter is, and nothing is that a guess is made from. A product of these values may still
be infinite or no number; what is left of it after rounding is a finite duration of at least zero.
-/
namespace Joinery
open Number

theorem measure_zero : Measure 0 := ⟨by decide +kernel, by decide +kernel⟩

def Numeral.Unsigned : Numeral → Prop
  | .whole n => 0 ≤ n
  | .real x => ¬ x < 0

instance : DecidablePred Numeral.Unsigned
  | .whole n => inferInstanceAs (Decidable (0 ≤ n))
  | .real x => inferInstanceAs (Decidable (¬ x < 0))

theorem Numeral.Unsigned.toFloat_not_lt {n : Numeral} (unsigned : n.Unsigned) {x : Float}
    (read : n.toFloat = .ok x) : ¬ x < 0 := by
  cases n with
  | whole z =>
    simp only [toFloat] at read
    split at read
    · rename_i y held
      obtain rfl := Except.ok.inj read
      exact ofInt?_not_lt unsigned held
    · cases read
  | real y =>
    obtain rfl := Except.ok.inj read
    exact unsigned

theorem Numeral.unsigned_natCast (n : Nat) : Unsigned (.whole n) := Int.natCast_nonneg n

namespace Numeral

def combine (f : Int → Int → Int) (g : Float → Float → Float) : Numeral → Numeral → Outcome Numeral
  | .whole a, .whole b => .ok (.whole (f a b))
  | a, b => do return .real (g (← a.toFloat) (← b.toFloat))

theorem times_eq (a b : Numeral) : a.times b = combine (· * ·) (· * ·) a b := by
  cases a <;> cases b <;> rfl

theorem plus_eq (a b : Numeral) : a.plus b = combine (· + ·) (· + ·) a b := by
  cases a <;> cases b <;> rfl

theorem combine_not_lt {f : Int → Int → Int} {g : Float → Float → Float} {a b n : Numeral}
    (wholes : ∀ {i j}, 0 ≤ i → 0 ≤ j → 0 ≤ f i j)
    (doubles : ∀ {x y}, ¬ x < 0 → ¬ y < 0 → ¬ g x y < 0) (first : a.Unsigned) (second : b.Unsigned)
    (result : combine f g a b = .ok n) : n.Unsigned := by
  have inexact (taken : (do return .real (g (← a.toFloat) (← b.toFloat)) : Outcome Numeral) = .ok n) :
      n.Unsigned := by
    obtain ⟨x, left, rest⟩ := bind_ok.mp taken
    obtain ⟨y, right, same⟩ := bind_ok.mp rest
    obtain rfl := Except.ok.inj same
    exact doubles (first.toFloat_not_lt left) (second.toFloat_not_lt right)
  cases a with
  | whole i =>
    cases b with
    | whole j =>
      obtain rfl := Except.ok.inj result
      exact wholes first second
    | real y => exact inexact result
  | real x => exact inexact result

end Numeral

def Parameter.Unsigned (p : Parameter) : Prop := ∀ x, p.value.finite? = .ok (some x) → 0 ≤ x

/-- A variable whose fallback and bounds are not below zero. -/
structure Variable.Unsigned (v : Variable) : Prop where
  fallback : ∀ n ∈ v.fallback, n.Unsigned
  least : ∀ n ∈ v.least, n.Unsigned
  most : ∀ n ∈ v.most, n.Unsigned

theorem Standard.catalog_unsigned : ∀ v ∈ catalog, v.Unsigned := by
  have checked : ∀ v ∈ catalog, (∀ n ∈ v.fallback, n.Unsigned) ∧ (∀ n ∈ v.least, n.Unsigned) ∧
      ∀ n ∈ v.most, n.Unsigned := by decide +kernel
  intro v member
  obtain ⟨fallback, least, most⟩ := checked v member
  exact ⟨fallback, least, most⟩

namespace Duration

/-! What a formula sees. -/

def ValuesUnsigned (values : Keyed Float) : Prop := ∀ name x, values.get? name = some x → ¬ x < 0

theorem ValuesUnsigned.set {values : Keyed Float} (unsigned : ValuesUnsigned values) (name : String)
    {x : Float} (above : ¬ x < 0) : ValuesUnsigned (values.set name x) := by
  intro other y found
  rw [Keyed.get?_set] at found
  split at found
  · obtain rfl := Option.some.inj found
    exact above
  · exact unsigned other y found

theorem ValuesUnsigned.setAll {values entries : Keyed Float} (unsigned : ValuesUnsigned values)
    (above : ∀ entry ∈ entries, ¬ entry.2 < 0) : ValuesUnsigned (values.setAll entries) := by
  induction entries generalizing values with
  | nil => exact unsigned
  | cons entry rest ih =>
    obtain ⟨first, others⟩ := List.forall_mem_cons.mp above
    exact ih (unsigned.set entry.1 first) others

theorem fallbacks_unsigned {catalog : Catalog} (unsigned : ∀ v ∈ catalog, v.Unsigned)
    {base : Keyed Float} (taken : fallbacks catalog = .ok base) : ValuesUnsigned base := by
  obtain ⟨entries, listed, same⟩ := bind_ok.mp taken
  obtain rfl := Except.ok.inj same
  have none : ValuesUnsigned [] := nofun
  apply none.setAll
  intro entry member
  obtain ⟨v, inCatalog, read⟩ := (mem_filterMapM listed).mp member
  obtain ⟨-, n, fallback, double⟩ := readFallback_ok.mp read
  exact ((unsigned v inCatalog).fallback n fallback).toFloat_not_lt double

theorem weight_not_lt (type : FeatureType) : ¬ Feature.weight type < 0 := by
  cases type <;> decide +kernel

theorem factor_not_lt {features : List Feature} {x : Float}
    (taken : Feature.factor features = .ok x) : ¬ x < 0 := by
  obtain ⟨shares, listed, rest⟩ := bind_ok.mp taken
  split at rest
  · rename_i total summed
    obtain rfl := Except.ok.inj rest
    refine add_not_lt one_not_lt (sum?_not_lt ?_ summed)
    intro y member
    obtain ⟨f, -, share⟩ := mapM_result listed y member
    obtain ⟨count, read, rfl⟩ := map_ok.mp share
    exact mul_not_lt ((Numeral.unsigned_natCast _).toFloat_not_lt read) (weight_not_lt f.type)
  · cases rest

theorem complexity_not_lt (complexity : Complexity) : ¬ complexity.factor < 0 := by
  cases complexity <;> decide +kernel

theorem ownValues_not_lt {c : Component} (size : c.size.Valid) {own : Keyed Float}
    (taken : ownValues c = .ok own) : ∀ entry ∈ own, ¬ entry.2 < 0 := by
  obtain ⟨_, quantity, counts, factor, readQuantity, counted, rfl⟩ := ownValues_parts taken
  have length := size.length.not_lt
  have width := size.width.not_lt
  have thickness := size.thickness.not_lt
  have area : ¬ c.size.area < 0 := mul_not_lt length width
  have volume : ¬ c.size.volume < 0 := mul_not_lt area thickness
  have quantity := (Numeral.unsigned_natCast _).toFloat_not_lt readQuantity
  intro entry member
  rcases List.mem_append.mp member with fixed | count
  · simp only [List.mem_cons, List.not_mem_nil, or_false] at fixed
    rcases fixed with rfl | rfl | rfl | rfl | rfl | rfl | rfl | rfl
    · exact length
    · exact width
    · exact thickness
    · exact area
    · exact volume
    · exact complexity_not_lt c.complexity
    · exact factor_not_lt factor
    · exact quantity
  · obtain ⟨named, among, read⟩ := mapM_result counted entry count
    obtain ⟨type, -, counts⟩ := mem_featureCounts.mp among
    obtain ⟨x, double, rfl⟩ := map_ok.mp read
    have natural : (Numeral.whole named.2).Unsigned := counts ▸ Numeral.unsigned_natCast _
    exact natural.toFloat_not_lt double

theorem parameterValues_not_lt {parameters : List Parameter}
    (unsigned : ∀ p ∈ parameters, p.Unsigned) {given : Keyed Float}
    (taken : parameterValues parameters = .ok given) : ∀ entry ∈ given, ¬ entry.2 < 0 := by
  intro entry member
  obtain ⟨p, listed, read⟩ := (mem_filterMapM taken).mp member
  obtain ⟨-, -, value⟩ := readParameter_ok.mp read
  exact not_lt_of_zero_le (unsigned p listed entry.2 value)

theorem clamp_not_lt {v : Variable} (unsigned : v.Unsigned) {x y : Float} (above : ¬ x < 0)
    (clamped : v.clamp x = .ok y) : ¬ y < 0 := by
  have bound {bound : Option Numeral} (each : ∀ n ∈ bound, n.Unsigned)
      (read : Variable.boundOr bound x = .ok y) : ¬ y < 0 := by
    cases bound with
    | none =>
      obtain rfl := Except.ok.inj read
      exact above
    | some n => exact (each n rfl).toFloat_not_lt read
  unfold Variable.clamp at clamped
  split at clamped
  · exact bound unsigned.least clamped
  · split at clamped
    · exact bound unsigned.most clamped
    · obtain rfl := Except.ok.inj clamped
      exact above

theorem clampEntry_unsigned {v : Variable} (unsigned : v.Unsigned) {values after : Keyed Float}
    (before : ValuesUnsigned values) (done : clampEntry v values = .ok after) :
    ValuesUnsigned after := by
  unfold clampEntry at done
  split at done
  · rename_i x found
    obtain ⟨y, clamped, rfl⟩ := map_ok.mp done
    exact before.set v.name (clamp_not_lt unsigned (before v.name x found) clamped)
  · obtain rfl := Except.ok.inj done
    exact before

theorem clamped_unsigned {catalog : Catalog} (unsigned : ∀ v ∈ catalog, v.Unsigned)
    {values after : Keyed Float} (before : ValuesUnsigned values)
    (done : catalog.foldlM (fun values v => clampEntry v values) values = .ok after) :
    ValuesUnsigned after := by
  induction catalog generalizing values with
  | nil =>
    obtain rfl := Except.ok.inj done
    exact before
  | cons v rest ih =>
    obtain ⟨first, others⟩ := List.forall_mem_cons.mp unsigned
    rw [List.foldlM_cons] at done
    obtain ⟨next, clamped, later⟩ := bind_ok.mp done
    exact ih others (clampEntry_unsigned first before clamped) later

section
variable {catalog : Catalog} (unsignedCatalog : ∀ v ∈ catalog, v.Unsigned)
  {parameters : List Parameter} (unsigned : ∀ p ∈ parameters, p.Unsigned)
  {c : Component} (size : c.size.Valid)
include unsignedCatalog unsigned size

theorem environment_unsigned {values : Keyed Float}
    (taken : environment catalog parameters c = .ok values) : ValuesUnsigned values := by
  obtain ⟨base, own, given, readBase, readOwn, readGiven, done⟩ := environment_layers taken
  have layers := ((fallbacks_unsigned unsignedCatalog readBase).setAll
    (ownValues_not_lt size readOwn)).setAll (parameterValues_not_lt unsigned readGiven)
  exact clamped_unsigned unsignedCatalog layers done

theorem byFormula_measure {formula : String} (minus : '-' ∉ formula.toList) {d : Duration}
    (computed : byFormula catalog formula parameters c = .ok d) : Measure d.minutes := by
  obtain ⟨e, evaluated, rfl⟩ := map_ok.mp computed
  obtain ⟨values, taken, evaluated⟩ := bind_ok.mp evaluated
  have seen := environment_unsigned unsignedCatalog unsigned size taken
  apply measure_roundHundredths
  refine Formula.evaluate_not_lt minus ?_ evaluated
  intro name d x bound read
  obtain ⟨y, found, rfl⟩ := Option.map_eq_some_iff.mp bound
  obtain rfl := Except.ok.inj read
  exact seen name y found

end

/-! What a guess is made from. -/

theorem times_not_lt {a b n : Numeral} (first : a.Unsigned) (second : b.Unsigned)
    (product : a.times b = .ok n) : n.Unsigned := by
  rw [Numeral.times_eq] at product
  exact Numeral.combine_not_lt Int.mul_nonneg mul_not_lt first second product

theorem plus_not_lt {a b n : Numeral} (first : a.Unsigned) (second : b.Unsigned)
    (sum : a.plus b = .ok n) : n.Unsigned := by
  rw [Numeral.plus_eq] at sum
  exact Numeral.combine_not_lt Int.add_nonneg add_not_lt first second sum

/-- Sizes and counts that are not below zero; the material and the thickness only choose factors. -/
structure Workpiece.Unsigned (w : Workpiece) : Prop where
  length : w.length.Unsigned
  width : w.width.Unsigned
  holes : w.holes.Unsigned
  edges : w.edges.Unsigned

theorem Workpiece.unsigned_of_valid {c : Component} (size : c.size.Valid) :
    (ofSubject c).Unsigned where
  length := size.length.not_lt
  width := size.width.not_lt
  holes := Numeral.unsigned_natCast _
  edges := Numeral.unsigned_natCast _

theorem thicknessFactor_not_lt (thickness : Numeral) : ¬ thicknessFactor thickness < 0 := by
  unfold thicknessFactor
  split <;> decide +kernel

theorem materialFactor_not_lt (material : String) : ¬ materialFactor material < 0 := by
  unfold materialFactor
  dsimp only
  split
  · decide +kernel
  · split <;> decide +kernel

theorem workHours_not_lt (work : Work) : ¬ work.baseHours < 0 := by
  cases work <;> decide +kernel

section
variable {w : Workpiece} (unsigned : w.Unsigned) {x : Float}
include unsigned

theorem squareMetres_not_lt (measured : w.squareMetres = .ok x) : ¬ x < 0 := by
  obtain ⟨area, product, rest⟩ := bind_ok.mp measured
  obtain ⟨double, read, same⟩ := bind_ok.mp rest
  obtain rfl := Except.ok.inj same
  have above := (times_not_lt unsigned.length unsigned.width product).toFloat_not_lt read
  exact div_not_lt above (by decide +kernel) (by decide +kernel)

theorem edgeMetres_not_lt (measured : w.edgeMetres = .ok x) : ¬ x < 0 := by
  obtain ⟨half, sum, rest⟩ := bind_ok.mp measured
  obtain ⟨double, read, same⟩ := bind_ok.mp rest
  obtain rfl := Except.ok.inj same
  have above := (plus_not_lt unsigned.length unsigned.width sum).toFloat_not_lt read
  have two : ¬ (2 : Float) < 0 := by decide +kernel
  exact div_not_lt (mul_not_lt two above) (by decide +kernel) (by decide +kernel)

theorem baseHours_not_lt {work : Option Work} (guessed : baseHours work w = .ok x) : ¬ x < 0 := by
  have byArea (work : Work)
      (guessed : (do return (← w.squareMetres) * work.baseHours : Outcome Float) = .ok x) :
      ¬ x < 0 := by
    obtain ⟨area, measured, same⟩ := bind_ok.mp guessed
    obtain rfl := Except.ok.inj same
    exact mul_not_lt (squareMetres_not_lt unsigned measured) (workHours_not_lt work)
  cases work with
  | none =>
    obtain rfl := Except.ok.inj guessed
    decide +kernel
  | some work =>
    cases work with
    | edge =>
      obtain ⟨metres, measured, rest⟩ := bind_ok.mp guessed
      obtain ⟨edges, read, same⟩ := bind_ok.mp rest
      obtain rfl := Except.ok.inj same
      exact mul_not_lt (mul_not_lt (edgeMetres_not_lt unsigned measured) (workHours_not_lt .edge))
        (unsigned.edges.toFloat_not_lt read)
    | drill =>
      obtain ⟨holes, read, same⟩ := bind_ok.mp guessed
      obtain rfl := Except.ok.inj same
      exact mul_not_lt (unsigned.holes.toFloat_not_lt read) (workHours_not_lt .drill)
    | cut => exact byArea .cut guessed
    | assemble => exact byArea .assemble guessed
    | sand => exact byArea .sand guessed
    | paint => exact byArea .paint guessed

theorem guessedHours_measure {name : String} (guessed : guessedHours name w = .ok x) : Measure x := by
  obtain ⟨hours, base, same⟩ := bind_ok.mp guessed
  obtain rfl := Except.ok.inj same
  exact measure_roundHundredths (mul_not_lt (mul_not_lt (baseHours_not_lt unsigned base)
    (thicknessFactor_not_lt w.thickness)) (materialFactor_not_lt w.material))

end

/-! Rules. -/

def Rule.Unsigned : Rule → Prop
  | .formula logic => '-' ∉ logic.formula.toList
  | .heuristic _ => True
  | .efficiency _ => False

section
variable {parameters : List Parameter} (unsigned : ∀ p ∈ parameters, p.Unsigned) {c : Component}
  (size : c.size.Valid)
include unsigned size

theorem rule_measure {rule : Rule} (plain : rule.Unsigned) {d : Duration}
    (computed : rule.compute parameters c = .ok d) : Measure d.minutes := by
  cases rule with
  | formula logic => exact byFormula_measure Standard.catalog_unsigned unsigned size plain computed
  | heuristic name =>
    obtain ⟨hours, guessed, same⟩ := bind_ok.mp computed
    obtain rfl := Except.ok.inj same
    have guess := guessedHours_measure (Workpiece.unsigned_of_valid size) guessed
    exact measure_roundHundredths (mul_not_lt guess.not_lt (by decide +kernel))
  | efficiency settings => exact plain.elim

theorem ofOutcome_measure {rule : Rule} (plain : rule.Unsigned) :
    Measure (ofOutcome (rule.compute parameters c)).minutes := by
  cases computed : rule.compute parameters c with
  | ok d => exact rule_measure unsigned size plain computed
  | error f => exact measure_zero

end
end Duration
end Joinery
