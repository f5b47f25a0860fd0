import Joinery.Proofs.Component.Valid
import Joinery.Proofs.Datum.Double
import Joinery.Proofs.Datum.Giant
import Joinery.Proofs.Keyed
import Joinery.Proofs.Number.Shortest
import Joinery.Proofs.Product.Fresh
import Joinery.Proofs.Settings.Packaged

/-!
Accepted rates. The rates of a table are measures, and a fallback is whatever it was given as. The two
parameters are only compared with zero, and so may also be no number or boundless.
-/
namespace Joinery
open Number

namespace Number
open Float.Model
open Float.Model.UnpackedFloat (Sign)

theorem roundHundredths_of_unbounded {x : Float} (unbounded : x.isFinite = false) :
    roundHundredths x = 0 := by
  have digits : shortest x = ⟨0, 0⟩ := by
    unfold shortest
    rcases shape_of_unbounded unbounded with ⟨s, shape⟩ | shape <;> rw [shape]
  have none : heldHundredths x = 0 := by
    rw [heldHundredths, digits]
    decide
  have zero : (Decimal.mk 0 (-2)).toFloat = 0 := by decide +kernel
  simp [roundHundredths, none, zero]

theorem mul_unbounded {x y : Float} (unbounded : y.isFinite = false) : (x * y).isFinite = false := by
  have infinite (s : Sign) : (Float.Model.pack (.infinity s)).unpack.isFinite = false := by
    cases s <;> rfl
  have noNumber : (Float.Model.pack .notANumber).unpack.isFinite = false := by rfl
  change (Float.Model.pack
    (UnpackedFloat.mul .binary64 x.toModel.unpack y.toModel.unpack)).unpack.isFinite = false
  rcases shape_of_unbounded unbounded with ⟨s, shape⟩ | shape
  · rw [shape]
    cases x.toModel.unpack with
    | notANumber => exact noNumber
    | infinity t => exact infinite _
    | zero t => exact noNumber
    | finite t m e positive => exact infinite _
  · rw [shape]
    cases x.toModel.unpack <;> exact noNumber

end Number

/-- A number that counts as a price: its double is a measure. -/
def Numeral.IsMeasure (n : Numeral) : Prop := ∃ x, n.toFloat = .ok x ∧ Measure x

/-- What a comparison with zero lets pass, which is more than measures. -/
inductive Numeral.Passed : Numeral → Prop where
  | measure {n : Numeral} (is : n.IsMeasure) : Passed n
  | giant {n : Int} (above : 0 ≤ n) (giant : giantSize ≤ n.natAbs) : Passed (.whole n)
  | unbounded {x : Float} (unbounded : x.isFinite = false) (above : ¬ x < 0) : Passed (.real x)

namespace Numeral

theorem below_zero_real (x : Float) : (real x).below (.whole 0) = true ↔ x < 0 := by
  cases finite : x.isFinite with
  | true => simp [below, finite, lt_zero_iff finite]
  | false =>
    have same : (real x).below (.whole 0) = (x.isInf && x < 0) := by simp [below, finite]
    rw [same]
    constructor
    · intro lowest
      simpa using (Bool.and_eq_true_iff.mp lowest).2
    · intro less
      by_contra above
      exact not_lt_of_unbounded_left finite (Bool.eq_false_iff.mpr above) less

theorem lt_zero_of_whole {n : Int} {x : Float} (read : (whole n).toFloat = .ok x) (below : n < 0) :
    x < 0 := by
  obtain ⟨rfl, held⟩ := nearest_of_toFloat read
  have one : (nearest (-1) 0).isFinite = true := by decide +kernel
  have least : units (nearest (-1) 0) < 0 := by decide +kernel
  have le : n * 2 ^ (0 + 1074 : Int).toNat ≤ -1 * 2 ^ (0 + 1074 : Int).toNat :=
    Int.mul_le_mul_of_nonneg_right (by omega) (by positivity)
  have rounded := units_nearest_le (by decide) (by decide) held one le
  exact (lt_zero_iff held).mpr (by omega)

theorem whole_measure {n : Int} {x : Float} (read : (whole n).toFloat = .ok x) (above : 0 ≤ n) :
    Measure x := by
  obtain ⟨rfl, held⟩ := nearest_of_toFloat read
  exact measure_of_not_lt held (nearest_not_lt above 0)

/-- A comparison with zero lets pass what is no measure. -/
theorem passed_iff (n : Numeral) : n.Passed ↔ n.below (.whole 0) = false := by
  cases n with
  | whole n =>
    have order : (whole n).below (.whole 0) = false ↔ 0 ≤ n := by simp [below]
    rw [order]
    constructor
    · intro passed
      cases passed with
      | measure is =>
        obtain ⟨x, read, measure⟩ := is
        by_contra below
        exact measure.not_lt (lt_zero_of_whole read (by omega))
      | giant above _ => exact above
    · intro above
      cases read : ofInt? n with
      | none => exact .giant above ((ofInt?_eq_none_iff n).mp read)
      | some x =>
        have double : (whole n).toFloat = .ok x := by simp [toFloat, read]
        exact .measure ⟨x, double, whole_measure double above⟩
  | real x =>
    rw [← Bool.not_eq_true, below_zero_real]
    constructor
    · intro passed
      cases passed with
      | measure is =>
        obtain ⟨y, read, measure⟩ := is
        obtain rfl := Except.ok.inj read
        exact measure.not_lt
      | unbounded _ above => exact above
    · intro above
      cases finite : x.isFinite with
      | true => exact .measure ⟨x, rfl, measure_of_not_lt finite above⟩
      | false => exact .unbounded finite above

end Numeral

theorem Numeral.Passed.not_lt {n : Numeral} (passed : n.Passed) {x : Float}
    (read : n.toFloat = .ok x) : ¬ x < 0 := by
  cases passed with
  | measure is =>
    obtain ⟨y, same, measure⟩ := is
    rw [read] at same
    obtain rfl := Except.ok.inj same
    exact measure.not_lt
  | giant above _ => exact (whole_measure read above).not_lt
  | unbounded _ above =>
    obtain rfl := Except.ok.inj read
    exact above

/-! Parameters. -/

theorem EstimateParameters.make_ok_iff {hourly overhead : Numeral} {p : EstimateParameters} :
    make hourly overhead = .ok p ↔ (hourly.Passed ∧ overhead.Passed) ∧ p = ⟨hourly, overhead⟩ := by
  rw [Numeral.passed_iff, Numeral.passed_iff]
  cases first : hourly.below (.whole 0) <;> cases second : overhead.below (.whole 0) <;>
    simp [make, checkRate, first, second, bind, Except.bind, pure, Except.pure, eq_comm]

theorem Settings.params_passed {settings : Record} {p : EstimateParameters}
    (read : params settings = .ok p) :
    ∃ x y, p = ⟨.real x, .real y⟩ ∧ ¬ x < 0 ∧ ¬ y < 0 := by
  obtain ⟨x, y, made⟩ := params_made read
  obtain ⟨⟨first, second⟩, rfl⟩ := EstimateParameters.make_ok_iff.mp made
  rw [Numeral.passed_iff, ← Bool.not_eq_true, Numeral.below_zero_real] at first second
  exact ⟨x, y, rfl, first, second⟩

/-! Tables. -/

namespace Rates

/-- Measures, each under the key of a name that is not empty. -/
def Sound (table : Keyed Float) : Prop :=
  ∀ key x, table.get? key = some x → key ≠ "" ∧ Measure x

theorem readEntry_ok {kind name key : String} {d : Datum} {x : Float} :
    readEntry kind name d = .ok (key, x) ↔
      key = Text.key name ∧ key ≠ "" ∧ d.finite? = .ok (some x) ∧ Measure x := by
  constructor
  · intro read
    unfold readEntry at read
    dsimp only at read
    split at read
    · cases read
    · rename_i named
      obtain ⟨found, finite, rest⟩ := bind_ok.mp read
      cases found with
      | none => cases rest
      | some y =>
        simp only at rest
        split at rest
        · cases rest
        · rename_i above
          obtain ⟨rfl, rfl⟩ := Prod.mk.inj (Except.ok.inj rest)
          exact ⟨rfl, named, finite, measure_of_not_lt (Datum.finite_of_read finite) above⟩
  · rintro ⟨rfl, named, finite, measure⟩
    simp only [readEntry, named, finite, measure.not_lt, ↓reduceIte, ok_bind]
    rfl

theorem sound_ofPairs {pairs : Keyed Float}
    (each : ∀ entry ∈ pairs, entry.1 ≠ "" ∧ Measure entry.2) : Sound (Keyed.ofPairs pairs) := by
  intro key x found
  have last : Keyed.get? pairs.reverse key = some x := by
    have nothing : Keyed.get? ([] : Keyed Float) key = none := rfl
    rwa [Keyed.ofPairs, Keyed.get?_setAll, nothing, Option.or_none] at found
  exact each _ (List.mem_reverse.mp (Keyed.mem_of_get? last))

theorem sound_of_readTable {kind : String} {entries : Keyed Datum} {table : Keyed Float}
    (read : readTable kind entries = .ok table) : Sound table := by
  obtain ⟨pairs, each, rfl⟩ := map_ok.mp read
  apply sound_ofPairs
  intro entry member
  obtain ⟨⟨name, d⟩, -, found⟩ := mapM_result each entry member
  obtain ⟨-, named, -, measure⟩ := readEntry_ok.mp found
  exact ⟨named, measure⟩

theorem sound_of_entries {table : Keyed Float}
    (each : ∀ entry ∈ table, entry.1 ≠ "" ∧ entry.2.isFinite = true ∧ ¬ entry.2 < 0) :
    Sound table := by
  intro key x found
  obtain ⟨named, finite, above⟩ := each (key, x) (Keyed.mem_of_get? found)
  exact ⟨named, measure_of_not_lt finite above⟩

theorem materialPrices_sound : Sound materialPrices := sound_of_entries (by decide +kernel)

theorem equipmentRates_sound : Sound equipmentRates := sound_of_entries (by decide +kernel)

theorem lookup_cases {table : Keyed Float} (sound : Sound table) {name : Datum} (has : name.HasText)
    (fallback : Numeral) :
    (∃ x, lookup table name fallback = .ok x ∧ Measure x) ∨
      lookup table name fallback = fallback.toFloat := by
  obtain ⟨s, shown⟩ := has
  simp only [lookup, shown, ok_bind]
  split
  · rename_i x found
    exact Or.inl ⟨x, rfl, (sound _ x found).2⟩
  · exact Or.inr rfl

theorem lookup_fails (table : Keyed Float) {name : Datum} (fallback : Numeral) {f : Fault}
    (unshown : name.givenText = .error f) : lookup table name fallback = .error f := by
  rw [lookup, unshown]
  rfl

/-- No sound table has the empty name, which is therefore priced by the fallback. -/
theorem lookup_empty {table : Keyed Float} (sound : Sound table) (fallback : Numeral) :
    lookup table (.text "") fallback = fallback.toFloat := by
  have shown : (Datum.text "").givenText = .ok "" := rfl
  have key : Text.key "" = "" := by decide
  simp only [lookup, shown, ok_bind, key]
  split
  · rename_i x found
    exact absurd rfl (sound "" x found).1
  · rfl

/-- What a table quotes for names: a measure or the fallback for those whose text can be taken, and nothing
for the others. -/
structure Quotes (quote : Datum → Outcome Float) (fallback : Numeral) : Prop where
  each : ∀ name : Datum, name.HasText →
    (∃ x, quote name = .ok x ∧ Measure x) ∨ quote name = fallback.toFloat
  unshown : ∀ (name : Datum) f, name.givenText = .error f → quote name = .error f
  all : (∀ name : Datum, name.HasText → ∃ x, quote name = .ok x ∧ Measure x) ↔ fallback.IsMeasure

theorem quotes_of_empty {quote : Datum → Outcome Float} {fallback : Numeral}
    (each : ∀ name : Datum, name.HasText →
      (∃ x, quote name = .ok x ∧ Measure x) ∨ quote name = fallback.toFloat)
    (unshown : ∀ (name : Datum) f, name.givenText = .error f → quote name = .error f)
    (empty : quote (.text "") = fallback.toFloat) : Quotes quote fallback := by
  refine ⟨each, unshown, ?_, ?_⟩
  · intro quoted
    have own := quoted (.text "") (Datum.hasText_text "")
    rwa [empty] at own
  · intro is name has
    rcases each name has with quoted | usual
    · exact quoted
    · rwa [usual]

end Rates

namespace RateTable
open Rates

/-- How tables of rates come about. -/
inductive Built : RateTable → Prop where
  | standard : Built .standard
  | made {materials equipment : Keyed Datum} {materialFallback equipmentFallback : Numeral}
      {t : RateTable} (made : make materials equipment materialFallback equipmentFallback = .ok t) :
      Built t
  | overridden {materials equipment : Keyed Datum} {t changed : RateTable} (built : t.Built)
      (overridden : t.override materials equipment = .ok changed) : Built changed

structure Sound (t : RateTable) : Prop where
  materials : Rates.Sound t.materials
  equipment : Rates.Sound t.equipment

theorem sound_of_make {materials equipment : Keyed Datum}
    {materialFallback equipmentFallback : Numeral} {t : RateTable}
    (made : make materials equipment materialFallback equipmentFallback = .ok t) :
    t.Sound ∧ t.materialFallback = materialFallback ∧ t.equipmentFallback = equipmentFallback := by
  obtain ⟨prices, rates, readPrices, readRates, rfl⟩ := parts_of_make made
  exact ⟨⟨sound_of_readTable readPrices, sound_of_readTable readRates⟩, rfl, rfl⟩

theorem sound_of_override {materials equipment : Keyed Datum} {t changed : RateTable}
    (overridden : t.override materials equipment = .ok changed) :
    changed.Sound ∧ changed.materialFallback = t.materialFallback ∧
      changed.equipmentFallback = t.equipmentFallback := by
  obtain ⟨_, _, made⟩ := made_of_override overridden
  exact sound_of_make made

theorem Built.sound {t : RateTable} (built : t.Built) : t.Sound := by
  cases built with
  | standard => exact ⟨materialPrices_sound, equipmentRates_sound⟩
  | made made => exact (sound_of_make made).1
  | overridden _ overridden => exact (sound_of_override overridden).1

/-- What a table quotes: a price for any material, and a rate for any equipment. -/
structure Quotes (t : RateTable) : Prop where
  materials : Rates.Quotes t.materialPrice t.materialFallback
  equipment : Rates.Quotes t.equipmentRate t.equipmentFallback

theorem Built.quotes {t : RateTable} (built : t.Built) : t.Quotes where
  materials := quotes_of_empty (fun _ has => lookup_cases built.sound.materials has _)
    (fun _ _ unshown => lookup_fails t.materials _ unshown) (lookup_empty built.sound.materials _)
  equipment := by
    refine quotes_of_empty (fun name has => ?_) (fun name f unshown => ?_) rfl
    · unfold equipmentRate
      split
      · exact lookup_cases built.sound.equipment has t.equipmentFallback
      · exact Or.inr rfl
    · by_cases given : name.isGiven = true
      · rw [equipmentRate, if_pos given, lookup_fails t.equipment _ unshown]
      · obtain ⟨s, shown⟩ := Datum.hasText_of_not_given (Bool.eq_false_iff.mpr given)
        rw [shown] at unshown
        cases unshown

end RateTable

theorem RateTable.standard_fallbacks :
    standard.materialFallback.IsMeasure ∧ standard.equipmentFallback.IsMeasure := by
  have prices : ∀ x ∈ [Rates.usualMaterialPrice, Rates.usualEquipmentRate],
      x.isFinite = true ∧ ¬ x < 0 := by decide +kernel
  constructor
  · exact ⟨_, rfl, measure_of_not_lt (prices _ (by simp)).1 (prices _ (by simp)).2⟩
  · exact ⟨_, rfl, measure_of_not_lt (prices _ (by simp)).1 (prices _ (by simp)).2⟩

theorem Settings.rates_built {settings : Record} {t : RateTable} (read : rates settings = .ok t) :
    t.Built ∧ t.materialFallback.IsMeasure ∧ t.equipmentFallback.IsMeasure := by
  obtain ⟨material, equipment⟩ := RateTable.standard_fallbacks
  rcases rates_cases read with rfl | ⟨_, _, overridden⟩
  · exact ⟨.standard, material, equipment⟩
  · obtain ⟨-, sameMaterial, sameEquipment⟩ := RateTable.sound_of_override overridden
    exact ⟨.overridden .standard overridden, sameMaterial ▸ material, sameEquipment ▸ equipment⟩

/-! Costs. -/

namespace Estimate

theorem squareMetres_not_lt {size : Size} (valid : size.Valid) : ¬ size.squareMetres < 0 :=
  have million : ¬ (1000000 : Float) < 0 := by decide +kernel
  div_not_lt (mul_not_lt valid.length.not_lt valid.width.not_lt) million (by decide +kernel)

theorem measure_of_materialCost {t : RateTable} {c : Component} {cost : Float} (built : t.Built)
    (valid : c.size.Valid) (fallback : t.materialFallback.Passed)
    (priced : materialCost t c = .ok cost) : Measure cost := by
  obtain ⟨price, quoted, rfl⟩ := map_ok.mp priced
  have above : ¬ price < 0 := by
    rcases built.quotes.materials.each _ (Datum.hasText_text c.material) with ⟨x, found, measure⟩ | left
    · rw [found] at quoted
      obtain rfl := Except.ok.inj quoted
      exact measure.not_lt
    · rw [left] at quoted
      exact fallback.not_lt quoted
  have cost := mul_not_lt (squareMetres_not_lt valid) above
  apply measure_roundHundredths
  split
  · exact mul_not_lt cost (by decide +kernel)
  · exact cost

theorem labor_of_rates {p : EstimateParameters} {time material : Float} {costs : Float × Float}
    (priced : labor p time material = .ok costs) :
    (p.hourlyRate.IsMeasure → ¬ time < 0 → Measure costs.1) ∧
      ∀ x, p.hourlyRate = .real x → x.isFinite = false → costs.1 = 0 := by
  obtain ⟨hourly, readHourly, rest⟩ := bind_ok.mp priced
  obtain ⟨overhead, -, same⟩ := bind_ok.mp rest
  obtain rfl := Except.ok.inj same
  constructor
  · rintro ⟨x, read, measure⟩ above
    rw [readHourly] at read
    obtain rfl := Except.ok.inj read
    have hours : ¬ time / Duration.minutesPerHour < 0 :=
      div_not_lt above (by decide +kernel) (by decide +kernel)
    exact measure_roundHundredths (mul_not_lt hours measure.not_lt)
  · intro x is unbounded
    rw [is] at readHourly
    obtain rfl := Except.ok.inj readHourly
    exact roundHundredths_of_unbounded (mul_unbounded unbounded)

end Estimate

/-- Which rates are accepted, and what they come to. Apart from the fallbacks of a table and from what
is not finite in the parameters, all of them are measures. -/
theorem accepted_rates (hourly overhead : Numeral) (s : Surroundings) {t : RateTable}
    (built : t.Built) :
    (∀ p, EstimateParameters.make hourly overhead = .ok p ↔
      (hourly.Passed ∧ overhead.Passed) ∧ p = ⟨hourly, overhead⟩) ∧
    (∀ p, (Settings.defaults (Settings.load s)).params = .ok p →
      ∃ x y, p = ⟨.real x, .real y⟩ ∧ ¬ x < 0 ∧ ¬ y < 0) ∧
    (∀ loaded, (Settings.defaults (Settings.load s)).rates = .ok loaded →
      loaded.Built ∧ loaded.materialFallback.IsMeasure ∧ loaded.equipmentFallback.IsMeasure) ∧
    t.Quotes ∧
    (∀ (c : Component) cost, c.size.Valid → t.materialFallback.Passed →
      Estimate.materialCost t c = .ok cost → Measure cost) ∧
    ∀ (p : EstimateParameters) time material costs, Estimate.labor p time material = .ok costs →
      (p.hourlyRate.IsMeasure → ¬ time < 0 → Measure costs.1) ∧
        ∀ x, p.hourlyRate = .real x → x.isFinite = false → costs.1 = 0 := by
  refine ⟨?parameters, ?settings, ?defaults, built.quotes, ?material, ?labor⟩
  case parameters => exact fun _ => EstimateParameters.make_ok_iff
  case settings =>
    intro p read
    obtain ⟨_, -, fromSettings⟩ := bind_ok.mp read
    exact Settings.params_passed fromSettings
  case defaults =>
    intro loaded read
    obtain ⟨_, -, fromSettings⟩ := bind_ok.mp read
    exact Settings.rates_built fromSettings
  case material => exact fun _ _ => Estimate.measure_of_materialCost built
  case labor => exact fun _ _ _ _ => Estimate.labor_of_rates

namespace Shelf

def bare : Surroundings := ⟨none, none, none, none, []⟩

def walnutSide : Component := { side with size := size, material := "walnut" }

end Shelf

theorem shelf_rates_accepted :
    (∃ x y, (Settings.defaults (Settings.load Shelf.bare)).params = .ok ⟨.real x, .real y⟩ ∧
      ¬ x < 0 ∧ ¬ y < 0) ∧
    (∃ loaded, (Settings.defaults (Settings.load Shelf.bare)).rates = .ok loaded ∧ loaded.Built ∧
      loaded.materialFallback.IsMeasure) ∧
    (RateTable.standard.Built ∧ RateTable.standard.Quotes) ∧
    (Shelf.walnutSide.size.Valid ∧
      ∃ cost, Estimate.materialCost .standard Shelf.walnutSide = .ok cost ∧ Measure cost) ∧
    ∃ costs, Estimate.labor .standard 90 100 = .ok costs ∧ Measure costs.1 := by
  obtain ⟨-, settings, defaults, quotes, material, labor⟩ :=
    accepted_rates (.whole 50) (.real 0.2) Shelf.bare .standard
  have packaged : Settings.load Shelf.bare = .ok Settings.packaged := rfl
  obtain ⟨⟨loaded, readRates, -⟩, p, readParams, -⟩ :
      (Settings.defaults (Settings.load Shelf.bare)).Usable := packaged ▸ Settings.packaged_usable
  obtain ⟨x, y, rfl, first, second⟩ := settings p readParams
  obtain ⟨built, loadedFallback, -⟩ := defaults loaded readRates
  have fallback := RateTable.standard_fallbacks.1
  obtain ⟨price, quoted, -⟩ :=
    quotes.materials.all.mpr fallback _ (Datum.hasText_text Shelf.walnutSide.material)
  have valid : Shelf.walnutSide.size.Valid := Size.valid_of_make Shelf.size_made
  obtain ⟨cost, priced⟩ : ∃ cost, Estimate.materialCost .standard Shelf.walnutSide = .ok cost := by
    rw [Estimate.materialCost, Estimate.boardCost, quoted]
    exact ⟨_, rfl⟩
  have hourly : EstimateParameters.standard.hourlyRate.IsMeasure := by
    refine ⟨_, rfl, measure_of_not_lt ?_ ?_⟩ <;> decide +kernel
  obtain ⟨costs, laboured⟩ := Estimate.labor_ok EstimateParameters.standard_usable 90 100
  refine ⟨⟨x, y, readParams, first, second⟩, ⟨loaded, readRates, built, loadedFallback⟩,
    ⟨.standard, quotes⟩, ⟨valid, cost, priced, ?_⟩, costs, laboured, ?_⟩
  · exact material Shelf.walnutSide cost valid (.measure fallback) priced
  · exact (labor _ 90 100 costs laboured).1 hourly (by decide +kernel)

end Joinery
