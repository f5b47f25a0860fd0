import Joinery.Proofs.Record.Fault
import Joinery.Proofs.Record.Reading
import Joinery.Proofs.Settings.Defaults
import Joinery.Record.Product

/-!
Records that are refused. Every reader fails at a wrong value or type in its record, at a number
without a double in it, at a value in it that lies too deep to be shown, and, once a product is put
together, at a list without end. Inside of a component and of a product only wrong values and types
become faults of that record.
-/
namespace Joinery
open Outcome (FailsAs)

theorem Variable.ordered?_fails {whole : Datum} (name : String) (least most : Option Numeral) :
    FailsAs (Fault.Expected whole) (ordered? name least most) := by
  unfold ordered?
  split
  · split
    · refine .error (Or.imp_left Or.inl (Fault.raised_fails rfl fun d shown deep => ?_))
      have flat : ∀ n : Numeral, ¬ (Datum.number n).TooDeep := Datum.not_tooDeep_number
      simp only [Fault.shownValues, List.mem_cons, List.not_mem_nil, or_false] at shown
      rcases shown with rfl | rfl <;> exact absurd deep (flat _)
    · exact .ok _
  · exact .ok _

theorem Variable.ofRecord_fails (d : Datum) : FailsAs (Fault.Expected d) (ofRecord d) := by
  refine .bind (Datum.asRecord_fails _ d) fun r record => ?_
  obtain rfl := Datum.asRecord_ok record
  refine .bind (r.needText_fails _ _) fun _ _ => ?_
  refine .bind (r.text_fails _) fun _ _ => ?_
  refine .bind (r.text_fails _) fun _ _ => ?_
  refine .bind (r.amount?_fails (by decide)) fun _ _ => ?_
  refine .bind (r.amount?_fails (by decide)) fun _ _ => ?_
  refine .bind (r.amount?_fails (by decide)) fun _ _ => ?_
  refine .bind (r.label_fails _) fun _ _ => ?_
  exact .bind (ordered?_fails _ _ _) fun _ _ => .ok _

theorem Logic.ofRecord_fails (d : Datum) : FailsAs (Fault.Expected d) (ofRecord d) := by
  refine .bind (Datum.asRecord_fails _ d) fun r record => ?_
  obtain rfl := Datum.asRecord_ok record
  refine .bind (r.needText_fails _ _) fun _ _ => ?_
  refine .bind (r.text_fails _) fun _ _ => ?_
  refine .bind (r.needText_fails _ _) fun _ _ => ?_
  refine .bind (r.items_fails _) fun ds listed => ?_
  refine .bind (.mapM ?_) fun _ _ => .bind (r.text_fails _) fun _ _ => .ok _
  exact Record.each_fails listed Variable.ofRecord_fails fun s => .error (Or.inl rfl)

theorem Efficiency.ofRecord_fails (d : Datum) : FailsAs (Fault.Expected d) (ofRecord d) := by
  refine .bind (Datum.asRecord_fails _ d) fun r record => ?_
  obtain rfl := Datum.asRecord_ok record
  refine .bind (r.needText_fails _ _) fun _ _ => ?_
  refine .bind (r.text_fails _) fun _ _ => ?_
  refine .bind (r.need_fails _ _) fun base needed => ?_
  refine .bind (r.number_fails (r.needed_number needed) (by decide) base.toFloat_fails) fun _ _ => ?_
  refine .bind (r.need_fails _ _) fun size needed => ?_
  refine .bind (r.number_fails (r.needed_number needed) (by decide) size.toFloat_fails) fun _ _ => ?_
  refine .bind (r.number_fails r.optional_real (by decide) (Datum.toFloat_fails _)) fun _ _ => ?_
  refine .bind (r.text_fails _) fun _ _ => ?_
  exact .bind (r.label_fails _) fun _ _ => .ok _

theorem distinctNames_fails {r : Record} {key : String} {ds : List Datum}
    (listed : r.items key = .ok ds) : FailsAs (Fault.Expected (.object r)) (distinctNames ds) :=
  .map (.mapM (r.each_fails listed Datum.asText_fails fun s => .ok s))

theorem Template.ofNewRecord_fails (id : String) (r : Record) :
    FailsAs (Fault.Expected (.object r)) (ofNewRecord id r) := by
  refine .bind (r.needText_fails _ _) fun _ _ => ?_
  refine .bind (r.text_fails _) fun _ _ => ?_
  refine .bind (r.need_fails _ _) fun category neededCategory => ?_
  refine .bind (r.part_fails Logic.ofRecord_fails) fun _ _ => ?_
  refine .bind (r.part_fails Efficiency.ofRecord_fails) fun _ _ => ?_
  refine .bind (r.items_fails _) fun tools listedTools => ?_
  refine .bind (r.items_fails _) fun stock listedStock => ?_
  refine .bind (r.text_fails _) fun _ _ => ?_
  refine .bind (r.need_fails _ _) fun created neededCreated => ?_
  refine .bind (r.needed_fails neededCreated (Datum.moment_fails _ _)) fun _ _ => ?_
  refine .bind (r.need_fails _ _) fun updated neededUpdated => ?_
  refine .bind (r.needed_fails neededUpdated (Datum.moment_fails _ _)) fun _ _ => ?_
  refine .bind (r.needed_fails neededCategory (Choice.read_fails _)) fun _ _ => ?_
  refine .bind (r.label_fails _) fun _ _ => ?_
  refine .bind (.ok tools) fun _ same => ?_
  obtain rfl := Except.ok.inj same
  refine .bind (distinctNames_fails listedTools) fun _ _ => ?_
  refine .bind (.ok stock) fun _ same => ?_
  obtain rfl := Except.ok.inj same
  refine .bind (distinctNames_fails listedStock) fun _ _ => ?_
  dsimp only
  split
  · exact .error (.value rfl)
  · exact .ok _

theorem Template.ofRecord_fails (known : Keyed Template) (d : Datum) :
    FailsAs (Fault.Expected d) (ofRecord known d) := by
  refine .bind (Datum.asRecord_fails _ d) fun r record => ?_
  obtain rfl := Datum.asRecord_ok record
  refine .bind (r.needText_fails _ _) fun _ _ => ?_
  split
  · exact .ok _
  · exact .bind (ofNewRecord_fails _ r) fun _ _ => .ok _

theorem Feature.ofRecord_fails (d : Datum) : FailsAs (Fault.Expected d) (ofRecord d) := by
  refine .bind (Datum.asRecord_fails _ d) fun r record => ?_
  obtain rfl := Datum.asRecord_ok record
  refine .bind (r.needText_fails _ _) fun _ _ => ?_
  refine .bind (r.need_fails _ _) fun type needed => ?_
  refine .bind (r.text_fails _) fun _ _ => ?_
  refine .bind (r.text_fails _) fun _ _ => ?_
  refine .bind (r.needed_fails needed (Choice.read_fails _)) fun _ _ => ?_
  refine .bind (r.count_fails 0 _ (by decide +kernel) (by decide)) fun _ _ => ?_
  refine .bind ?_ fun _ _ => .ok _
  refine r.number_fails r.absent_number (show "size" ∈ Record.numberFields by decide) ?_
  unfold readSize Record.value
  split
  · exact .ok _
  · exact .map (Datum.nonNegative_fails _ _)

theorem Parameter.ofRecord_fails (d : Datum) : FailsAs (Fault.Expected d) (ofRecord d) := by
  refine .bind (Datum.asRecord_fails _ d) fun r record => ?_
  obtain rfl := Datum.asRecord_ok record
  refine .bind (r.needText_fails _ _) fun _ _ => ?_
  exact .bind (r.need_fails _ _) fun _ _ => .ok _

theorem Operation.ofRecord_fails (known : Keyed Template) (d : Datum) :
    FailsAs (Fault.Expected d) (ofRecord known d) := by
  refine .bind (Datum.asRecord_fails _ d) fun r record => ?_
  obtain rfl := Datum.asRecord_ok record
  refine .bind (r.needText_fails _ _) fun _ _ => ?_
  refine .bind (r.need_fails _ _) fun template needed => ?_
  refine .bind (r.needed_fails needed (Template.ofRecord_fails known template)) fun _ _ => ?_
  refine .bind (r.text_fails _) fun _ _ => ?_
  refine .bind (r.items_fails _) fun ds listed => ?_
  have each := r.each_fails listed Parameter.ofRecord_fails fun s => .error (Or.inl rfl)
  refine .bind (.mapM each) fun _ _ => ?_
  refine .bind (.bind (r.label_fails _) fun _ _ => ?_) fun _ _ => .ok _
  refine .bind ?_ fun _ _ => .ok _
  refine r.number_fails r.absent_number (show "actualTime" ∈ Record.numberFields by decide) ?_
  unfold readActualTime Record.value
  split
  · exact .ok _
  · exact .map (Datum.nonNegative_fails _ _)

theorem Size.ofRecord_fails (d : Datum) : FailsAs (Fault.Expected d) (ofRecord d) := by
  refine .bind (Datum.asRecord_fails _ d) fun r record => ?_
  obtain rfl := Datum.asRecord_ok record
  refine .bind (r.need_fails _ _) fun length neededLength => ?_
  refine .bind (r.need_fails _ _) fun width neededWidth => ?_
  refine .bind (r.need_fails _ _) fun thickness neededThickness => ?_
  refine .bind (r.number_fails (r.needed_number neededLength) (by decide)
    (Datum.nonNegative_fails _ _)) fun _ _ => ?_
  refine .bind (r.number_fails (r.needed_number neededWidth) (by decide)
    (Datum.nonNegative_fails _ _)) fun _ _ => ?_
  exact .bind (r.number_fails (r.needed_number neededThickness) (by decide)
    (Datum.nonNegative_fails _ _)) fun _ _ => .ok _

theorem Component.ofFields_fails (known : Keyed Template) {id : Datum} {r : Record}
    (held : (Datum.object r).Holds id) :
    FailsAs (Fault.Expected (.object r)) (ofFields known id r) := by
  refine .bind (r.need_fails _ _) fun size needed => ?_
  refine .bind (id.asText_fails.imp fun _ expected => expected.within held) fun _ _ => ?_
  refine .bind (r.text_fails _) fun _ _ => ?_
  refine .bind (r.text_fails _) fun _ _ => ?_
  refine .bind (r.needed_fails needed (Size.ofRecord_fails size)) fun _ _ => ?_
  refine .bind (r.needText_fails _ _) fun _ _ => ?_
  refine .bind (r.items_fails _) fun _ features => ?_
  refine .bind (.mapM (r.each_fails features Feature.ofRecord_fails fun s => .error (Or.inl rfl)))
    fun _ _ => ?_
  refine .bind (r.items_fails _) fun _ operations => ?_
  have each (known : Keyed Template) := r.each_fails operations (Operation.ofRecord_fails known)
    fun s => .error (Or.inl rfl)
  refine .bind (.readEach each known) fun _ _ => ?_
  refine .bind (r.text_fails _) fun _ _ => ?_
  refine .bind ?_ fun _ _ => .ok _
  refine .bind (r.count_fails 1 _ (by decide +kernel) (by decide)) fun _ _ => ?_
  refine .bind (r.count_fails 0 _ (by decide +kernel) (by decide)) fun _ _ => ?_
  exact .bind (r.label_fails _) fun _ _ => .ok _

theorem Component.ofRecord_fails (known : Keyed Template) (d : Datum) :
    FailsAs (fun f => f.kind = .value ∨ f.Escapes d) (ofRecord known d) := by
  refine .bind ((Datum.asRecord_value _ d).imp fun _ => Or.inl) fun r record => ?_
  obtain rfl := Datum.asRecord_ok record
  refine .bind ((r.need_value _ _).imp fun _ => Or.inl) fun id needed => ?_
  have held := Record.holds_of_lookup (Record.lookup_of_need needed)
  refine Outcome.within_fails (ofFields_fails known held) (fun _ => rfl) fun f d shown => ?_
  obtain rfl : d = id := by simpa [Fault.shownValues] using shown
  exact held

theorem AssemblyStep.ofRecord_fails (d : Datum) : FailsAs (Fault.Expected d) (ofRecord d) := by
  refine .bind (Datum.asRecord_fails _ d) fun r record => ?_
  obtain rfl := Datum.asRecord_ok record
  refine .bind (r.needText_fails _ _) fun _ _ => ?_
  refine .bind (r.text_fails _) fun _ _ => ?_
  refine .bind (r.text_fails _) fun _ _ => ?_
  refine .bind (r.items_fails _) fun _ listed => ?_
  refine .bind (.mapM (r.each_fails listed Datum.asText_fails fun s => .ok s)) fun _ _ => ?_
  refine .bind (r.text_fails _) fun _ _ => ?_
  refine .bind (r.number_fails r.optional_real (by decide) (Datum.nonNegative_fails _ _)) fun _ _ => ?_
  exact .bind (r.label_fails _) fun _ _ => .ok _

theorem Placement.ofRecord_fails (known : Keyed Template) (d : Datum) :
    FailsAs (Fault.Expected d) (ofRecord known d) := by
  refine .bind (Datum.asRecord_fails _ d) fun r record => ?_
  obtain rfl := Datum.asRecord_ok record
  refine .bind (r.need_fails _ _) fun component needed => ?_
  have read : FailsAs (Fault.Expected component) (Component.ofRecord known component) :=
    (Component.ofRecord_fails known component).imp fun _ => Or.imp Or.inl id
  refine .bind (r.needed_fails needed read) fun _ _ => ?_
  refine .bind ?_ fun _ _ => .ok _
  refine .bind (r.count_fails 1 _ (by decide +kernel) (by decide)) fun _ _ => ?_
  exact .bind (r.count_fails 0 _ (by decide +kernel) (by decide)) fun _ _ => .ok _

/-! Totals fail over lists without end, and over equipment that cannot be shown. -/

inductive Fault.OfTotals (c : Component) : Fault → Prop where
  | digits : OfTotals c .tooLongToShow
  | deep {p : Operation} : p ∈ c.operations → p.equipment.TooDeep → OfTotals c .nestedTooDeep
  | endless : 2 ^ 63 ≤ c.operations.length → OfTotals c .sumTooLarge

namespace Estimate

theorem sum_fails {xs : List Float} (small : ∀ x ∈ xs, Number.Small 47 x) :
    FailsAs (fun f => f = .sumTooLarge ∧ 2 ^ 63 ≤ xs.length) (sum xs) := by
  intro f fails
  by_cases short : xs.length < 2 ^ 63
  · obtain ⟨x, summed⟩ := sum_ok small short
    rw [summed] at fails
    cases fails
  · refine ⟨?_, Nat.not_lt.mp short⟩
    unfold sum at fails
    split at fails
    · cases fails
    · exact (Except.error.inj fails).symm

theorem total_fails {xs : List Float} (small : ∀ x ∈ xs, Number.Small 47 x) :
    FailsAs (fun f => f = .sumTooLarge ∧ 2 ^ 63 ≤ xs.length) (total xs) := .map (sum_fails small)

theorem equipmentRate_fails {rates : RateTable} (usable : rates.Usable) (p : Operation) :
    FailsAs (fun f => f = .tooLongToShow ∨ f = .nestedTooDeep ∧ p.equipment.TooDeep)
      (rates.equipmentRate p.usedEquipment) := by
  by_cases shown : p.equipment.HasText
  · obtain ⟨rate, found⟩ := usable.equipmentRate (Operation.usedEquipment_hasText shown)
    rw [found]
    exact .ok rate
  · have given : p.equipment.isGiven = true := by
      by_contra nothing
      exact shown (Datum.hasText_of_not_given (Bool.eq_false_iff.mpr nothing))
    have own : p.usedEquipment = p.equipment := by simp [Operation.usedEquipment, Template.equipmentOr, given]
    cases text : p.equipment.givenText with
    | ok s => exact absurd ⟨s, text⟩ shown
    | error f =>
      rw [own, RateTable.equipmentRate, if_pos given, Rates.lookup, text]
      exact .error (Datum.givenText_error text)

theorem processCost_small {rates : RateTable} {c : Component} {p : Operation} {x : Float}
    (costed : processCost rates c p = .ok x) : Number.Small 47 x := by
  obtain ⟨rate, -, rfl⟩ := map_ok.mp costed
  exact Number.small_roundHundredths _

theorem componentTotals_fails {rates : RateTable} (usable : rates.Usable) (c : Component) :
    FailsAs (Fault.OfTotals c) (componentTotals rates c) := by
  refine .bind (.mapM fun p member => .map ?_) fun costs costed => ?_
  · refine (equipmentRate_fails usable p).imp fun f cause => ?_
    rcases cause with rfl | ⟨rfl, deep⟩
    · exact .digits
    · exact .deep member deep
  have small : ∀ x ∈ costs, Number.Small 47 x := by
    intro x member
    obtain ⟨p, -, cost⟩ := mapM_result costed x member
    exact processCost_small cost
  have length : c.operations.length = costs.length := (mapM_ok_iff.mp costed).length_eq
  refine .bind ((sum_fails small).imp fun f ⟨sum, long⟩ => sum ▸ .endless (length ▸ long)) fun _ _ => ?_
  refine .bind ?_ fun _ _ => .bind ((total_fails (small_minutes c)).imp fun f ⟨sum, long⟩ =>
    sum ▸ .endless (by simpa using long)) fun _ _ => .ok _
  obtain ⟨price, found⟩ := usable.materialPrice c.material
  rw [materialCost, boardCost, found]
  exact .ok _

theorem componentTotals_small {rates : RateTable} {c : Component} {t : ComponentTotals}
    (taken : componentTotals rates c = .ok t) : t.AllSmall := by
  obtain ⟨costs, process, -, -, priced, timed, processCost, totalCost⟩ := componentTotals_parts taken
  obtain ⟨price, -, material⟩ := map_ok.mp priced
  obtain ⟨minutes, -, time⟩ := map_ok.mp timed
  exact ⟨time ▸ Number.small_roundHundredths _, material ▸ Number.small_roundHundredths _,
    processCost ▸ Number.small_roundHundredths _, totalCost ▸ Number.small_roundHundredths _⟩

theorem productTotals_fails {rates : RateTable} {params : EstimateParameters}
    (usable : rates.Usable) (usableParams : params.Usable) (components : List Component) :
    FailsAs (fun f => (∃ c ∈ components, f.OfTotals c) ∨
      f = .sumTooLarge ∧ 2 ^ 63 ≤ components.length) (productTotals rates params components) := by
  refine .bind (.mapM fun c member => (componentTotals_fails usable c).imp fun f cause =>
    Or.inl ⟨c, member, cause⟩) fun parts taken => ?_
  have length : components.length = parts.length := (mapM_ok_iff.mp taken).length_eq
  have small : ∀ t ∈ parts, t.AllSmall := by
    intro t member
    obtain ⟨c, -, totals⟩ := mapM_result taken t member
    exact componentTotals_small totals
  have each {amount : ComponentTotals → Float} (held : ∀ t ∈ parts, Number.Small 47 (amount t)) :
      FailsAs (fun f => (∃ c ∈ components, f.OfTotals c) ∨
        f = .sumTooLarge ∧ 2 ^ 63 ≤ components.length) (total (parts.map amount)) := by
    refine (total_fails (by simpa using held)).imp fun f ⟨sum, long⟩ => Or.inr ⟨sum, ?_⟩
    simpa [length] using long
  refine .bind (each fun t member => (small t member).totalTime) fun time _ => ?_
  refine .bind (each fun t member => (small t member).materialCost) fun material _ => ?_
  obtain ⟨costs, worked⟩ := labor_ok usableParams time material
  refine .bind (by rw [worked]; exact .ok _) fun _ _ => ?_
  refine .bind (each fun t member => (small t member).processCost) fun _ _ => ?_
  exact .bind (each fun t member => (small t member).totalCost) fun _ _ => .ok _

end Estimate

theorem Operation.equipment_of_read {known after : Keyed Template} {d : Datum} {p : Operation}
    (read : ofRecord known d = .ok (p, after)) : p.equipment = .null ∨ d.Holds p.equipment := by
  obtain ⟨r, id, notes, inner, template, ds, parameters, rfl, -, -, -, -, made⟩ := parts_of_read read
  obtain ⟨_, _, -, -, rfl⟩ := parts_of_make made
  cases part : r.part? "equipment" with
  | none => exact Or.inl rfl
  | some d => exact Or.inr (Record.holds_of_part part)

theorem Component.expected_of_totals {known after : Keyed Template} {d : Datum} {c : Component}
    (read : ofRecord known d = .ok (c, after)) {f : Fault} (cause : f.OfTotals c) : f.Expected d := by
  obtain ⟨r, draft, rfl, ⟨-, -, -, ⟨ds, listed, readOperations⟩⟩, made⟩ := parts_of_read read
  obtain ⟨_, _, _, -, -, -, rfl⟩ := parts_of_make made
  cases cause with
  | digits => exact .value rfl
  | deep member deep =>
    obtain ⟨q, drawn, rfl⟩ := List.mem_map.mp member
    obtain ⟨e, held, _, _, first⟩ := mem_readEach readOperations drawn
    rcases Operation.equipment_of_read first with none | inner
    · exact absurd (none ▸ deep) Datum.not_tooDeep_null
    · rcases Record.holds_of_items listed held with part | ⟨s, rfl⟩
      · exact Or.inr (.deep (part.trans inner) deep)
      · cases first
  | endless long =>
    simp only [refresh, List.length_map, length_readEach readOperations] at long
    obtain ⟨e, held, endless⟩ := r.endless_of_items listed long
    exact Or.inr (.endless held endless)

theorem Fault.OfTotals.of_refresh {c : Component} {f : Fault} (cause : f.OfTotals c.refresh) :
    f.OfTotals c := by
  cases cause with
  | digits => exact .digits
  | deep member deep =>
    obtain ⟨p, held, rfl⟩ := List.mem_map.mp member
    exact .deep held deep
  | endless long => exact .endless (by simpa [Component.refresh] using long)

namespace Product

theorem totals_fails {defaults : Defaults} (usable : defaults.Usable) {p : Product}
    (rates : p.rates = none) (params : p.params = none) :
    FailsAs (fun f => (∃ c ∈ p.components, f.OfTotals c) ∨
      f = .sumTooLarge ∧ 2 ^ 63 ≤ p.components.length) (p.totals defaults) := by
  obtain ⟨usedRates, foundRates, usableRates⟩ := usable.rates
  obtain ⟨usedParams, foundParams, usableParams⟩ := usable.params
  have sums : p.totals defaults = Estimate.productTotals usedRates usedParams p.components := by
    simp only [totals, rates, params, Defaults.ratesOr, Defaults.paramsOr, foundRates, foundParams,
      ok_bind]
  rw [sums]
  exact Estimate.productTotals_fails usableRates usableParams p.components

theorem expected_of_totals {r : Record} {key : String} {ds : List Datum}
    {placements : List Placement} {known : Keyed Template} (listed : r.items key = .ok ds)
    (read : readEach Placement.ofRecord [] ds = .ok (placements, known)) {p : Product} {f : Fault}
    (same : p.components = placements.map fun entry => entry.component.refresh)
    (cause : (∃ c ∈ p.components, f.OfTotals c) ∨ f = .sumTooLarge ∧ 2 ^ 63 ≤ p.components.length) :
    f.Expected (.object r) := by
  rcases cause with ⟨c, member, inner⟩ | ⟨rfl, many⟩
  · rw [same] at member
    obtain ⟨entry, placed, rfl⟩ := List.mem_map.mp member
    obtain ⟨d, held, _, _, first⟩ := mem_readEach read placed
    obtain ⟨fields, component, c, rfl, needed, readComponent, made⟩ := Placement.parts_of_read first
    obtain ⟨_, _, -, -, rfl⟩ := Placement.parts_of_make made
    have expected := Component.expected_of_totals readComponent inner.of_refresh
    rcases Record.holds_of_items listed held with part | ⟨s, text⟩
    · exact expected.within (part.trans (Record.holds_of_lookup (Record.lookup_of_need needed)))
    · cases text
  · rw [same, List.length_map, length_readEach read] at many
    obtain ⟨e, held, endless⟩ := r.endless_of_items listed many
    exact Or.inr (.endless held endless)

theorem ofFields_fails {defaults : Defaults} (usable : defaults.Usable) {id : Datum} {r : Record}
    (held : (Datum.object r).Holds id) :
    FailsAs (Fault.Expected (.object r)) (ofFields defaults id r) := by
  refine .bind (r.items_fails _) fun ds listed => ?_
  have each (known : Keyed Template) := r.each_fails listed (Placement.ofRecord_fails known)
    fun s => .error (Or.inl rfl)
  refine .bind (.readEach each []) fun placements read => ?_
  refine .bind (id.asText_fails.imp fun _ expected => expected.within held) fun _ _ => ?_
  refine .bind (r.text_fails _) fun _ _ => ?_
  refine .bind (r.text_fails _) fun _ _ => ?_
  refine .bind (r.text_fails _) fun _ _ => ?_
  refine .bind (r.items_fails _) fun _ steps => ?_
  refine .bind (.mapM (r.each_fails steps AssemblyStep.ofRecord_fails fun s => .error (Or.inl rfl)))
    fun _ _ => ?_
  refine .bind (r.need_fails _ _) fun _ created => ?_
  refine .bind (r.needed_fails created (Datum.moment_fails _ _)) fun _ _ => ?_
  refine .bind (r.need_fails _ _) fun _ updated => ?_
  refine .bind (r.needed_fails updated (Datum.moment_fails _ _)) fun _ _ => ?_
  refine .bind (r.label_fails _) fun _ _ => ?_
  refine .bind (.map ((totals_fails usable rfl rfl).imp fun f cause => ?_)) fun _ _ => .ok _
  exact expected_of_totals listed read (by simp [components, refresh, Placement.refresh]) cause

/-- A product is read, or its record has a wrong value, or something in it passes through all readers. -/
theorem ofRecord_fails {defaults : Defaults} (usable : defaults.Usable) (d : Datum) :
    FailsAs (fun f => f.kind = .value ∨ f.Escapes d) (ofRecord defaults d) := by
  refine .bind ((Datum.asRecord_value _ d).imp fun _ => Or.inl) fun r record => ?_
  obtain rfl := Datum.asRecord_ok record
  refine .bind ((r.need_value _ _).imp fun _ => Or.inl) fun id needed => ?_
  have held := Record.holds_of_lookup (Record.lookup_of_need needed)
  dsimp only
  split
  · refine Outcome.within_fails (ofFields_fails usable held) (fun _ => rfl) fun f d shown => ?_
    obtain rfl : d = id := by simpa [Fault.shownValues] using shown
    exact held
  · refine .error (Fault.raised_fails rfl fun d shown deep => ?_)
    simp only [Fault.shownValues, List.mem_cons, List.not_mem_nil, or_false] at shown
    rcases shown with rfl | rfl
    · rcases r.valueOr_cases "version" (.int recordVersion) with usual | found
      · exact absurd (usual ▸ deep) (Datum.not_tooDeep_number _)
      · exact Record.holds_of_lookup found
    · exact held

end Product
end Joinery
