import Joinery.Estimate.Cost
import Joinery.Proofs.Datum.Shown
import Joinery.Proofs.Number.Bound
import Joinery.Proofs.Outcome

/-!
When totals can be taken. Every time and every cost is rounded to hundredths and so stays small,
which leaves the fallbacks of the rates and the two parameters as all that can be in the way.
-/
namespace Joinery
open Number

/-- Rates whose fallbacks are doubles or whole numbers with a double. -/
structure RateTable.Usable (t : RateTable) : Prop where
  material : ∃ x, t.materialFallback.toFloat = .ok x
  equipment : ∃ x, t.equipmentFallback.toFloat = .ok x

structure EstimateParameters.Usable (p : EstimateParameters) : Prop where
  hourlyRate : ∃ x, p.hourlyRate.toFloat = .ok x
  overheadRate : ∃ x, p.overheadRate.toFloat = .ok x

structure ComponentTotals.AllSmall (t : ComponentTotals) : Prop where
  totalTime : Small 47 t.totalTime
  materialCost : Small 47 t.materialCost
  processCost : Small 47 t.processCost
  totalCost : Small 47 t.totalCost

theorem Operation.usedEquipment_hasText {p : Operation} (has : p.equipment.HasText) :
    p.usedEquipment.HasText := by
  simp only [usedEquipment, Template.equipmentOr]
  split
  · exact has
  · split
    · exact Datum.hasText_text _
    · exact Datum.hasText_null

theorem Rates.lookup_ok {fallback : Numeral} {x : Float} (usable : fallback.toFloat = .ok x)
    (table : Keyed Float) {name : Datum} (has : name.HasText) :
    ∃ y, Rates.lookup table name fallback = .ok y := by
  obtain ⟨s, shown⟩ := has
  simp only [lookup, shown, ok_bind]
  split
  · exact ⟨_, rfl⟩
  · exact ⟨x, usable⟩

namespace RateTable.Usable
variable {rates : RateTable} (usable : rates.Usable)
include usable

theorem materialPrice (material : String) : ∃ x, rates.materialPrice (.text material) = .ok x := by
  obtain ⟨x, read⟩ := usable.material
  exact Rates.lookup_ok read rates.materials (Datum.hasText_text material)

theorem equipmentRate {equipment : Datum} (has : equipment.HasText) :
    ∃ x, rates.equipmentRate equipment = .ok x := by
  obtain ⟨x, read⟩ := usable.equipment
  simp only [RateTable.equipmentRate]
  split
  · exact Rates.lookup_ok read rates.equipment has
  · exact ⟨x, read⟩

end RateTable.Usable

namespace Duration

theorem rounded_of_rule {rule : Rule} {parameters : List Parameter} {s : Subject} {d : Duration}
    (computed : rule.compute parameters s = .ok d) : ∃ z, d.minutes = roundHundredths z := by
  cases rule with
  | formula logic =>
    obtain ⟨e, -, rfl⟩ := map_ok.mp computed
    exact ⟨_, rfl⟩
  | heuristic name =>
    obtain ⟨hours, -, same⟩ := bind_ok.mp computed
    obtain rfl := Except.ok.inj same
    exact ⟨_, rfl⟩
  | efficiency settings =>
    obtain ⟨minutes, timed, rfl⟩ := map_ok.mp computed
    obtain ⟨sizeFactor, -, rest⟩ := bind_ok.mp timed
    obtain ⟨ownFactor, -, rest⟩ := bind_ok.mp rest
    obtain ⟨complexity, -, rest⟩ := bind_ok.mp rest
    obtain ⟨base, -, same⟩ := bind_ok.mp rest
    obtain rfl := Except.ok.inj same
    exact ⟨_, rfl⟩

theorem rounded_compute (t : Template) (parameters : List Parameter) (s : Subject) :
    ∃ z, (compute t parameters s).minutes = roundHundredths z := by
  simp only [compute]
  cases computed : (Rule.ofTemplate t).compute parameters s with
  | ok d => exact rounded_of_rule computed
  | error f => exact ⟨0, rfl⟩

theorem small_compute (t : Template) (parameters : List Parameter) (s : Subject) :
    Small 47 (compute t parameters s).minutes := by
  obtain ⟨z, rounded⟩ := rounded_compute t parameters s
  rw [rounded]
  exact small_roundHundredths z

end Duration

namespace Estimate

theorem sum_ok {xs : List Float} (small : ∀ x ∈ xs, Small 47 x) (short : xs.length < 2 ^ 63) :
    ∃ x, sum xs = .ok x := by
  obtain ⟨x, summed⟩ := sum?_of_small small short
  exact ⟨x, by simp [sum, summed]⟩

theorem small_minutes (c : Component) :
    ∀ x ∈ c.operations.map (minutes c), Small 47 x := by
  intro x member
  obtain ⟨p, -, rfl⟩ := List.mem_map.mp member
  exact Duration.small_compute p.template p.parameters c

theorem componentTotals_parts {rates : RateTable} {c : Component} {totals : ComponentTotals}
    (taken : componentTotals rates c = .ok totals) :
    ∃ costs process, c.operations.mapM (processCost rates c) = .ok costs ∧
      sum costs = .ok process ∧ materialCost rates c = .ok totals.materialCost ∧
      total (c.operations.map (minutes c)) = .ok totals.totalTime ∧
      totals.processCost = roundHundredths process ∧
      totals.totalCost = roundHundredths (totals.materialCost + process) := by
  obtain ⟨costs, costed, rest⟩ := bind_ok.mp taken
  obtain ⟨process, summed, rest⟩ := bind_ok.mp rest
  obtain ⟨material, priced, rest⟩ := bind_ok.mp rest
  obtain ⟨time, timed, same⟩ := bind_ok.mp rest
  obtain rfl := Except.ok.inj same
  exact ⟨costs, process, costed, summed, priced, timed, rfl, rfl⟩

theorem componentTotals_ok {rates : RateTable} (usable : rates.Usable) {c : Component}
    (short : c.operations.length < 2 ^ 63) (shown : ∀ p ∈ c.operations, p.equipment.HasText) :
    ∃ totals, componentTotals rates c = .ok totals ∧ totals.AllSmall := by
  obtain ⟨costs, costed, length, small⟩ :
      ∃ costs, c.operations.mapM (processCost rates c) = .ok costs ∧
        costs.length = c.operations.length ∧ ∀ x ∈ costs, Small 47 x := by
    refine mapM_each fun p member => ?_
    obtain ⟨rate, found⟩ := usable.equipmentRate (Operation.usedEquipment_hasText (shown p member))
    exact ⟨costOfMinutes rate (minutes c p), by simp [processCost, costOf, found, Except.map],
      small_roundHundredths _⟩
  obtain ⟨processCost, summed⟩ := sum_ok small (by omega)
  obtain ⟨price, found⟩ := usable.materialPrice c.material
  obtain ⟨time, timed, smallTime⟩ := total_of_small (small_minutes c) (by simpa using short)
  refine ⟨_, by
    simp only [componentTotals, totalsOf, costed, summed, materialCost, boardCost, found, timed, bind,
      Except.bind, Except.map]
    rfl, ?_⟩
  exact ⟨smallTime, small_roundHundredths _, small_roundHundredths _, small_roundHundredths _⟩

theorem hasText_of_processCost {rates : RateTable} {c : Component} {p : Operation} {x : Float}
    (costed : processCost rates c p = .ok x) : p.equipment.HasText := by
  by_cases given : p.equipment.isGiven = true
  · obtain ⟨rate, found, -⟩ := map_ok.mp costed
    have own : p.usedEquipment = p.equipment := by
      simp [Operation.usedEquipment, Template.equipmentOr, given]
    rw [own, RateTable.equipmentRate, if_pos given] at found
    obtain ⟨s, shown, -⟩ := bind_ok.mp found
    exact ⟨s, shown⟩
  · exact Datum.hasText_of_not_given (Bool.eq_false_iff.mpr given)

theorem hasText_of_componentTotals {rates : RateTable} {c : Component} {totals : ComponentTotals}
    (taken : componentTotals rates c = .ok totals) : ∀ p ∈ c.operations, p.equipment.HasText := by
  intro p member
  obtain ⟨costs, costed, -⟩ := bind_ok.mp taken
  obtain ⟨x, cost⟩ := mapM_member costed p member
  exact hasText_of_processCost cost

theorem componentTotals_ok_iff {rates : RateTable} (usable : rates.Usable) {c : Component}
    (short : c.operations.length < 2 ^ 63) :
    (∃ totals, componentTotals rates c = .ok totals) ↔ ∀ p ∈ c.operations, p.equipment.HasText := by
  constructor
  · rintro ⟨totals, taken⟩
    exact hasText_of_componentTotals taken
  · intro shown
    obtain ⟨totals, taken, -⟩ := componentTotals_ok usable short shown
    exact ⟨totals, taken⟩

/-- The totals of components of equal material costs, whose operations take equal times and cost the same
one by one. -/
theorem componentTotals_of_operations {rates : RateTable} {c d : Component}
    (material : materialCost rates c = materialCost rates d)
    (operations : List.Forall₂ (fun p q => minutes c p = minutes d q ∧
      processCost rates c p = processCost rates d q) c.operations d.operations) :
    componentTotals rates c = componentTotals rates d := by
  have times : c.operations.map (minutes c) = d.operations.map (minutes d) := by
    rw [← List.forall₂_eq_eq_eq, List.forall₂_map_left_iff, List.forall₂_map_right_iff]
    exact operations.imp fun _ _ same => same.1
  have costs : c.operations.mapM (processCost rates c) = d.operations.mapM (processCost rates d) :=
    mapM_of_forall₂ (operations.imp fun _ _ same => same.2)
  rw [componentTotals, componentTotals, costs, material, times]

theorem labor_ok {params : EstimateParameters} (usable : params.Usable) (time material : Float) :
    ∃ costs, labor params time material = .ok costs := by
  obtain ⟨hourly, readHourly⟩ := usable.hourlyRate
  obtain ⟨overhead, readOverhead⟩ := usable.overheadRate
  exact ⟨_, by
    simp only [labor, readHourly, readOverhead, bind, Except.bind]
    rfl⟩

theorem total_of_parts {α : Type} {parts : List α} {amount : α → Float}
    (small : ∀ t ∈ parts, Small 47 (amount t)) (short : parts.length < 2 ^ 63) :
    ∃ x, total (parts.map amount) = .ok x := by
  have each : ∀ x ∈ parts.map amount, Small 47 x := by
    intro x member
    obtain ⟨t, mt, rfl⟩ := List.mem_map.mp member
    exact small t mt
  obtain ⟨x, summed, -⟩ := total_of_small each (by simpa using short)
  exact ⟨x, summed⟩

theorem productTotals_ok {rates : RateTable} {params : EstimateParameters} (usable : rates.Usable)
    (usableParams : params.Usable) {components : List Component}
    (short : components.length < 2 ^ 63)
    (shortEach : ∀ c ∈ components, c.operations.length < 2 ^ 63)
    (shown : ∀ c ∈ components, ∀ p ∈ c.operations, p.equipment.HasText) :
    ∃ totals, productTotals rates params components = .ok totals := by
  obtain ⟨parts, taken, length, small⟩ :=
    mapM_each fun c member => componentTotals_ok usable (shortEach c member) (shown c member)
  have shortParts : parts.length < 2 ^ 63 := by omega
  obtain ⟨time, timed⟩ := total_of_parts (fun t mt => (small t mt).totalTime) shortParts
  obtain ⟨material, priced⟩ := total_of_parts (fun t mt => (small t mt).materialCost) shortParts
  obtain ⟨process, worked⟩ := total_of_parts (fun t mt => (small t mt).processCost) shortParts
  obtain ⟨whole, added⟩ := total_of_parts (fun t mt => (small t mt).totalCost) shortParts
  obtain ⟨⟨laborCost, estimatedCost⟩, laboured⟩ := labor_ok usableParams time material
  exact ⟨_, by
    simp only [productTotals, sumUp, taken, timed, priced, worked, added, laboured, bind, Except.bind]
    rfl⟩

end Estimate
end Joinery
