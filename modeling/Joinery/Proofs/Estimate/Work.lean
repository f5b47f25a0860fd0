import Joinery.Proofs.Duration.Equality
import Joinery.Proofs.Estimate.Reports

/-!
Products with one estimate. The times and the costs of a component depend on the work that is done on
it: on the rules of its templates, on the parameters, and on the equipment that is used.
-/
namespace Joinery

/-- Alike rules, and the same equipment where an operation names none. -/
structure Template.EstimatesAs (t u : Template) : Prop where
  rule : (Duration.Rule.ofTemplate t).Alike (Duration.Rule.ofTemplate u)
  equipment : t.primaryEquipment = u.primaryEquipment

structure Operation.SameWork (p q : Operation) : Prop where
  id : p.id = q.id
  duration : ∀ s, Duration.compute p.template p.parameters s =
    Duration.compute q.template q.parameters s
  equipment : p.usedEquipment = q.usedEquipment

/-- Components that differ in nothing but their operations, where these are the same work. -/
structure Component.SameWork (c d : Component) : Prop where
  frame : d = { c with operations := d.operations }
  operations : List.Forall₂ Operation.SameWork c.operations d.operations

theorem Operation.sameWork_timed (p : Operation) (c : Component) : (p.timed c).SameWork p :=
  ⟨rfl, fun _ => rfl, rfl⟩

theorem Operation.sameWork_of_template {p : Operation} {t : Template} (alike : t.EstimatesAs p.template) :
    Operation.SameWork { p with template := t } p where
  id := rfl
  duration := Duration.compute_of_rules alike.rule p.parameters
  equipment := by simp only [usedEquipment, Template.equipmentOr, alike.equipment]

namespace Operation.SameWork

theorem symm {p q : Operation} (same : p.SameWork q) : q.SameWork p :=
  ⟨same.id.symm, fun c => (same.duration c).symm, same.equipment.symm⟩

theorem trans {p q r : Operation} (first : p.SameWork q) (second : q.SameWork r) : p.SameWork r :=
  ⟨first.id.trans second.id, fun c => (first.duration c).trans (second.duration c),
    first.equipment.trans second.equipment⟩

end Operation.SameWork

namespace Component

def times (c : Component) : List (String × Float × Option String) :=
  c.operations.map fun p => (p.id, p.minutes, p.diagnostic)

def calculatedTimes (c : Component) : List (String × Float × Option String) :=
  c.operations.map fun p =>
    let d := Duration.compute p.template p.parameters c
    (p.id, d.minutes, d.diagnostic)

theorem times_of_fresh {c : Component} (fresh : c.Fresh) : c.times = c.calculatedTimes := by
  apply List.map_congr_left
  intro p member
  obtain ⟨minutes, diagnostic⟩ := fresh p member
  rw [minutes, diagnostic]

theorem sameWork_of_maps (c : Component) {f g : Operation → Operation}
    (each : ∀ p ∈ c.operations, (f p).SameWork (g p)) :
    (refresh { c with operations := c.operations.map f }).SameWork
      (refresh { c with operations := c.operations.map g }) where
  frame := rfl
  operations := by
    simp only [refresh, List.forall₂_map_left_iff, List.forall₂_map_right_iff, List.forall₂_same]
    intro p member
    exact ((Operation.sameWork_timed _ _).trans (each p member)).trans
      (Operation.sameWork_timed _ _).symm

namespace SameWork
variable {c d : Component} (same : c.SameWork d)
include same

theorem totals_eq (rates : RateTable) :
    Estimate.componentTotals rates c = Estimate.componentTotals rates d := by
  obtain ⟨frame, operations⟩ := same
  generalize d.operations = work at frame operations
  obtain rfl := frame
  refine Estimate.componentTotals_of_operations rfl (operations.imp fun p q alike => ?_)
  have minutes : Estimate.minutes c p = Estimate.minutes { c with operations := work } q :=
    congrArg Duration.minutes (alike.duration c.subject)
  refine ⟨minutes, ?_⟩
  rw [Estimate.processCost, Estimate.processCost, alike.equipment, minutes]

theorem calculatedTimes_eq : c.calculatedTimes = d.calculatedTimes := by
  obtain ⟨frame, operations⟩ := same
  unfold calculatedTimes
  generalize d.operations = work at frame operations ⊢
  obtain rfl := frame
  rw [← List.forall₂_eq_eq_eq, List.forall₂_map_left_iff, List.forall₂_map_right_iff]
  refine operations.imp fun p q alike => ?_
  have duration : Duration.compute p.template p.parameters c.subject =
      Duration.compute q.template q.parameters (subject { c with operations := work }) :=
    alike.duration c.subject
  rw [duration, alike.id]

theorem id_eq : c.id = d.id := by
  rw [same.frame]

end SameWork
end Component

namespace Product

def times (p : Product) : List (String × List (String × Float × Option String)) :=
  p.components.map fun c => (c.id, c.times)

structure SameEstimate (p q : Product) : Prop where
  times : p.times = q.times
  totals : ∀ rates params, Estimate.productTotals rates params p.components =
    Estimate.productTotals rates params q.components

theorem SameEstimate.trans {p q r : Product} (first : p.SameEstimate q) (second : q.SameEstimate r) :
    p.SameEstimate r :=
  ⟨first.times.trans second.times,
    fun rates params => (first.totals rates params).trans (second.totals rates params)⟩

theorem times_of_fresh {p : Product} (fresh : ∀ c ∈ p.components, c.Fresh) :
    p.times = p.components.map fun c => (c.id, c.calculatedTimes) := by
  apply List.map_congr_left
  intro c member
  rw [Component.times_of_fresh (fresh c member)]

theorem sameEstimate_of_work {p q : Product}
    (work : List.Forall₂ Component.SameWork p.components q.components)
    (fresh : ∀ c ∈ p.components, c.Fresh) (freshToo : ∀ c ∈ q.components, c.Fresh) :
    p.SameEstimate q where
  times := by
    rw [times_of_fresh fresh, times_of_fresh freshToo, ← List.forall₂_eq_eq_eq,
      List.forall₂_map_left_iff, List.forall₂_map_right_iff]
    refine work.imp fun c d same => ?_
    rw [same.id_eq, same.calculatedTimes_eq]
  totals rates params := by
    have parts : p.components.mapM (Estimate.componentTotals rates) =
        q.components.mapM (Estimate.componentTotals rates) :=
      mapM_of_forall₂ (work.imp fun _ _ same => same.totals_eq rates)
    simp only [Estimate.productTotals, parts]

def minutesOf (times : List (String × List (String × Float × Option String))) : Outcome Float :=
  times.mapM (fun c => Estimate.total (c.2.map fun p => p.2.1)) >>= Estimate.total

theorem minutesOf_times {rates : RateTable} {params : EstimateParameters} {p : Product}
    (fresh : ∀ c ∈ p.components, c.Fresh) {totals : ProductTotals}
    (taken : Estimate.productTotals rates params p.components = .ok totals) :
    minutesOf p.times = .ok totals.totalTime := by
  obtain ⟨parts, each, sums⟩ := Estimate.sumsOf_parts taken
  have times : p.times.mapM (fun c => Estimate.total (c.2.map fun p => p.2.1)) =
      .ok (parts.map ComponentTotals.totalTime) := by
    rw [times_of_fresh fresh, mapM_ok_iff, List.forall₂_map_left_iff, List.forall₂_map_right_iff]
    refine (mapM_ok_iff.mp each).imp fun c part taken => ?_
    rw [Component.calculatedTimes, List.map_map]
    exact totalTime_of_totals taken
  rw [minutesOf, times]
  exact sums.time

end Product
end Joinery
