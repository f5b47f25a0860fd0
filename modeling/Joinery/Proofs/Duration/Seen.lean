import Joinery.Estimate.Cost
import Joinery.Proofs.Outcome

/-!
What times and costs look at. Of its features a component shows the number of each type and the
factor of them all, and of its own fields only those that a formula, a guess or an efficiency reads.
A parameter shows its name and its value.
-/
namespace Joinery

/-- Components that differ, their operations apart, in nothing that a time or a price depends on. -/
structure Component.LooksLike (c d : Component) : Prop where
  size : c.size = d.size
  material : c.material = d.material
  complexity : c.complexity = d.complexity
  quantity : c.quantity = d.quantity
  edgeCount : c.edgeCount = d.edgeCount
  counts : ∀ type, Feature.countOf type c.features = Feature.countOf type d.features
  factor : Feature.factor c.features = Feature.factor d.features

def Parameter.input (p : Parameter) : String × Datum := (p.name, p.value)

namespace Duration

theorem parameterValues_of_inputs {ps qs : List Parameter}
    (same : ps.map Parameter.input = qs.map Parameter.input) :
    parameterValues ps = parameterValues qs := by
  induction ps generalizing qs with
  | nil =>
    obtain rfl := List.map_eq_nil_iff.mp same.symm
    rfl
  | cons p ps ih =>
    cases qs with
    | nil => cases same
    | cons q qs =>
      obtain ⟨first, rest⟩ := List.cons.inj same
      obtain ⟨name, value⟩ := Prod.mk.inj first
      have later := ih rest
      simp only [parameterValues, List.filterMapM_cons] at later ⊢
      rw [later, name, value]

theorem environment_of_inputs (catalog : Catalog) (s : Subject) {ps qs : List Parameter}
    (same : ps.map Parameter.input = qs.map Parameter.input) :
    environment catalog ps s = environment catalog qs s := by
  rw [environment, environment, parameterValues_of_inputs same]

theorem compute_of_inputs (t : Template) (s : Subject) {ps qs : List Parameter}
    (same : ps.map Parameter.input = qs.map Parameter.input) : compute t ps s = compute t qs s := by
  have rule : (Rule.ofTemplate t).compute ps s = (Rule.ofTemplate t).compute qs s := by
    cases Rule.ofTemplate t with
    | formula logic =>
      simp only [Rule.compute, byFormula, evaluateFormula, environment_of_inputs _ s same]
    | heuristic name => rfl
    | efficiency settings => rfl
  rw [compute, compute, rule]

end Duration

variable {c d : Component} (alike : c.LooksLike d)
include alike

theorem Component.subject_of_alike : c.subject = d.subject := by
  obtain ⟨size, material, complexity, quantity, edgeCount, counts, factor⟩ := alike
  simp only [subject, size, material, complexity, quantity, edgeCount, counts, factor]

theorem Duration.compute_of_alike (t : Template) {ps qs : List Parameter}
    (same : ps.map Parameter.input = qs.map Parameter.input) : compute t ps c = compute t qs d := by
  rw [Component.subject_of_alike alike, compute_of_inputs t _ same]

namespace Estimate

theorem materialCost_of_alike (rates : RateTable) : materialCost rates c = materialCost rates d := by
  simp only [materialCost, alike.material, alike.size]

theorem processCost_of_alike (rates : RateTable) {p q : Operation} (template : p.template = q.template)
    (inputs : p.parameters.map Parameter.input = q.parameters.map Parameter.input)
    (equipment : p.usedEquipment = q.usedEquipment) :
    processCost rates c p = processCost rates d q := by
  have duration := Duration.compute_of_alike alike q.template inputs
  simp only [processCost, minutes, template, duration, equipment]

end Estimate
end Joinery
