import Joinery.Proofs.Duration.Seen
import Joinery.Proofs.Product.Fresh

/-!
What prices and progress depend on. Two products have the same totals as soon as their components
agree in what is priced, and the same completion as soon as their leaves are equally far, whatever
else they hold.
-/
namespace Joinery

def Feature.kindAndCount (f : Feature) : FeatureType × Nat := (f.type, f.count)

/-- Operations that are priced alike: neither their progress nor their stored times count. -/
structure Operation.PricedAs (p q : Operation) : Prop where
  template : p.template = q.template
  inputs : p.parameters.map Parameter.input = q.parameters.map Parameter.input
  equipment : p.equipment = q.equipment

/-- Components that are priced alike: neither their names nor their notes count. -/
structure Component.PricedAs (c d : Component) : Prop where
  size : c.size = d.size
  material : c.material = d.material
  complexity : c.complexity = d.complexity
  quantity : c.quantity = d.quantity
  edgeCount : c.edgeCount = d.edgeCount
  features : c.features.map Feature.kindAndCount = d.features.map Feature.kindAndCount
  operations : List.Forall₂ Operation.PricedAs c.operations d.operations

def Product.leaves (p : Product) : List Progress :=
  (p.placements.map fun entry => entry.component.operations.map Operation.status).flatten ++
    p.steps.map AssemblyStep.status

namespace Feature

theorem countOf_eq (type : FeatureType) (fs : List Feature) :
    countOf type fs =
      (((fs.map kindAndCount).filter fun k => k.1 = type).map Prod.snd).sum := by
  rw [countOf, List.filter_map, List.map_map]
  rfl

theorem factor_of_kinds {fs gs : List Feature}
    (same : fs.map kindAndCount = gs.map kindAndCount) : factor fs = factor gs := by
  have shares : fs.mapM share = gs.mapM share := by
    apply mapM_of_forall₂
    rw [← List.forall₂_eq_eq_eq, List.forall₂_map_left_iff, List.forall₂_map_right_iff] at same
    refine same.imp fun f g equal => ?_
    obtain ⟨type, count⟩ := Prod.mk.inj equal
    rw [share, share, type, count]
  rw [factor, factor, shares]

end Feature

theorem Operation.PricedAs.usedEquipment {p q : Operation} (alike : p.PricedAs q) :
    p.usedEquipment = q.usedEquipment := by
  rw [Operation.usedEquipment, Operation.usedEquipment, alike.equipment, alike.template]

namespace Component.PricedAs
variable {c d : Component} (alike : c.PricedAs d)
include alike

theorem looksLike : c.LooksLike d where
  size := alike.size
  material := alike.material
  complexity := alike.complexity
  quantity := alike.quantity
  edgeCount := alike.edgeCount
  counts type := by rw [Feature.countOf_eq, Feature.countOf_eq, alike.features]
  factor := Feature.factor_of_kinds alike.features

theorem componentTotals_eq (rates : RateTable) :
    Estimate.componentTotals rates c = Estimate.componentTotals rates d := by
  have looks := alike.looksLike
  refine Estimate.componentTotals_of_operations (Estimate.materialCost_of_alike looks rates)
    (alike.operations.imp fun p q same => ⟨?_, ?_⟩)
  · have duration := Duration.compute_of_alike looks q.template same.inputs
    rw [Estimate.minutes, Estimate.minutes, same.template, duration]
  · exact Estimate.processCost_of_alike looks rates same.template same.inputs same.usedEquipment

end Component.PricedAs

theorem Estimate.productTotals_of_priced (rates : RateTable) (params : EstimateParameters)
    {components others : List Component}
    (alike : List.Forall₂ Component.PricedAs components others) :
    productTotals rates params components = productTotals rates params others := by
  have parts : components.mapM (componentTotals rates) = others.mapM (componentTotals rates) :=
    mapM_of_forall₂ (alike.imp fun _ _ same => same.componentTotals_eq rates)
  rw [productTotals, productTotals, parts]

namespace Product

theorem statuses_eq_leaves (p : Product) : p.statuses = p.leaves := by
  rw [statuses, leaves, components, List.flatMap_map, List.flatMap_def]
  rfl

theorem completion_of_leaves {p q : Product} (same : p.leaves.Perm q.leaves) :
    p.completion = q.completion := by
  have none : p.leaves.isEmpty = q.leaves.isEmpty := same.isEmpty_eq
  rw [completion, completion, statuses_eq_leaves, statuses_eq_leaves, Estimate.completion,
    Estimate.completion, none, same.count_eq, same.length_eq]

end Product

/-- Totals depend on what is priced, and completion on how far the leaves are, and on nothing else. -/
theorem prices_ignore_progress_and_placement (p q : Product) :
    (List.Forall₂ Component.PricedAs p.components q.components →
      (∀ rates params, Estimate.productTotals rates params p.components =
        Estimate.productTotals rates params q.components) ∧
      (p.rates = q.rates → p.params = q.params →
        ∀ defaults, p.totals defaults = q.totals defaults)) ∧
    (p.leaves.Perm q.leaves → p.completion = q.completion) := by
  refine ⟨fun alike => ?_, Product.completion_of_leaves⟩
  have totals := fun rates params => Estimate.productTotals_of_priced rates params alike
  refine ⟨totals, fun rates params defaults => ?_⟩
  simp only [Product.totals, rates, params, totals]

namespace Shelf

def finish (c : Component) : Component :=
  { c with
    id := "left"
    name := "Left side"
    code := "L"
    notes := "oiled"
    features := c.features.map fun f => { f with id := "bore", size := none, name := "Bore" }
    operations := c.operations.map fun p =>
      { p with id := "cut", minutes := 0, actualTime := some 7, status := .completed, notes := "" } }

theorem finish_priced (c : Component) : c.PricedAs (finish c) where
  size := rfl
  material := rfl
  complexity := rfl
  quantity := rfl
  edgeCount := rfl
  features := by
    rw [finish, List.map_map]
    rfl
  operations := by
    rw [finish, List.forall₂_map_right_iff, List.forall₂_same]
    exact fun p _ => ⟨rfl, rfl, rfl⟩

def gluing : AssemblyStep := ⟨"glue", "Gluing", "", ["left"], 20, .pending, ""⟩

def finished : Product :=
  { product noon with
    id := "shelf-2"
    placements := (product noon).placements.map fun entry =>
      ⟨finish entry.component, 4, .text "left", 3⟩
    steps := [gluing]
    status := .inProduction }

def finishedInOak : Product :=
  { finished with
    placements := [⟨{ finish side with size := ⟨900, 400, 30⟩, material := "oak" }, 1, .null, 0⟩]
    rates := some .standard }

end Shelf

theorem shelf_prices_ignore_progress :
    List.Forall₂ Component.PricedAs (Shelf.product Shelf.noon).components
      Shelf.finished.components ∧
    (∀ rates params, Estimate.productTotals rates params (Shelf.product Shelf.noon).components =
      Estimate.productTotals rates params Shelf.finished.components) ∧
    (∀ defaults, (Shelf.product Shelf.noon).totals defaults = Shelf.finished.totals defaults) ∧
    (Shelf.product Shelf.noon).leaves ≠ Shelf.finished.leaves ∧
    Shelf.finished.leaves.Perm Shelf.finishedInOak.leaves ∧
    Shelf.finished.completion = Shelf.finishedInOak.completion := by
  have alike : List.Forall₂ Component.PricedAs (Shelf.product Shelf.noon).components
      Shelf.finished.components := by
    rw [Product.components, Product.components, Shelf.finished, List.forall₂_map_left_iff,
      List.forall₂_map_right_iff, List.forall₂_map_right_iff, List.forall₂_same]
    exact fun entry _ => Shelf.finish_priced entry.component
  have same : Shelf.finished.leaves.Perm Shelf.finishedInOak.leaves :=
    .of_eq (by decide +kernel)
  obtain ⟨rated, chosen⟩ := (prices_ignore_progress_and_placement _ _).1 alike
  refine ⟨alike, rated, chosen (by rw [Shelf.finished]) (by rw [Shelf.finished]), by decide +kernel,
    same, ?_⟩
  exact (prices_ignore_progress_and_placement _ _).2 same

end Joinery
