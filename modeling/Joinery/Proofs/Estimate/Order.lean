import Joinery.Estimate.Summary
import Joinery.Proofs.Datum.Giant
import Joinery.Proofs.Duration.Seen
import Joinery.Proofs.Estimate.Reports
import Joinery.Proofs.Record.Fault

/-!
Estimates in any order. What a calculation reads of the features are their counts and an exact sum,
and every total is an exact sum as well, so that nothing depends on the place of a feature, of an
operation, of a component or of a product.
-/
namespace Joinery
open Number
open Outcome (FailsAs)

variable {α β : Type}

theorem mapM_perm {f : α → Outcome β} {xs ys : List α} {as : List β} (perm : xs.Perm ys)
    (success : xs.mapM f = .ok as) : ∃ bs, ys.mapM f = .ok bs ∧ bs.Perm as := by
  obtain ⟨bs, each, order⟩ := List.perm_comp_forall₂ perm.symm (mapM_ok_iff.mp success)
  exact ⟨bs, mapM_ok_iff.mpr each, order⟩

/-- Where no step can fail in two ways, it does not matter either which of them is the first to
fail. -/
theorem mapM_perm_of_fault {f : α → Outcome β} {fault : Fault} {xs ys : List α}
    (one : ∀ a ∈ xs, FailsAs (· = fault) (f a)) (perm : xs.Perm ys) :
    (∃ as bs, xs.mapM f = .ok as ∧ ys.mapM f = .ok bs ∧ bs.Perm as) ∨
      (xs.mapM f = .error fault ∧ ys.mapM f = .error fault) := by
  have fails (zs : List α) (among : ∀ a ∈ zs, a ∈ xs) : FailsAs (· = fault) (zs.mapM f) :=
    .mapM fun a member => one a (among a member)
  cases first : xs.mapM f with
  | ok as =>
    obtain ⟨bs, second, order⟩ := mapM_perm perm first
    exact Or.inl ⟨as, bs, rfl, second, order⟩
  | error g =>
    obtain rfl := fails xs (fun _ => id) g first
    cases second : ys.mapM f with
    | ok bs =>
      obtain ⟨as, succeeds, -⟩ := mapM_perm perm.symm second
      rw [first] at succeeds
      cases succeeds
    | error h =>
      obtain rfl := fails ys (fun _ => perm.mem_iff.mpr) h second
      exact Or.inr ⟨rfl, rfl⟩

namespace Estimate

theorem sum_perm {xs ys : List Float} (perm : xs.Perm ys) : sum xs = sum ys := by
  simp only [sum, sum?, (perm.map units).sum_eq]

theorem total_perm {xs ys : List Float} (perm : xs.Perm ys) : total xs = total ys := by
  rw [total, sum_perm perm, total]

end Estimate

namespace Feature

theorem share_fails (f : Feature) : FailsAs (· = .integerTooLarge) f.share :=
  .map fun _ fails => (Numeral.toFloat_error_iff.mp fails).1

theorem countOf_perm (type : FeatureType) {fs gs : List Feature} (perm : fs.Perm gs) :
    countOf type fs = countOf type gs := ((perm.filter _).map count).sum_eq

theorem factor_perm {fs gs : List Feature} (perm : fs.Perm gs) : factor fs = factor gs := by
  rcases mapM_perm_of_fault (fun f _ => share_fails f) perm with
    ⟨xs, ys, first, second, order⟩ | ⟨first, second⟩
  · have sums : sum? ys = sum? xs := by simp only [sum?, (order.map units).sum_eq]
    rw [factor, factor, first, second, factorOf, factorOf, ok_bind, ok_bind, sums]
  · rw [factor, factor, first, second]

end Feature

theorem RateTable.equipmentRate_fails (rates : RateTable) {equipment : Datum}
    (has : equipment.HasText) : FailsAs (· = .integerTooLarge) (rates.equipmentRate equipment) := by
  have fallback : FailsAs (· = .integerTooLarge) rates.equipmentFallback.toFloat :=
    fun _ fails => (Numeral.toFloat_error_iff.mp fails).1
  obtain ⟨s, shown⟩ := has
  simp only [equipmentRate, Rates.lookup, shown, ok_bind]
  split
  · split
    · exact .ok _
    · exact fallback
  · exact fallback

namespace Component
variable {c : Component} {features : List Feature} {operations : List Operation}

theorem looksLike_of_perm (perm : features.Perm c.features) :
    LooksLike { c with features, operations } c where
  size := rfl
  material := rfl
  complexity := rfl
  quantity := rfl
  edgeCount := rfl
  counts type := Feature.countOf_perm type perm
  factor := Feature.factor_perm perm

end Component

namespace Estimate
variable {c : Component} {features : List Feature} {operations : List Operation}

/-- The totals of a component do not depend on the order of its features, but for the times and the costs
of its operations in theirs. -/
theorem componentTotals_regrouped (rates : RateTable) (perm : features.Perm c.features)
    (order : operations.Perm c.operations) :
    componentTotals rates { c with features, operations } =
      totalsOf (operations.mapM (processCost rates c)) (materialCost rates c)
        (operations.map (minutes c)) ∧
    ∀ costs, totalsOf costs (materialCost rates c) (operations.map (minutes c)) =
      totalsOf costs (materialCost rates c) (c.operations.map (minutes c)) := by
  have alike : Component.LooksLike { c with features, operations } c :=
    Component.looksLike_of_perm perm
  have sameMinutes : minutes { c with features, operations } = minutes c := by
    funext p
    exact congrArg Duration.minutes (Duration.compute_of_alike alike p.template rfl)
  have sameCosts : processCost rates { c with features, operations } = processCost rates c := by
    funext p
    exact processCost_of_alike alike rates rfl rfl rfl
  have times : total (operations.map (minutes c)) = total (c.operations.map (minutes c)) :=
    total_perm (order.map _)
  exact ⟨by rw [componentTotals, sameMinutes, sameCosts, materialCost_of_alike alike],
    fun costs => by rw [totalsOf, totalsOf, times]⟩

theorem totalsOf_perm {costs others : List Float} (perm : costs.Perm others)
    (material : Outcome Float) (times : List Float) :
    totalsOf (.ok costs) material times = totalsOf (.ok others) material times := by
  rw [totalsOf, totalsOf, ok_bind, ok_bind, sum_perm perm]

theorem componentTotals_perm_ok (rates : RateTable) (perm : features.Perm c.features)
    (order : operations.Perm c.operations) {totals : ComponentTotals} :
    componentTotals rates { c with features, operations } = .ok totals ↔
      componentTotals rates c = .ok totals := by
  obtain ⟨regrouped, times⟩ := componentTotals_regrouped rates perm order
  rw [regrouped, times, componentTotals]
  constructor
  · intro taken
    obtain ⟨costs, costed, -⟩ := bind_ok.mp taken
    obtain ⟨others, again, same⟩ := mapM_perm order costed
    rw [again, totalsOf_perm same, ← costed, taken]
  · intro taken
    obtain ⟨costs, costed, -⟩ := bind_ok.mp taken
    obtain ⟨others, again, same⟩ := mapM_perm order.symm costed
    rw [again, totalsOf_perm same, ← costed, taken]

/-- Totals that cannot be taken fail in one way in every order, unless it is for the equipment of an
operation, whose text may fail in two. -/
theorem componentTotals_perm (rates : RateTable) (perm : features.Perm c.features)
    (order : operations.Perm c.operations) (shown : ∀ p ∈ c.operations, p.equipment.HasText) :
    componentTotals rates { c with features, operations } = componentTotals rates c := by
  obtain ⟨regrouped, times⟩ := componentTotals_regrouped rates perm order
  have fails : ∀ p ∈ operations, FailsAs (· = .integerTooLarge) (processCost rates c p) := by
    intro p member
    have has := Operation.usedEquipment_hasText (shown p (order.mem_iff.mp member))
    exact .map (rates.equipmentRate_fails has)
  rw [regrouped, times, componentTotals]
  rcases mapM_perm_of_fault fails order with ⟨xs, ys, first, second, costs⟩ | ⟨first, second⟩
  · rw [first, second, totalsOf_perm costs.symm]
  · rw [first, second]

theorem productTotals_perm {rates : RateTable} {params : EstimateParameters}
    {components others : List Component} {totals : ProductTotals} (perm : components.Perm others)
    (taken : productTotals rates params components = .ok totals) :
    productTotals rates params others = .ok totals := by
  obtain ⟨parts, each, rest⟩ := bind_ok.mp taken
  obtain ⟨parts', each', order⟩ := mapM_perm perm each
  refine bind_ok.mpr ⟨parts', each', ?_⟩
  rw [sumUp, total_perm (order.map ComponentTotals.totalTime),
    total_perm (order.map ComponentTotals.materialCost),
    total_perm (order.map ComponentTotals.processCost),
    total_perm (order.map ComponentTotals.totalCost), order.length_eq]
  exact rest

theorem summarize_perm {rates : RateTable} {params : EstimateParameters}
    {products others : List Product} {s : ProjectSummary} (perm : products.Perm others)
    (taken : summarize rates params products = .ok s) :
    summarize rates params others = .ok s := by
  obtain ⟨parts, each, rest⟩ := bind_ok.mp taken
  obtain ⟨parts', each', order⟩ := mapM_perm perm each
  refine bind_ok.mpr ⟨parts', each', ?_⟩
  rw [total_perm (order.map ProductTotals.totalCost), total_perm (order.map ProductTotals.totalTime),
    (order.map ProductTotals.totalComponents).sum_eq, (perm.symm.map operationCount).sum_eq,
    perm.symm.length_eq]
  exact rest

/-- No order matters to an estimate: not that of the features and operations of a component, each of
which keeps its duration and its cost, nor that of the components of a product or of the products of
a project. -/
theorem estimates_ignore_order :
    (∀ (c : Component) (features : List Feature) (operations : List Operation),
      features.Perm c.features → operations.Perm c.operations →
      (∀ rates, (∀ totals, componentTotals rates { c with features, operations } = .ok totals ↔
          componentTotals rates c = .ok totals) ∧
        ((∀ p ∈ c.operations, p.equipment.HasText) →
          componentTotals rates { c with features, operations } = componentTotals rates c)) ∧
      ∀ p : Operation,
        Duration.compute p.template p.parameters (Component.subject { c with features, operations }) =
          Duration.compute p.template p.parameters c.subject ∧
        ∀ rates, processCost rates { c with features, operations } p = processCost rates c p) ∧
    (∀ (rates : RateTable) (params : EstimateParameters) (components others : List Component),
      components.Perm others → ∀ totals, productTotals rates params components = .ok totals ↔
        productTotals rates params others = .ok totals) ∧
    ∀ (rates : RateTable) (params : EstimateParameters) (products others : List Product),
      products.Perm others → ∀ s, summarize rates params products = .ok s ↔
        summarize rates params others = .ok s := by
  refine ⟨?_, ?_, ?_⟩
  · intro c features operations perm order
    have alike : Component.LooksLike { c with features, operations } c :=
      Component.looksLike_of_perm perm
    refine ⟨fun rates => ⟨fun totals => componentTotals_perm_ok rates perm order,
      componentTotals_perm rates perm order⟩, fun p => ⟨?_, fun rates => ?_⟩⟩
    · exact Duration.compute_of_alike alike p.template rfl
    · exact processCost_of_alike alike rates rfl rfl rfl
  · intro rates params components others perm totals
    exact ⟨productTotals_perm perm, productTotals_perm perm.symm⟩
  · intro rates params products others perm s
    exact ⟨summarize_perm perm, summarize_perm perm.symm⟩

end Estimate

namespace Shelf

def groove : Feature := { hole with id := "groove-1", type := .groove, count := 2 }

def resawing : Operation :=
  { operation with id := "saw-2", parameters := [⟨"grain", .int 7, .null, .null⟩] }

def grooved : Component :=
  { side with features := [hole, groove], operations := [operation, resawing] }

def regrouped : Component :=
  { grooved with features := [groove, hole], operations := [resawing, operation] }

theorem longer_listed : longer.Listed :=
  Product.listed_of_bare (by decide +kernel) (by decide +kernel) (by decide +kernel)

end Shelf

namespace Estimate

theorem shelf_ignores_order :
    [Shelf.groove, Shelf.hole].Perm Shelf.grooved.features ∧
    [Shelf.resawing, Shelf.operation].Perm Shelf.grooved.operations ∧
    (∃ totals, componentTotals .standard Shelf.grooved = .ok totals ∧
      componentTotals .standard Shelf.regrouped = .ok totals) ∧
    minutes Shelf.regrouped Shelf.resawing = minutes Shelf.grooved Shelf.resawing ∧
    (∃ totals,
      productTotals .standard .standard [Shelf.grooved, Shelf.side] = .ok totals ∧
      productTotals .standard .standard [Shelf.side, Shelf.grooved] = .ok totals) ∧
    ∃ s, summarize .standard .standard [Shelf.product Shelf.noon, Shelf.longer] = .ok s ∧
      summarize .standard .standard [Shelf.longer, Shelf.product Shelf.noon] = .ok s := by
  have features : [Shelf.groove, Shelf.hole].Perm Shelf.grooved.features := .swap _ _ _
  have operations : [Shelf.resawing, Shelf.operation].Perm Shelf.grooved.operations := .swap _ _ _
  obtain ⟨ofComponent, ofProduct, ofProject⟩ := estimates_ignore_order
  obtain ⟨sameTotals, sameWork⟩ := ofComponent Shelf.grooved _ _ features operations
  have usable : RateTable.standard.Usable := ⟨⟨_, rfl⟩, ⟨_, rfl⟩⟩
  have usableParams : EstimateParameters.standard.Usable := ⟨⟨_, rfl⟩, ⟨_, rfl⟩⟩
  have none : ∀ c ∈ [Shelf.grooved, Shelf.side], ∀ p ∈ c.operations,
      p.equipment.isGiven = false := by decide +kernel
  have bare : ∀ c ∈ [Shelf.grooved, Shelf.side], ∀ p ∈ c.operations, p.equipment.HasText :=
    fun c placed p member => Datum.hasText_of_not_given (none c placed p member)
  refine ⟨features, operations, ?_, congrArg Duration.minutes (sameWork Shelf.resawing).1, ?_, ?_⟩
  · have shown : ∀ p ∈ Shelf.grooved.operations, p.equipment.HasText :=
      bare Shelf.grooved (by simp)
    obtain ⟨totals, taken, -⟩ := componentTotals_ok usable (by decide) shown
    exact ⟨totals, taken, ((sameTotals .standard).2 shown).trans taken⟩
  · have few : ∀ c ∈ [Shelf.grooved, Shelf.side], c.operations.length < 2 ^ 63 := by
      decide +kernel
    obtain ⟨totals, taken⟩ := productTotals_ok usable usableParams (by decide) few bare
    have swapped : [Shelf.grooved, Shelf.side].Perm [Shelf.side, Shelf.grooved] := .swap _ _ _
    exact ⟨totals, taken, (ofProduct _ _ _ _ swapped totals).mp taken⟩
  · have listed : ∀ p ∈ [Shelf.product Shelf.noon, Shelf.longer], p.Listed := by
      rw [List.forall_mem_cons, List.forall_mem_singleton]
      exact ⟨Product.refresh_listed (Shelf.draft_listed _), Shelf.longer_listed⟩
    obtain ⟨s, summarized⟩ := summarize_ok usable usableParams listed (by decide)
    have swapped : [Shelf.product Shelf.noon, Shelf.longer].Perm
        [Shelf.longer, Shelf.product Shelf.noon] := .swap _ _ _
    exact ⟨s, summarized, (ofProject _ _ _ _ swapped s).mp summarized⟩

end Estimate
end Joinery
