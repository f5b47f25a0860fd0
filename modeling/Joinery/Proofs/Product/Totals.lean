import Joinery.Product
import Joinery.Proofs.Estimate.Totals

/-!
When the totals of a product can be taken. Its own rates and parameters apply where it has some, and
the defaults where it has none.
-/
namespace Joinery

structure Defaults.Usable (defaults : Defaults) : Prop where
  rates : ∃ rates, defaults.rates = .ok rates ∧ rates.Usable
  params : ∃ params, defaults.params = .ok params ∧ params.Usable

theorem Defaults.standard_usable : Defaults.standard.Usable where
  rates := ⟨.standard, rfl, ⟨_, rfl⟩, ⟨_, rfl⟩⟩
  params := ⟨.standard, rfl, ⟨_, rfl⟩, ⟨_, rfl⟩⟩

namespace Product

/-- As many components and operations as lists can hold. -/
structure Short (p : Product) : Prop where
  components : p.components.length < 2 ^ 63
  operations : ∀ c ∈ p.components, c.operations.length < 2 ^ 63

/-- A short product whose equipment has texts that can be taken. -/
structure Listed (p : Product) : Prop extends Short p where
  equipment : ∀ c ∈ p.components, ∀ q ∈ c.operations, q.equipment.HasText

/-- A product written out in full is seen to be listed where its operations go by the equipment of their
templates. -/
theorem listed_of_bare {p : Product} (components : p.components.length < 2 ^ 63)
    (operations : ∀ c ∈ p.components, c.operations.length < 2 ^ 63)
    (bare : ∀ c ∈ p.components, ∀ q ∈ c.operations, q.equipment.isGiven = false) : p.Listed :=
  ⟨⟨components, operations⟩, fun c placed q held => Datum.hasText_of_not_given (bare c placed q held)⟩

theorem totals_parts {defaults : Defaults} {p : Product} {totals : ProductTotals}
    (taken : p.totals defaults = .ok totals) :
    ∃ rates params, defaults.ratesOr p.rates = .ok rates ∧ defaults.paramsOr p.params = .ok params ∧
      Estimate.productTotals rates params p.components = .ok totals := by
  obtain ⟨rates, foundRates, rest⟩ := bind_ok.mp taken
  obtain ⟨params, foundParams, summed⟩ := bind_ok.mp rest
  exact ⟨rates, params, foundRates, foundParams, summed⟩

theorem totals_ok {defaults : Defaults} {p : Product} (usable : defaults.Usable)
    (rates : ∀ t ∈ p.rates, t.Usable) (params : ∀ t ∈ p.params, t.Usable) (listed : p.Listed) :
    ∃ totals, p.totals defaults = .ok totals := by
  obtain ⟨usedRates, foundRates, usableRates⟩ :
      ∃ t, defaults.ratesOr p.rates = .ok t ∧ t.Usable := by
    cases own : p.rates with
    | some t => exact ⟨t, rfl, rates t own⟩
    | none => exact usable.rates
  obtain ⟨usedParams, foundParams, usableParams⟩ :
      ∃ t, defaults.paramsOr p.params = .ok t ∧ t.Usable := by
    cases own : p.params with
    | some t => exact ⟨t, rfl, params t own⟩
    | none => exact usable.params
  obtain ⟨totals, taken⟩ :=
    Estimate.productTotals_ok usableRates usableParams listed.components listed.operations
      listed.equipment
  refine ⟨totals, ?_⟩
  simp only [Product.totals, foundRates, foundParams, bind, Except.bind]
  exact taken

/-- Totals are taken at the rates of all equipment. -/
theorem listed_of_totals {defaults : Defaults} {p : Product} {totals : ProductTotals}
    (short : p.Short) (taken : p.totals defaults = .ok totals) : p.Listed := by
  obtain ⟨rates, params, -, -, summed⟩ := totals_parts taken
  obtain ⟨parts, each, -⟩ := bind_ok.mp summed
  refine ⟨short, fun c placed => ?_⟩
  obtain ⟨part, own⟩ := mapM_member each c placed
  exact Estimate.hasText_of_componentTotals own

theorem refresh_listed {p : Product} (listed : p.Listed) : p.refresh.Listed := by
  refine ⟨⟨?_, ?_⟩, ?_⟩
  · have components := listed.components
    simp only [Product.components, List.length_map, refresh] at components ⊢
    exact components
  · intro c member
    obtain ⟨entry, placed, rfl⟩ := List.mem_map.mp member
    obtain ⟨before, mb, rfl⟩ := List.mem_map.mp placed
    have operations := listed.operations before.component (List.mem_map_of_mem mb)
    simpa [Placement.refresh, Component.refresh] using operations
  · intro c member q held
    obtain ⟨entry, placed, rfl⟩ := List.mem_map.mp member
    obtain ⟨before, mb, rfl⟩ := List.mem_map.mp placed
    obtain ⟨untimed, drawn, rfl⟩ := List.mem_map.mp held
    exact listed.equipment before.component (List.mem_map_of_mem mb) untimed drawn

def ofDraft (draft : ProductDraft) (status : ProductStatus) : Product where
  id := draft.id
  name := draft.name
  code := draft.code
  description := draft.description
  placements := draft.placements
  steps := draft.steps
  status := status
  createdAt := draft.createdAt
  updatedAt := draft.updatedAt
  rates := none
  params := none

theorem parts_of_make {defaults : Defaults} {draft : ProductDraft} {p : Product}
    (made : Product.make defaults draft = .ok p) :
    ∃ status totals, Choice.read draft.status = .ok status ∧ p = (ofDraft draft status).refresh ∧
      p.totals defaults = .ok totals := by
  obtain ⟨status, read, rest⟩ := bind_ok.mp made
  obtain ⟨_, discarded, same⟩ := bind_ok.mp rest
  obtain rfl := Except.ok.inj same
  obtain ⟨totals, taken, -⟩ := map_ok.mp discarded
  exact ⟨status, totals, read, rfl, taken⟩

theorem make_of_totals {defaults : Defaults} {draft : ProductDraft} {status : ProductStatus}
    {totals : ProductTotals} (read : Choice.read draft.status = .ok status)
    (taken : (ofDraft draft status).refresh.totals defaults = .ok totals) :
    Product.make defaults draft = .ok (ofDraft draft status).refresh := by
  have same : Product.make defaults draft = (do
      discard ((ofDraft draft status).refresh.totals defaults)
      return (ofDraft draft status).refresh) := by
    simp only [Product.make, read, bind, Except.bind]
    rfl
  rw [same, taken]
  rfl

theorem make_ok {defaults : Defaults} {draft : ProductDraft} {status : ProductStatus}
    (usable : defaults.Usable) (read : Choice.read draft.status = .ok status)
    (listed : (ofDraft draft status).Listed) :
    Product.make defaults draft = .ok (ofDraft draft status).refresh := by
  obtain ⟨totals, taken⟩ := totals_ok (p := (ofDraft draft status).refresh) usable
    (fun t own => by cases own) (fun t own => by cases own) (refresh_listed listed)
  exact make_of_totals read taken

end Product
end Joinery
