import Joinery.Proofs.Component.AddRemove
import Joinery.Proofs.Estimate.Work
import Joinery.Proofs.Product.Distinct

/-!
Adding and removing again, for components and for products. A component that is put into a product stands
last in it and under an id of its own, so that removing that id takes out this component and leaves the
others in their places, all timed afresh.
-/
namespace Joinery

theorem Component.sameWork_refresh (c : Component) : c.refresh.SameWork c where
  frame := rfl
  operations := by
    simp only [refresh, List.forall₂_map_left_iff, List.forall₂_same]
    exact fun p _ => Operation.sameWork_timed p c

theorem Component.refresh_eq_self_iff {c : Component} : c.refresh = c ↔ c.Fresh :=
  ⟨fun same => same ▸ refresh_fresh c, refresh_eq_self⟩

namespace Placement

@[simp] theorem refresh_refresh (entry : Placement) : entry.refresh.refresh = entry.refresh :=
  congrArg (fun component => { entry with component })
    (Component.refresh_timed entry.component entry.component)

theorem refresh_eq_self_iff {entry : Placement} : entry.refresh = entry ↔ entry.component.Fresh := by
  rw [← Component.refresh_eq_self_iff]
  exact ⟨congrArg component, fun same => congrArg (fun component => { entry with component }) same⟩

theorem make_component {c : Component} {quantity position order : Datum} {entry : Placement}
    (made : make c quantity position order = .ok entry) : entry.component = c := by
  obtain ⟨_, _, -, -, rfl⟩ := parts_of_make made
  rfl

end Placement

namespace Product

@[simp] theorem refresh_refresh (p : Product) : p.refresh.refresh = p.refresh := by
  simp [refresh, Function.comp_def]

theorem map_refresh_eq_self_iff {p : Product} :
    p.placements.map Placement.refresh = p.placements ↔ ∀ c ∈ p.components, c.Fresh := by
  calc p.placements.map Placement.refresh = p.placements
      ↔ p.placements.map Placement.refresh = p.placements.map (fun entry => entry) := by
        rw [List.map_id']
    _ ↔ ∀ entry ∈ p.placements, entry.refresh = entry := List.map_inj_left
    _ ↔ ∀ c ∈ p.components, c.Fresh := by
      simp only [Placement.refresh_eq_self_iff, components, List.forall_mem_map]

theorem totals_refresh (defaults : Defaults) (p : Product) :
    p.refresh.totals defaults = p.totals defaults := by
  have work : List.Forall₂ Component.SameWork p.refresh.components p.components := by
    simp only [components, refresh, List.map_map, List.forall₂_map_left_iff,
      List.forall₂_map_right_iff, List.forall₂_same]
    exact fun entry _ => Component.sameWork_refresh entry.component
  have parts (rates : RateTable) : p.refresh.components.mapM (Estimate.componentTotals rates) =
      p.components.mapM (Estimate.componentTotals rates) :=
    mapM_of_forall₂ (work.imp fun _ _ same => same.totals_eq rates)
  simp only [totals, Estimate.productTotals, parts]
  rfl

/-- What is left when a component has been added and removed again: every component in its place and
timed afresh, with the totals that there were. -/
structure Restored (p q : Product) : Prop where
  placements : q.placements = p.placements.map Placement.refresh
  exact : q.placements = p.placements ↔ ∀ c ∈ p.components, c.Fresh
  totals : ∀ defaults, q.totals defaults = p.totals defaults
  others : q = { p with placements := q.placements, updatedAt := q.updatedAt }

theorem restored_refresh (p : Product) (updatedAt : Moment) :
    p.Restored { p.refresh with updatedAt } where
  placements := rfl
  exact := map_refresh_eq_self_iff
  totals defaults := totals_refresh defaults p
  others := rfl

theorem place_ok {p : Product} {c : Component} {quantity position order : Datum} {entry : Placement}
    (placed : p.place c quantity position order = .ok entry) :
    entry.component = c ∧ c.id ∉ p.componentIds := by
  unfold place at placed
  split at placed
  · cases placed
  · rename_i fresh
    refine ⟨Placement.make_component placed, ?_⟩
    simpa [componentIds, Placement.holds_eq_false] using fresh

theorem placement?_of_find {p : Product} {id : String} {entry : Placement}
    (found : p.placements.find? (Placement.holds id) = some entry) : p.placement? id = .ok entry := by
  rw [placement?, found]

theorem holds_eq_false {p : Product} {id : String} (new : id ∉ p.componentIds) :
    ∀ entry ∈ p.placements, entry.holds id = false := by
  intro entry member
  refine Placement.holds_eq_false.mpr ?_
  rintro rfl
  exact new (List.mem_map_of_mem member)

/-- A product with one component more than another, and for the rest stamped, timed and totalled like
it once that component is gone. -/
theorem removeComponent_last {defaults : Defaults} {now later : Moment} {p : Product}
    {entry : Placement} (new : entry.componentId ∉ p.componentIds) :
    (refresh (stamp now { p with placements := p.placements ++ [entry] })).removeComponent defaults
        later entry.componentId =
      ({ p.refresh with updatedAt := later },
        (p.totals defaults).map fun _ => entry.component.refresh) := by
  have others := holds_eq_false (p := p.refresh) (refresh_componentIds p ▸ new)
  have own : entry.refresh.holds entry.componentId = true := Placement.holds_iff.mpr rfl
  have placements : (refresh (stamp now { p with placements := p.placements ++ [entry] })).placements =
      p.refresh.placements ++ [entry.refresh] := List.map_append
  have found : (refresh (stamp now { p with placements := p.placements ++ [entry] })).placement?
      entry.componentId = .ok entry.refresh := by
    apply placement?_of_find
    rw [placements]
    exact find?_last others own
  have again : refresh { p.refresh with updatedAt := later } = { p.refresh with updatedAt := later } :=
    congrArg (fun q => { q with updatedAt := later }) (refresh_refresh p)
  have totals : { p.refresh with updatedAt := later }.totals defaults = p.totals defaults :=
    totals_refresh defaults p
  rw [removeComponent, found]
  dsimp only
  rw [placements, eraseP_last others own]
  calc settle defaults { p.refresh with updatedAt := later } (.ok entry.refresh.component)
      = ({ p.refresh with updatedAt := later },
          ({ p.refresh with updatedAt := later }.totals defaults).bind fun _ =>
            .ok entry.component.refresh) := by
        rw [settle, again]
        rfl
    _ = ({ p.refresh with updatedAt := later },
          (p.totals defaults).map fun _ => entry.component.refresh) := by
      rw [totals]
      cases p.totals defaults <;> rfl

theorem addComponent_undone {defaults : Defaults} {now later : Moment} {p : Product} {c : Component}
    {quantity position order : Datum} {entry : Placement}
    (placed : p.place c quantity position order = .ok entry) :
    (p.addComponent defaults now c quantity position order).1.removeComponent defaults later c.id =
      ({ p.refresh with updatedAt := later }, (p.totals defaults).map fun _ => c.refresh) := by
  obtain ⟨rfl, new⟩ := place_ok placed
  rw [addComponent, placed]
  exact removeComponent_last new

end Product

/-- A component is placed whether or not the totals can be taken then, and what removes it again hands it
out as soon as the totals could be taken before. -/
theorem adding_then_removing_restores :
    (∀ (c changed : Component) (id name : String) (type count size position : Datum) (f : Feature),
      NewId id c.featureIds →
      c.addFeature id type count size position name = .ok (changed, f) →
      (c.Fresh → changed.removeFeature f.id = .ok (c, f)) ∧
        (c.featureIds.Nodup → changed.featureIds.Nodup)) ∧
    (∀ (c changed : Component) (id notes : String) (template : Template)
      (parameters : List Parameter) (equipment status : Datum) (p : Operation),
      NewId id c.operationIds →
      c.addOperation id template parameters equipment status notes = .ok (changed, p) →
      (c.Fresh → changed.removeOperation p.id = .ok (c, p)) ∧
        (c.operationIds.Nodup → changed.operationIds.Nodup)) ∧
    ∀ (defaults : Defaults) (now later : Moment) (p : Product) (c : Component)
      (quantity position order : Datum) (entry : Placement),
      p.place c quantity position order = .ok entry →
      ∃ restored, p.Restored restored ∧
        (∀ origin, p.Reachable origin → restored.placements = p.placements) ∧
        (p.addComponent defaults now c quantity position order).1.removeComponent defaults later c.id =
          (restored, (p.totals defaults).map fun _ => c.refresh) := by
  refine ⟨?_, ?_, ?_⟩
  · intro c changed id name type count size position f new added
    refine ⟨fun fresh => ?_, fun distinct => Component.addFeature_distinct new distinct added⟩
    rw [Component.addFeature_undone new added, Component.refresh_eq_self fresh]
  · intro c changed id notes template parameters equipment status p new added
    refine ⟨fun fresh => ?_, fun distinct => Component.addOperation_distinct new distinct added⟩
    rw [Component.addOperation_undone new added, Component.refresh_eq_self fresh]
  · intro defaults now later p c quantity position order entry placed
    have restored := p.restored_refresh later
    exact ⟨_, restored, fun _ reachable => restored.exact.mpr reachable.fresh,
      Product.addComponent_undone placed⟩

namespace Shelf

def groovedAgain : Component × Feature :=
  (side.addFeature "" (.text "groove") (.int 2) .null .null "dado").value (by decide +kernel)

def sawnAgain : Component × Operation :=
  (side.addOperation "saw-2" template [] .null (.text "pending") "").value (by decide +kernel)

def back : Component := { side with id := "back" }

def backPlacement : Placement :=
  ((product noon).place back (.int 1) .null .null).value (by decide +kernel)

end Shelf

theorem shelf_restored :
    (Shelf.groovedAgain.2.id = "feature-2" ∧
      Shelf.groovedAgain.1.removeFeature "feature-2" = .ok (Shelf.side, Shelf.groovedAgain.2) ∧
      Shelf.groovedAgain.1.featureIds.Nodup) ∧
    (Shelf.sawnAgain.1.removeOperation Shelf.sawnAgain.2.id = .ok (Shelf.side, Shelf.sawnAgain.2) ∧
      Shelf.sawnAgain.1.operationIds.Nodup) ∧
    ∃ restored, restored.placements = (Shelf.product Shelf.noon).placements ∧
      ((Shelf.product Shelf.noon).addComponent .standard Shelf.noon Shelf.back (.int 1) .null
        .null).1.removeComponent .standard Shelf.noon "back" =
        (restored, ((Shelf.product Shelf.noon).totals .standard).map fun _ => Shelf.back.refresh) := by
  obtain ⟨features, operations, products⟩ := adding_then_removing_restores
  have fresh := Shelf.side_reachable.fresh
  refine ⟨?_, ?_, ?_⟩
  · have named : Shelf.groovedAgain.2.id = "feature-2" := by decide +kernel
    have distinct : Shelf.side.featureIds.Nodup := by decide +kernel
    have added : Shelf.side.addFeature "" (.text "groove") (.int 2) .null .null "dado" =
        .ok (Shelf.groovedAgain.1, Shelf.groovedAgain.2) := by
      rw [Prod.mk.eta]
      exact Outcome.eq_value _
    obtain ⟨undone, stillDistinct⟩ := features _ _ _ _ _ _ _ _ _ (Or.inl rfl) added
    exact ⟨named, named ▸ undone fresh, stillDistinct distinct⟩
  · have new : NewId "saw-2" Shelf.side.operationIds := Or.inr (by decide +kernel)
    have distinct : Shelf.side.operationIds.Nodup := by decide +kernel
    have added : Shelf.side.addOperation "saw-2" Shelf.template [] .null (.text "pending") "" =
        .ok (Shelf.sawnAgain.1, Shelf.sawnAgain.2) := by
      rw [Prod.mk.eta]
      exact Outcome.eq_value _
    obtain ⟨undone, stillDistinct⟩ := operations _ _ _ _ _ _ _ _ _ new added
    exact ⟨undone fresh, stillDistinct distinct⟩
  · have placed : (Shelf.product Shelf.noon).place Shelf.back (.int 1) .null .null =
        .ok Shelf.backPlacement := Outcome.eq_value _
    have reachable := Shelf.product_reachable Defaults.standard_usable Shelf.noon_valid
    obtain ⟨restored, -, same, undone⟩ :=
      products .standard Shelf.noon Shelf.noon _ _ _ _ _ _ placed
    exact ⟨restored, same _ reachable, undone⟩

end Joinery
