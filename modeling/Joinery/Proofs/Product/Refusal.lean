import Joinery.Proofs.Component.Refusal
import Joinery.Proofs.Product.Fresh
import Joinery.Proofs.Settings.Defaults

/-!
What a refused edit leaves behind in a product. Work on a component leaves in it what it leaves in
the component. The other edits read first and write then, and after writing only the totals can fail
them, which they cannot do as long as all rates and parameters have doubles.
-/
namespace Joinery

namespace Product

def changeComponent (id : String) (f : Component → Component) (p : Product) : Product :=
  { p with
    placements := changeFirst (Placement.holds id)
      (fun entry => { entry with component := f entry.component }) p.placements }

/-- Edits of the product itself, which stamp it or total it only once nothing is refused. -/
def Edit.OfProduct {α : Type} : Edit α → Prop
  | .within _ _ => False
  | .past _ _ => False
  | .recalculate _ _ => False
  | _ => True

/-- Rates and parameters that were chosen for a product and have doubles. -/
structure OwnUsable (p : Product) : Prop where
  rates : ∀ t ∈ p.rates, t.Usable
  params : ∀ t ∈ p.params, t.Usable

theorem placement?_error {p : Product} {id : String} {f : Fault}
    (missing : p.placement? id = .error f) : p.placements.find? (Placement.holds id) = none := by
  unfold placement? at missing
  split at missing
  · cases missing
  · assumption

theorem changeComponent_eq_self_iff {p : Product} {id : String} {f : Component → Component} :
    p.changeComponent id f = p ↔
      ∀ entry ∈ p.placements.find? (Placement.holds id), f entry.component = entry.component := by
  have placements : p.changeComponent id f = p ↔
      changeFirst (Placement.holds id)
        (fun entry => { entry with component := f entry.component }) p.placements =
          p.placements := by
    constructor
    · intro same
      exact congrArg Product.placements same
    · intro same
      rw [changeComponent, same]
  have each (entry : Placement) :
      { entry with component := f entry.component } = entry ↔
        f entry.component = entry.component := by
    constructor
    · intro same
      exact congrArg Placement.component same
    · intro same
      rw [same]
  simp only [placements, changeFirst_eq_self_iff, each]

theorem give_error {α β : Type} {give : β → Edited α} {outcome : Product × Outcome β} {q : Product}
    {f : Fault} (refused : Edit.give give outcome = (q, .error f)) : outcome = (q, .error f) := by
  obtain ⟨p, result⟩ := outcome
  obtain ⟨rfl, failed⟩ := Prod.mk.inj refused
  cases result with
  | ok b => cases failed
  | error g =>
    obtain rfl : g = f := by simpa [Except.map] using failed
    rfl

/-- After an edit was settled there are only the totals that can be refused. -/
theorem settle_error {α : Type} {defaults : Defaults} {p q : Product} {a : α} {f : Fault}
    (refused : settle defaults p (.ok a) = (q, .error f)) :
    q = p.refresh ∧ q.totals defaults = .error f := by
  obtain ⟨rfl, failed⟩ := Prod.mk.inj refused
  refine ⟨rfl, ?_⟩
  cases taken : p.refresh.totals defaults with
  | ok totals => simp [taken, Except.bind] at failed
  | error g => simpa [taken, Except.bind] using failed

theorem workPast_error {α : Type} {p q : Product} {id : String} {work : Component.Work α}
    {leftover : Component → Component} {f : Fault}
    (leaves : ∀ c c' g, work c = (c', .error g) → c' = leftover c)
    (refused : p.workPast id work = (q, .error f)) : q = p.changeComponent id leftover := by
  unfold workPast at refused
  split at refused
  · rename_i missing
    obtain ⟨rfl, -⟩ := Prod.mk.inj refused
    exact (changeComponent_eq_self_iff.mpr (by simp [placement?_error missing])).symm
  · rename_i entry found
    obtain ⟨rfl, failed⟩ := Prod.mk.inj refused
    have left : (work entry.component).1 = leftover entry.component :=
      leaves _ _ f (Prod.ext rfl failed)
    have same : changeFirst (Placement.holds id)
          (fun other => { other with component := leftover entry.component }) p.placements =
        changeFirst (Placement.holds id)
          (fun other => { other with component := leftover other.component }) p.placements :=
      changeFirst_congr (placement?_ok found) rfl
    rw [left, replaceComponent, changeComponent, same]

theorem refused_of_product {α : Type} {defaults : Defaults} {now : Moment} {p q : Product}
    {e : Edit α} {f : Fault} (ofProduct : e.OfProduct)
    (refused : e.apply defaults now p = (q, .error f)) :
    q = p ∨ (q.rates = p.rates ∧ q.params = p.params ∧ q.totals defaults = .error f) := by
  cases e <;> simp only [Edit.apply] at refused
  case addComponent component quantity position order =>
    have outcome := give_error refused
    simp only [addComponent] at outcome
    split at outcome
    · exact Or.inl (Prod.mk.inj outcome).1.symm
    · obtain ⟨rfl, untaken⟩ := settle_error outcome
      exact Or.inr ⟨rfl, rfl, untaken⟩
  case removeComponent id =>
    have outcome := give_error refused
    simp only [removeComponent] at outcome
    split at outcome
    · exact Or.inl (Prod.mk.inj outcome).1.symm
    · obtain ⟨rfl, untaken⟩ := settle_error outcome
      exact Or.inr ⟨rfl, rfl, untaken⟩
  case within id work => exact ofProduct.elim
  case past id work => exact ofProduct.elim
  case addStep id name description componentIds estimatedTime =>
    exact Or.inl (Joinery.settle_error refused)
  case setStepProgress id status => exact Or.inl (settleQuietly_error refused)
  case setStatus status => exact Or.inl (settleQuietly_error refused)
  case recalculate rates params => exact ofProduct.elim

theorem unchanged_of_refused {α : Type} {defaults : Defaults} {now : Moment} {p q : Product}
    {e : Edit α} {f : Fault} (usable : defaults.Usable) (own : p.OwnUsable) (listed : q.Listed)
    (ofProduct : e.OfProduct) (refused : e.apply defaults now p = (q, .error f)) : q = p := by
  rcases refused_of_product ofProduct refused with same | ⟨rates, params, untaken⟩
  · exact same
  · obtain ⟨totals, taken⟩ := totals_ok usable (rates ▸ own.rates) (params ▸ own.params) listed
    rw [taken] at untaken
    cases untaken

end Product

/-- No refused edit leaves a trace, but for the update of an operation to something else, which
leaves what it wrote before it came to a bad actual time. -/
theorem refused_edits_leave_no_other_trace (now : Moment) :
    (∀ (c c' : Component) (e : Component.Edit) (f : Fault), e.apply c = (c', .error f) →
      c' = e.leftover c ∧ (c' = c ↔ ¬ e.Rewrites c)) ∧
    (∀ (defaults : Defaults) (p q : Product) (id : String) (e : Component.Edit) (f : Fault),
      (Product.Edit.past id fun c => e.apply c).apply defaults now p = (q, .error f) →
      q = p.changeComponent id (fun c => e.leftover c) ∧
        (q = p ↔ ∀ entry ∈ p.placements.find? (Placement.holds id),
          ¬ e.Rewrites entry.component)) ∧
    (∀ (defaults : Defaults) (p q : Product) (e : Product.Edit Component.Edited) (f : Fault),
      e.OfProduct → e.apply defaults now p = (q, .error f) →
      q = p ∨ (q.rates = p.rates ∧ q.params = p.params ∧ q.totals defaults = .error f)) ∧
    ∀ (settings : Outcome Record) (rates : RateTable) (params : EstimateParameters)
      (p q : Product) (e : Product.Edit Component.Edited) (f : Fault),
      (Settings.defaults settings).rates = .ok rates →
      (Settings.defaults settings).params = .ok params → p.OwnUsable → q.Listed → e.OfProduct →
      e.apply (Settings.defaults settings) now p = (q, .error f) → q = p := by
  refine ⟨?_, ?_, ?_, ?_⟩
  · intro c c' e f refused
    obtain rfl := Component.leftover_of_refused refused
    exact ⟨rfl, Component.leftover_eq_self_iff⟩
  · intro defaults p q id e f refused
    have leaves : ∀ c c' g, e.apply c = (c', .error g) → c' = e.leftover c :=
      fun _ _ _ failed => Component.leftover_of_refused failed
    simp only [Product.Edit.apply] at refused
    obtain rfl := Product.workPast_error leaves (Product.give_error refused)
    refine ⟨rfl, ?_⟩
    rw [Product.changeComponent_eq_self_iff]
    simp only [Component.leftover_eq_self_iff]
  · intro defaults p q e f ofProduct refused
    exact Product.refused_of_product ofProduct refused
  · intro settings rates params p q e f readRates readParams own listed ofProduct refused
    exact Product.unchanged_of_refused (Settings.defaults_usable readRates readParams) own listed
      ofProduct refused

namespace Shelf

def badUpdate : Component.Edit := .updateOperation "saw-1" none none (.text "drill") (.int (-1))

def badUpdatePast : Product.Edit Component.Edited := .past "side" fun c => badUpdate.apply c

def sideAgain : Product.Edit Component.Edited := .addComponent side (.int 1) .null .null

theorem badUpdate_rewrites : badUpdate.Rewrites side := by
  have bare : (side.operations.find? (Component.hasId "saw-1")).any
      (fun p => !p.equipment.isGiven) = true := by decide +kernel
  obtain ⟨p, found, notGiven⟩ := (Option.any_eq_true _ _).mp bare
  refine ⟨p, found, ?_⟩
  intro same
  rw [← same] at notGiven
  simp [Component.updated, Component.updatedEquipment, Datum.isGiven] at notGiven

theorem sideAgain_listed :
    (sideAgain.apply (Settings.defaults settings) noon (product noon)).1.Listed :=
  Product.listed_of_bare (by decide +kernel) (by decide +kernel) (by decide +kernel)

end Shelf

theorem shelf_refusals :
    ((Shelf.badUpdate.apply Shelf.side).2.isOk = false ∧
      (Shelf.badUpdate.apply Shelf.side).1 = Shelf.badUpdate.leftover Shelf.side ∧
      (Shelf.badUpdate.apply Shelf.side).1 ≠ Shelf.side) ∧
    (Shelf.badUpdatePast.apply .standard Shelf.noon (Shelf.product Shelf.noon)).1 =
      (Shelf.product Shelf.noon).changeComponent "side" (fun c => Shelf.badUpdate.leftover c) ∧
    ((Shelf.sideAgain.apply (Settings.defaults Shelf.settings) Shelf.noon
        (Shelf.product Shelf.noon)).2.isOk = false ∧
      (Shelf.sideAgain.apply (Settings.defaults Shelf.settings) Shelf.noon
        (Shelf.product Shelf.noon)).1 = Shelf.product Shelf.noon) := by
  obtain ⟨alone, past, -, whole⟩ := refused_edits_leave_no_other_trace Shelf.noon
  refine ⟨?_, ?_, ?_⟩
  · have refused : (Shelf.badUpdate.apply Shelf.side).2.isOk = false := by decide +kernel
    obtain ⟨f, applied⟩ := Outcome.eq_error refused
    obtain ⟨left, unchanged⟩ := alone _ _ _ _ applied
    exact ⟨refused, left, fun same => unchanged.mp same Shelf.badUpdate_rewrites⟩
  · have refused : (Shelf.badUpdatePast.apply .standard Shelf.noon
        (Shelf.product Shelf.noon)).2.isOk = false := by decide +kernel
    obtain ⟨f, applied⟩ := Outcome.eq_error refused
    exact (past _ _ _ _ _ _ applied).1
  · have refused : (Shelf.sideAgain.apply (Settings.defaults Shelf.settings) Shelf.noon
        (Shelf.product Shelf.noon)).2.isOk = false := by decide +kernel
    obtain ⟨f, applied⟩ := Outcome.eq_error refused
    obtain ⟨rates, readRates, -⟩ := Shelf.settings_usable.rates
    obtain ⟨params, readParams, -⟩ := Shelf.settings_usable.params
    have own : (Shelf.product Shelf.noon).OwnUsable := by
      constructor
      · intro t given
        cases given
      · intro t given
        cases given
    have ofProduct : Shelf.sideAgain.OfProduct := trivial
    exact ⟨refused, whole _ _ _ _ _ _ _ readRates readParams own Shelf.sideAgain_listed
      ofProduct applied⟩

end Joinery
