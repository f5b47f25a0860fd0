import Joinery.Proofs.Estimate.Work
import Joinery.Proofs.Record.Readable
import Joinery.Proofs.Record.RoundTrip

/-!
Estimates of what is read back. A reader shares templates: of the templates with one id all
operations get the first. What is read therefore has the estimate of the product after such sharing,
and that of the product itself where the shared templates estimate as those in whose place they are
put.
-/
namespace Joinery

def Operation.sharing (all : List Template) (p : Operation) : Operation :=
  { p with template := p.template.firstIn all }

def Component.sharing (all : List Template) (c : Component) : Component :=
  refresh { c with operations := c.operations.map (Operation.sharing all) }

def Placement.sharing (all : List Template) (p : Placement) : Placement :=
  { p with component := p.component.sharing all }

/-- The product with one template for each id, the first one, and times calculated with these. -/
def Product.sharing (p : Product) : Product :=
  { p with placements := p.placements.map (Placement.sharing p.templates) }

theorem Operation.usedEquipment_reread (all : List Template) (p : Operation) :
    (p.reread all).usedEquipment = (p.sharing all).usedEquipment := by
  have read : (p.reread all).equipment = p.equipment.part?.getD .null := rfl
  have kept : (p.sharing all).equipment = p.equipment := rfl
  rw [usedEquipment, usedEquipment, read, kept, Datum.part?]
  by_cases given : p.equipment.isGiven = true
  · rw [if_pos given, Option.getD_some, Template.equipmentOr, Template.equipmentOr, if_pos given,
      if_pos given]
  · rw [if_neg given, Template.equipmentOr, Template.equipmentOr, if_neg given]
    rfl

theorem Operation.sameWork_reread (all : List Template) (p : Operation) :
    (p.reread all).SameWork (p.sharing all) where
  id := rfl
  duration c := Duration.compute_readBack (p.template.firstIn all) p.parameters c
  equipment := p.usedEquipment_reread all

theorem Component.sameWork_reread (all : List Template) (c : Component) :
    (c.reread all).SameWork (c.sharing all) :=
  c.sameWork_of_maps fun p _ => Operation.sameWork_reread all p

theorem Component.sameWork_sharing {all : List Template} {c : Component} (fresh : c.Fresh)
    (alike : ∀ t ∈ c.templates, (t.firstIn all).EstimatesAs t) : (c.sharing all).SameWork c := by
  have timed : refresh { c with operations := c.operations.map fun p => p } = c := by
    rw [List.map_id']
    exact refresh_eq_self fresh
  have work := c.sameWork_of_maps (f := Operation.sharing all) (g := fun p => p) fun p member =>
    Operation.sameWork_of_template (alike p.template (List.mem_map_of_mem member))
  rwa [timed] at work

namespace Product

theorem sharing_fresh (p : Product) : ∀ c ∈ p.sharing.components, c.Fresh :=
  fresh_of_placements rfl fun _ => Component.refresh_fresh _

theorem reread_fresh (p : Product) : ∀ c ∈ p.reread.components, c.Fresh :=
  fresh_of_placements rfl fun _ => Component.refresh_fresh _

theorem reread_estimate (p : Product) : p.reread.SameEstimate p.sharing := by
  apply sameEstimate_of_work _ p.reread_fresh p.sharing_fresh
  simp only [components, reread, sharing, List.forall₂_map_left_iff, List.forall₂_map_right_iff,
    List.forall₂_same]
  intro entry _
  exact Component.sameWork_reread _ _

theorem sharing_estimate {p : Product} (fresh : ∀ c ∈ p.components, c.Fresh)
    (alike : ∀ t ∈ p.templates, (t.firstIn p.templates).EstimatesAs t) :
    p.sharing.SameEstimate p := by
  apply sameEstimate_of_work _ p.sharing_fresh fresh
  simp only [components, sharing, List.forall₂_map_left_iff, List.forall₂_map_right_iff,
    List.forall₂_same]
  intro entry placed
  exact Component.sameWork_sharing (fresh _ (List.mem_map_of_mem placed))
    fun t used => alike t (templates_of_placement placed t used)

end Product

/-- A product is written if and only if its totals can be taken, and read back if and only if the
templates that are read have doubles for numbers. What is read has the estimate of the product with
shared templates, and that of the product itself if these estimate as its own do. Each component has
operations of its own, which no other component works on. -/
theorem record_keeps_estimate {settings : Outcome Record} {p : Product}
    (reachable : p.Reachable (Settings.defaults settings)) (short : p.Short) :
    ((∃ d, p.record (Settings.defaults settings) = .ok d) ↔
      ∃ totals, p.totals (Settings.defaults settings) = .ok totals) ∧
    ∀ d, p.record (Settings.defaults settings) = .ok d →
      ((∃ q, Product.ofRecord (Settings.defaults settings) d = .ok q) ↔
        ∀ t ∈ p.templates, (t.firstIn p.templates).HasDoubles) ∧
      ∀ q, Product.ofRecord (Settings.defaults settings) d = .ok q →
        q.SameEstimate p.sharing ∧
        ((∀ t ∈ p.templates, (t.firstIn p.templates).EstimatesAs t) → q.SameEstimate p) := by
  have usable := reachable.defaults_usable
  refine ⟨Product.record_ok_iff reachable, fun d written => ?_⟩
  obtain ⟨totals, taken⟩ := (Product.record_ok_iff reachable).mp ⟨d, written⟩
  have listed := Product.listed_of_totals short taken
  have readable := Product.ofRecord_ok_iff reachable usable listed written
  refine ⟨readable, fun q read => ?_⟩
  have again := Product.ofRecord_reread reachable usable listed (readable.mp ⟨q, read⟩) written
  obtain rfl : q = p.reread := Except.ok.inj (read.symm.trans again)
  refine ⟨p.reread_estimate, fun alike => ?_⟩
  exact p.reread_estimate.trans (Product.sharing_estimate reachable.fresh alike)

/-! Shelves whose parts are cut to the size of the side, with work of their own on each. -/

theorem Component.refresh_templates (c : Component) : c.refresh.templates = c.templates := by
  rw [templates, templates, refresh, List.map_map]
  rfl

theorem Placement.Reachable.replace {p : Placement} (reachable : p.Reachable) {c : Component}
    (other : c.Reachable) : Placement.Reachable { p with component := c } :=
  ⟨other, reachable.quantity, reachable.order⟩

theorem Template.revision_made {t : Template} (own : t.WellMade) {logic : Option Logic}
    (made : ∀ l ∈ logic, l.Made) (efficiency : Option Efficiency) :
    Template.Made { t with logic, efficiency } :=
  ⟨{ t.draft with logic, efficiency }, made, own.createdAt, own.updatedAt,
    make_again own logic efficiency t.createdAt t.updatedAt⟩

namespace Shelf

theorem side_made : Component.make sideDraft = .ok side := Outcome.eq_value _

def panel (id : String) (operations : List Operation) : Component :=
  Component.refresh { side with id, operations }

theorem panel_made (id : String) (operations : List Operation) :
    Component.make { sideDraft with id, operations } = .ok (panel id operations) := by
  obtain ⟨quantity, readQuantity, rest⟩ := bind_ok.mp side_made
  obtain ⟨edgeCount, readEdgeCount, rest⟩ := bind_ok.mp rest
  obtain ⟨complexity, readComplexity, same⟩ := bind_ok.mp rest
  rw [panel, ← Except.ok.inj same]
  simp only [Component.make, readQuantity, readEdgeCount, readComplexity, bind, Except.bind]
  rfl

theorem panel_reachable (id : String) {operations : List Operation}
    (reachable : ∀ p ∈ operations, p.Reachable) : (panel id operations).Reachable := by
  refine ⟨_, _, ⟨⟨_, _, _, size_made⟩, ?_, reachable⟩, panel_made id operations, .start⟩
  intro f member
  rw [List.mem_singleton.mp member]
  exact .made (Outcome.eq_value _)

def workOn (t : Template) : Operation :=
  Component.withActualTime none (Component.updated (some t) none .null operation)

theorem workOn_reachable {t : Template} (made : t.Made) : (workOn t).Reachable := by
  have before : operation.Reachable := .made template_made (Outcome.eq_value _)
  refine .updated none .null (d := .null) before ?_ rfl
  intro u same
  obtain rfl := Option.some.inj same
  exact made

theorem operation_bare : operation.equipment.isGiven = false := by decide +kernel

theorem workOn_bare (t : Template) : (workOn t).equipment.isGiven = false := operation_bare

theorem panel_bare {id : String} {operations : List Operation}
    (bare : ∀ p ∈ operations, p.equipment.isGiven = false) :
    ∀ p ∈ (panel id operations).operations, p.equipment.isGiven = false := by
  intro p member
  obtain ⟨q, own, rfl⟩ := List.mem_map.mp member
  exact bare q own

def place (c : Component) : Placement := { placement with component := c }

theorem place_reachable {c : Component} (reachable : c.Reachable) : (place c).Reachable :=
  (Placement.reachable_of_make side_reachable (Outcome.eq_value _)).replace reachable

def shelfDraft (panels : List Component) : ProductDraft :=
  { draft noon with placements := panels.map place }

def shelf (panels : List Component) : Product :=
  (Product.ofDraft (shelfDraft panels) .designing).refresh

structure Few (panels : List Component) : Prop where
  reachable : ∀ c ∈ panels, c.Reachable
  count : panels.length ≤ 2
  operations : ∀ c ∈ panels, c.operations.length ≤ 1
  bare : ∀ c ∈ panels, ∀ p ∈ c.operations, p.equipment.isGiven = false

theorem Few.listed {panels : List Component} (few : Few panels) :
    (Product.ofDraft (shelfDraft panels) .designing).Listed := by
  have own : (Product.ofDraft (shelfDraft panels) .designing).components = panels := by
    rw [Product.components, Product.ofDraft, shelfDraft, List.map_map]
    exact List.map_id _
  refine Product.listed_of_bare ?_ ?_ ?_
  · rw [own]
    exact Nat.lt_of_le_of_lt (m := 2) few.count (by decide)
  · rw [own]
    intro c member
    exact Nat.lt_of_le_of_lt (m := 1) (few.operations c member) (by decide)
  · rw [own]
    exact few.bare

theorem Few.shelf_reachable {panels : List Component} (few : Few panels) {defaults : Defaults}
    (usable : defaults.Usable) : (shelf panels).Reachable defaults := by
  have status : Choice.read (.text "designing") = .ok ProductStatus.designing := rfl
  have made : Product.make defaults (shelfDraft panels) = .ok (shelf panels) :=
    Product.make_ok usable status few.listed
  refine .made ⟨?_, ?_, noon_valid, noon_valid⟩ made
  · intro entry member
    obtain ⟨c, mc, rfl⟩ := List.mem_map.mp member
    exact place_reachable (few.reachable c mc)
  · intro s member
    cases member

def pair (t : Template) : Product := shelf [panel "side" [operation], panel "back" [workOn t]]

theorem pair_few {t : Template} (made : t.Made) :
    Few [panel "side" [operation], panel "back" [workOn t]] := by
  refine ⟨?_, Nat.le_refl 2, ?_, ?_⟩
  · intro c member
    rcases List.mem_cons.mp member with first | second
    · rw [first]
      apply panel_reachable
      intro p own
      rw [List.mem_singleton.mp own]
      exact .made template_made (Outcome.eq_value _)
    · rw [List.mem_singleton.mp second]
      apply panel_reachable
      intro p own
      rw [List.mem_singleton.mp own]
      exact workOn_reachable made
  · intro c member
    rcases List.mem_cons.mp member with first | second
    · rw [first]
      exact Nat.le_refl 1
    · rw [List.mem_singleton.mp second]
      exact Nat.le_refl 1
  · refine List.forall_mem_cons.mpr ⟨panel_bare ?_, List.forall_mem_singleton.mpr (panel_bare ?_)⟩
    · exact List.forall_mem_singleton.mpr operation_bare
    · exact List.forall_mem_singleton.mpr (workOn_bare t)

theorem panel_templates (id : String) (operations : List Operation) :
    (panel id operations).templates = operations.map Operation.template :=
  Component.refresh_templates _

theorem shelf_templates (panels : List Component) :
    (shelf panels).templates = panels.flatMap Component.templates := by
  have refreshed : (shelf panels).placements = (panels.map place).map Placement.refresh := rfl
  rw [Product.templates, refreshed, List.flatMap_map, List.flatMap_map]
  congr 1
  funext c
  exact c.refresh_templates

theorem pair_templates (t : Template) : (pair t).templates = [template, t] := by
  have work : operation.template = template := by with_unfolding_all rfl
  simp only [pair, shelf_templates, List.flatMap_cons, List.flatMap_nil, panel_templates,
    List.map_cons, List.map_nil, work]
  rfl

theorem pair_listed {t : Template} (made : t.Made) : (pair t).Listed :=
  Product.refresh_listed (pair_few made).listed

theorem pair_reachable {defaults : Defaults} (usable : defaults.Usable) {t : Template}
    (made : t.Made) : (pair t).Reachable defaults := (pair_few made).shelf_reachable usable

theorem pair_totals {defaults : Defaults} (usable : defaults.Usable) {t : Template}
    (made : t.Made) : ∃ totals, (pair t).totals defaults = .ok totals := by
  apply Product.totals_ok usable _ _ (pair_listed made)
  · intro rates own
    cases own
  · intro params own
    cases own

def revised (l : Logic) (settings : Option Efficiency) : Template :=
  { template with logic := some l, efficiency := settings }

theorem revised_made {l : Logic} (made : l.Made) (settings : Option Efficiency) :
    (revised l settings).Made := by
  apply Template.revision_made (Template.Made.wellMade template_made)
  intro k used
  obtain rfl := Option.some.inj used
  exact made

theorem logic_made {formula name : String} : Logic.Made { logic with name, formula } := by
  intro v member
  rw [List.mem_singleton.mp member]
  exact ⟨_, _, _, _, _, _, _, Outcome.eq_value _⟩

theorem rule_template : Duration.Rule.ofTemplate template = .formula logic := by
  with_unfolding_all rfl

theorem rule_revised (l : Logic) (settings : Option Efficiency) :
    Duration.Rule.ofTemplate (revised l settings) = .formula l := by
  have byFormula : template.strategy = .formula := by with_unfolding_all rfl
  simp only [Duration.Rule.ofTemplate, revised, byFormula]

theorem template_estimates : template.EstimatesAs template :=
  ⟨rule_template ▸ .formula rfl, rfl⟩

theorem revised_estimates {l : Logic} (same : logic.formula = l.formula)
    (settings : Option Efficiency) : template.EstimatesAs (revised l settings) :=
  ⟨rule_template ▸ rule_revised l settings ▸ .formula same, rfl⟩

theorem pair_first {t u : Template} (same : t.id = template.id) (member : u ∈ (pair t).templates) :
    u.firstIn (pair t).templates = template := by
  rw [pair_templates] at member ⊢
  rcases List.mem_cons.mp member with first | second
  · simp [first, Template.firstIn]
  · simp [List.mem_singleton.mp second, same, Template.firstIn]

def handLogic : Logic := { logic with name := "Sawing by hand" }

def byHand : Template := revised handLogic none

theorem byHand_made : byHand.Made := revised_made (l := handLogic) logic_made none

end Shelf

theorem shelf_keeps_estimate :
    ∃ d q, (Shelf.pair Shelf.byHand).record (Settings.defaults Shelf.settings) = .ok d ∧
      Product.ofRecord (Settings.defaults Shelf.settings) d = .ok q ∧
      q.SameEstimate (Shelf.pair Shelf.byHand) := by
  have first {u : Template} (member : u ∈ (Shelf.pair Shelf.byHand).templates) :
      u.firstIn (Shelf.pair Shelf.byHand).templates = Shelf.template :=
    Shelf.pair_first rfl member
  obtain ⟨written, read⟩ := record_keeps_estimate
    (Shelf.pair_reachable Shelf.settings_usable Shelf.byHand_made)
    (Shelf.pair_listed Shelf.byHand_made).toShort
  obtain ⟨d, recorded⟩ := written.mpr (Shelf.pair_totals Shelf.settings_usable Shelf.byHand_made)
  obtain ⟨readable, estimates⟩ := read d recorded
  obtain ⟨q, readBack⟩ :=
    readable.mpr fun u member => first member ▸ Shelf.template_plain.hasDoubles
  obtain ⟨-, same⟩ := estimates q readBack
  refine ⟨d, q, recorded, readBack, same ?_⟩
  intro u member
  rw [first member]
  rw [Shelf.pair_templates] at member
  rcases List.mem_cons.mp member with own | other
  · rw [own]
    exact Shelf.template_estimates
  · rw [List.mem_singleton.mp other]
    exact Shelf.revised_estimates (l := Shelf.handLogic) rfl none

/-! Sharing changes an estimate where a revision takes another time, a number without a double is
written and not read, and a product whose totals cannot be taken is not even written. -/

namespace Shelf

def slowLogic : Logic := { logic with formula := "length / 50 + grain" }

def slow : Template := revised slowLogic none

theorem slow_made : slow.Made := revised_made (l := slowLogic) logic_made none

theorem slow_pair_changes :
    ∃ d q before after, (pair slow).record (Settings.defaults settings) = .ok d ∧
      Product.ofRecord (Settings.defaults settings) d = .ok q ∧
      q.times ≠ (pair slow).times ∧
      Estimate.productTotals .standard .standard (pair slow).components = .ok before ∧
      Estimate.productTotals .standard .standard q.components = .ok after ∧
      before.totalTime ≠ after.totalTime := by
  have listed := pair_listed slow_made
  have reachable := pair_reachable settings_usable slow_made
  obtain ⟨d, written⟩ :=
    (Product.record_ok_iff reachable).mpr (pair_totals settings_usable slow_made)
  have doubles : ∀ t ∈ (pair slow).templates, (t.firstIn (pair slow).templates).HasDoubles :=
    fun t member => pair_first (t := slow) rfl member ▸ template_plain.hasDoubles
  have read := Product.ofRecord_reread reachable settings_usable listed doubles written
  have rereadListed := Product.reread_listed listed
  obtain ⟨before, own⟩ := Estimate.productTotals_ok RateTable.standard_usable
    EstimateParameters.standard_usable listed.components listed.operations listed.equipment
  obtain ⟨after, shared⟩ := Estimate.productTotals_ok RateTable.standard_usable
    EstimateParameters.standard_usable rereadListed.components rereadListed.operations
    rereadListed.equipment
  have apart : (Product.minutesOf (pair slow).sharing.times).toOption ≠
      (Product.minutesOf (pair slow).times).toOption := by decide +kernel
  rw [← (pair slow).reread_estimate.times] at apart
  refine ⟨d, (pair slow).reread, before, after, written, read, ?_, own, shared, ?_⟩
  · intro same
    exact apart (congrArg (fun times => (Product.minutesOf times).toOption) same)
  · intro same
    rw [Product.minutesOf_times (pair slow).reread_fresh shared,
      Product.minutesOf_times reachable.fresh own, same] at apart
    exact apart rfl

def hugeSettings : Efficiency :=
  ⟨"1", "Sawing", .whole (10 ^ 400), .real 1, .real 1, .minute, ""⟩

def huge : Template := revised logic (some hugeSettings)

theorem huge_made : huge.Made := revised_made (l := logic) logic_made (some hugeSettings)

theorem single_few {id : String} {operations : List Operation}
    (reachable : ∀ p ∈ operations, p.Reachable) (short : operations.length ≤ 1)
    (bare : ∀ p ∈ operations, p.equipment.isGiven = false) : Few [panel id operations] := by
  refine ⟨?_, Nat.le_succ 1, ?_, List.forall_mem_singleton.mpr (panel_bare bare)⟩
  · intro c member
    rw [List.mem_singleton.mp member]
    exact panel_reachable id reachable
  · intro c member
    rw [List.mem_singleton.mp member, panel, Component.refresh, List.length_map]
    exact short

def hugeShelf : Product := shelf [panel "back" [workOn huge]]

theorem huge_few : Few [panel "back" [workOn huge]] := by
  refine single_few ?_ (Nat.le_refl 1) (List.forall_mem_singleton.mpr (workOn_bare huge))
  intro p member
  rw [List.mem_singleton.mp member]
  exact workOn_reachable huge_made

theorem hugeShelf_reachable : hugeShelf.Reachable (Settings.defaults settings) :=
  huge_few.shelf_reachable settings_usable

theorem hugeShelf_listed : hugeShelf.Listed := Product.refresh_listed huge_few.listed

theorem hugeShelf_unread :
    ∃ d, hugeShelf.record (Settings.defaults settings) = .ok d ∧
      ¬ ∃ q, Product.ofRecord (Settings.defaults settings) d = .ok q := by
  obtain ⟨totals, taken⟩ := Product.totals_ok (p := hugeShelf) settings_usable
    (fun _ own => by cases own) (fun _ own => by cases own) hugeShelf_listed
  obtain ⟨d, written⟩ := Product.record_of_totals hugeShelf_reachable taken
  refine ⟨d, written, fun read => ?_⟩
  have used : huge ∈ hugeShelf.templates := by
    rw [hugeShelf, shelf_templates, List.flatMap_singleton, panel_templates]
    exact List.mem_singleton_self _
  have first : huge.firstIn hugeShelf.templates = huge := by
    rw [hugeShelf, shelf_templates, List.flatMap_singleton, panel_templates]
    simp [Template.firstIn, workOn, Component.withActualTime, Component.updated]
  have doubles := (Product.ofRecord_ok_iff hugeShelf_reachable settings_usable hugeShelf_listed
    written).mp read huge used
  rw [first] at doubles
  obtain ⟨x, double⟩ := (doubles.efficiency hugeSettings rfl).baseTime
  have none : (Numeral.whole (10 ^ 400)).toFloat.isOk = false := by decide +kernel
  rw [show hugeSettings.baseTime = .whole (10 ^ 400) from rfl] at double
  rw [double] at none
  cases none

def idle : Product := shelf [panel "side" []]

theorem idle_few : Few [panel "side" []] :=
  single_few (fun _ member => by cases member) (Nat.zero_le 1) (fun _ member => by cases member)

def hugeRates : RateTable := { RateTable.standard with equipmentFallback := .whole (10 ^ 400) }

def chooseRates : Product.Edit Component.Edited := .recalculate (some hugeRates) none

def rated : Product := (chooseRates.apply (Settings.defaults settings) noon idle).1

theorem rated_reachable : rated.Reachable (Settings.defaults settings) :=
  (idle_few.shelf_reachable settings_usable).applied noon_valid trivial (by decide +kernel)

def addSawing : Product.Edit Component.Edited :=
  .past "side" (Component.Edit.addOperation "" template [] .null (.text "pending") "").apply

def sawn : Product := (addSawing.apply (Settings.defaults settings) noon rated).1

theorem sawn_reachable : sawn.Reachable (Settings.defaults settings) := by
  apply rated_reachable.applied noon_valid
  · intro c c' a done
    exact .edited (e := .addOperation "" template [] .null (.text "pending") "") .start
      template_made done
  · decide +kernel

theorem sawn_listed : sawn.Listed :=
  Product.listed_of_bare (by decide +kernel) (by decide +kernel) (by decide +kernel)

end Shelf

/-- Reachable products whose estimate is changed by writing and reading, that are written and not
read, and that are not written. -/
theorem reading_can_change_estimate :
    ((Shelf.pair Shelf.slow).Reachable (Settings.defaults Shelf.settings) ∧
      (Shelf.pair Shelf.slow).Listed ∧
      (Shelf.pair Shelf.slow).templates =
        [Shelf.template, { Shelf.template with logic := some Shelf.slowLogic, efficiency := none }] ∧
      ∃ d q before after, (Shelf.pair Shelf.slow).record (Settings.defaults Shelf.settings) = .ok d ∧
        Product.ofRecord (Settings.defaults Shelf.settings) d = .ok q ∧
        q.times ≠ (Shelf.pair Shelf.slow).times ∧
        Estimate.productTotals .standard .standard (Shelf.pair Shelf.slow).components =
          .ok before ∧
        Estimate.productTotals .standard .standard q.components = .ok after ∧
        before.totalTime ≠ after.totalTime) ∧
    (Shelf.hugeShelf.Reachable (Settings.defaults Shelf.settings) ∧ Shelf.hugeShelf.Listed ∧
      ∃ d, Shelf.hugeShelf.record (Settings.defaults Shelf.settings) = .ok d ∧
        ¬ ∃ q, Product.ofRecord (Settings.defaults Shelf.settings) d = .ok q) ∧
    Shelf.sawn.Reachable (Settings.defaults Shelf.settings) ∧ Shelf.sawn.Listed ∧
      ¬ ∃ d, Shelf.sawn.record (Settings.defaults Shelf.settings) = .ok d := by
  refine ⟨⟨Shelf.pair_reachable Shelf.settings_usable Shelf.slow_made,
    Shelf.pair_listed Shelf.slow_made, Shelf.pair_templates Shelf.slow, Shelf.slow_pair_changes⟩,
    ⟨Shelf.hugeShelf_reachable, Shelf.hugeShelf_listed, Shelf.hugeShelf_unread⟩,
    Shelf.sawn_reachable, Shelf.sawn_listed, ?_⟩
  rintro ⟨d, written⟩
  have fails : (Shelf.sawn.record (Settings.defaults Shelf.settings)).isOk = false := by
    decide +kernel
  rw [written] at fails
  cases fails

end Joinery
