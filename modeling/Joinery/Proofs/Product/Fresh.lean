import Joinery.Proofs.Component.Fresh
import Joinery.Proofs.Product.Reach
import Joinery.Proofs.Product.Totals

/-!
Stored times in products. Whatever edits a product or one of its components has gone through, the
times stored in its operations are those of a calculation on the component as it is, and so are
their totals.
-/
namespace Joinery

/-- The stored times of a component are its calculated times, one by one and as a total. -/
structure Component.TimesAgree (c : Component) : Prop where
  each : ∀ p ∈ c.operations,
    p.minutes = (Duration.compute p.template p.parameters c).minutes ∧
      p.diagnostic = (Duration.compute p.template p.parameters c).diagnostic
  total : ∀ rates totals, Estimate.componentTotals rates c = .ok totals →
    c.totalTime = .ok totals.totalTime
  taken : ∀ rates : RateTable, rates.Usable → c.operations.length < 2 ^ 63 →
    ((∃ totals, Estimate.componentTotals rates c = .ok totals) ↔
      ∀ p ∈ c.operations, p.equipment.HasText)

theorem Product.refresh_eq_self {p : Product}
    (fresh : ∀ entry ∈ p.placements, entry.component.Fresh) : p.refresh = p := by
  have same : p.placements.map Placement.refresh = p.placements := by
    refine (List.map_congr_left fun entry placed => ?_).trans (List.map_id _)
    rw [Placement.refresh, Component.refresh_eq_self (fresh entry placed)]
    rfl
  rw [refresh, same]

theorem Product.fresh_of_placements {p : Product} {entries : List Placement}
    {f : Placement → Placement} (placed : p.placements = entries.map f)
    (fresh : ∀ entry, (f entry).component.Fresh) : ∀ c ∈ p.components, c.Fresh := by
  intro c member
  rw [components, placed, List.map_map] at member
  obtain ⟨entry, -, rfl⟩ := List.mem_map.mp member
  exact fresh entry

theorem totalTime_of_totals {rates : RateTable} {c : Component} {totals : ComponentTotals}
    (taken : Estimate.componentTotals rates c = .ok totals) :
    Estimate.total (c.operations.map (Estimate.minutes c)) = .ok totals.totalTime := by
  obtain ⟨_, _, -, -, -, timed, -, -⟩ := Estimate.componentTotals_parts taken
  exact timed

theorem Component.Fresh.timesAgree {c : Component} (fresh : c.Fresh) : c.TimesAgree where
  each := fresh
  total _ _ taken := (totalTime_of_fresh fresh).trans (totalTime_of_totals taken)
  taken _ usable short := Estimate.componentTotals_ok_iff usable short

theorem Product.Reachable.fresh {defaults : Defaults} {p : Product}
    (reachable : p.Reachable defaults) : ∀ c ∈ p.components, c.Fresh := by
  intro c member
  obtain ⟨entry, placed, rfl⟩ := List.mem_map.mp member
  exact (reachable.parts.placements entry placed).component.fresh

theorem stored_times_agree :
    (∀ c : Component, c.Reachable → c.TimesAgree) ∧
      ∀ (defaults : Defaults) (p : Product), p.Reachable defaults →
        ∀ c ∈ p.components, c.TimesAgree :=
  ⟨fun _ reachable => reachable.fresh.timesAgree,
    fun _ _ reachable c member => (reachable.fresh c member).timesAgree⟩

/-! A shelf with one side, a product that the theorems about reachable ones apply to. -/
namespace Shelf

def noon : Moment := ⟨⟨2024, 5, 6⟩, 12, 0, 0, 0, some 7200000000⟩

theorem noon_valid : noon.Valid := ⟨by decide, by decide⟩

def length : Variable :=
  (Variable.make "length" (.text "dimension") "mm" "" (some (.real 0)) none none).value (by decide)

def logic : Logic := ⟨"1", "Sawing", "length / 100 + grain", [length], "", true⟩

def templateDraft : TemplateDraft where
  id := "1"
  code := "SAW"
  name := "Sawing"
  category := .text "cutting"
  logic := some logic
  strategy := .text "formula"
  efficiency := none
  equipment := .list [.text "saw"]
  materials := .list []
  isActive := true
  description := ""
  createdAt := noon
  updatedAt := noon

def template : Template := (Template.make templateDraft).value (by decide +kernel)

theorem template_made : template.Made := by
  refine ⟨templateDraft, ?_, noon_valid, noon_valid, Outcome.eq_value _⟩
  intro l used v member
  obtain rfl := Option.some.inj used
  rw [List.mem_singleton.mp member]
  exact ⟨_, _, _, _, _, _, _, Outcome.eq_value _⟩

def operation : Operation :=
  (Operation.make "saw-1" template .null (.text "pending") "" [⟨"grain", .int 3, .null, .null⟩]
    .null).value (by decide +kernel)

def hole : Feature :=
  (Feature.make "hole-1" (.text "hole") (.int 4) (.real 5) .null "" "").value (by decide +kernel)

def size : Size := (Size.make (.int 700) (.int 300) (.int 18)).value (by decide +kernel)

theorem size_made : Size.make (.int 700) (.int 300) (.int 18) = .ok size := Outcome.eq_value _

def sideDraft : ComponentDraft where
  id := "side"
  name := "Side"
  size := size
  material := "mdf"
  quantity := .int 2
  complexity := .text "simple"
  features := [hole]
  operations := [operation]
  code := ""
  edgeCount := .int 1
  notes := ""

def side : Component := (Component.make sideDraft).value (by decide +kernel)

theorem side_reachable : side.Reachable := by
  refine ⟨sideDraft, side, ⟨⟨_, _, _, size_made⟩, ?_, ?_⟩, Outcome.eq_value _, .start⟩
  · intro f member
    rw [List.mem_singleton.mp member]
    exact .made (Outcome.eq_value _)
  · intro p member
    rw [List.mem_singleton.mp member]
    exact .made template_made (Outcome.eq_value _)

def placement : Placement :=
  (Placement.make side (.int 1) .null (.int 1)).value (by decide +kernel)

def draft (createdAt : Moment) : ProductDraft where
  id := "shelf"
  name := "Shelf"
  code := ""
  description := ""
  placements := [placement]
  steps := []
  status := .text "designing"
  createdAt := createdAt
  updatedAt := noon

def product (createdAt : Moment) : Product := (Product.ofDraft (draft createdAt) .designing).refresh

theorem draft_listed (createdAt : Moment) :
    (Product.ofDraft (draft createdAt) .designing).Listed := by
  have only : ∀ c ∈ (Product.ofDraft (draft createdAt) .designing).components,
      c = placement.component := fun _ placed => List.mem_singleton.mp placed
  refine Product.listed_of_bare (Nat.lt_of_lt_of_le Nat.one_lt_two (by decide)) ?_ ?_
  · intro c placed
    rw [only c placed]
    decide +kernel
  · intro c placed
    rw [only c placed]
    decide +kernel

theorem product_reachable {defaults : Defaults} (usable : defaults.Usable) {createdAt : Moment}
    (valid : createdAt.Valid) : (product createdAt).Reachable defaults := by
  have status : Choice.read (.text "designing") = .ok ProductStatus.designing := rfl
  have made : Product.make defaults (draft createdAt) = .ok (product createdAt) :=
    Product.make_ok usable status (draft_listed createdAt)
  refine .made ⟨?_, ?_, valid, noon_valid⟩ made
  · intro entry member
    rw [List.mem_singleton.mp member]
    exact Placement.reachable_of_make side_reachable (Outcome.eq_value _)
  · intro s member
    cases member

def lengthen : Product.Edit Component.Edited :=
  .past "side" fun c => (Component.Edit.resize (.int 900) .null .null).apply c

def longer : Product := (lengthen.apply .standard noon (product noon)).1

theorem longer_reachable : longer.Reachable .standard := by
  apply Product.Reachable.applied (product_reachable Defaults.standard_usable noon_valid) noon_valid
  · intro c c' a done
    exact .edited (e := .resize (.int 900) .null .null) .start trivial done
  · decide +kernel

end Shelf

theorem shelf_times_agree : Shelf.side.TimesAgree ∧ ∀ c ∈ Shelf.longer.components, c.TimesAgree :=
  ⟨stored_times_agree.1 Shelf.side Shelf.side_reachable,
    stored_times_agree.2 .standard Shelf.longer Shelf.longer_reachable⟩

end Joinery
