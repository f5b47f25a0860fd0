import Joinery.Proofs.Product.Fresh
import Joinery.Proofs.Record.Component
import Joinery.Proofs.Settings.Defaults
import Joinery.Record.Product

/-!
Records of products read back. A product comes back with its components, steps and settled dates,
and without the rates and parameters that were chosen for it, which have no part in a record.
-/
namespace Joinery

theorem AssemblyStep.Reachable.measured {s : AssemblyStep} (reachable : s.Reachable) :
    ∃ d : Datum, d.nonNegative "estimated_time" = .ok s.estimatedTime := by
  induction reachable with
  | made made =>
    obtain ⟨_, _, read, -, rfl⟩ := parts_of_make made
    exact ⟨_, read⟩
  | progressed status _ ih => exact ih

theorem AssemblyStep.ofRecord_record {s : AssemblyStep} (reachable : s.Reachable) :
    AssemblyStep.ofRecord s.record = .ok s := by
  obtain ⟨d, read⟩ := reachable.measured
  have ids : (s.componentIds.map Datum.text).mapM Datum.asText = .ok s.componentIds :=
    mapM_map_ok fun _ _ => rfl
  simp only [ofRecord, record, Datum.asRecord, Record.needText, Record.need, Record.text, Record.value, Record.valueOr,
    Record.items_eq, List.lookup, String.reduceBEq, Option.getD_some, givenText_text, Datum.items_texts,
    ids, Datum.asText, make, Datum.nonNegative_again read, read_ofChoice, bind, Except.bind]
  rfl

namespace Placement

def reread (all : List Template) (p : Placement) : Placement :=
  { p with component := p.component.reread all }

theorem ofRecord_record {known : Keyed Template} {before all : List Template} {p : Placement}
    (remembers : Remembers known before) (start : before ++ p.component.templates <+: all)
    (reachable : p.Reachable) (doubles : ∀ t ∈ p.component.templates, (t.firstIn all).HasDoubles)
    {d : Datum} (written : p.record = .ok d) :
    ∃ after, ofRecord known d = .ok (p.reread all, after) ∧
      Remembers after (before ++ p.component.templates) := by
  obtain ⟨component, recorded, same⟩ := bind_ok.mp written
  obtain rfl := Except.ok.inj same
  obtain ⟨after, read, remembersAfter⟩ := Component.ofRecord_record remembers start
    reachable.component.wellMade doubles recorded
  obtain ⟨_, readQuantity⟩ := reachable.quantity
  obtain ⟨_, readOrder⟩ := reachable.order
  have quantity : Component.readQuantity (.nat p.quantity) = .ok p.quantity :=
    Datum.count_again readQuantity _
  have order : (Datum.nat p.order).count 0 "assembly_order" = .ok p.order :=
    Datum.count_again readOrder _
  refine ⟨after, ?_, remembersAfter⟩
  simp only [ofRecord, Datum.asRecord, Record.need, Record.value, Record.valueOr, List.lookup,
    String.reduceBEq, Option.getD_some, read, make, quantity, order, bind, Except.bind]
  rfl

end Placement

namespace Product

def templates (p : Product) : List Template :=
  p.placements.flatMap fun entry => entry.component.templates

theorem templates_of_placement {p : Product} {entry : Placement} (placed : entry ∈ p.placements) :
    ∀ t ∈ entry.component.templates, t ∈ p.templates :=
  fun _ used => List.mem_flatMap.mpr ⟨entry, placed, used⟩

def reread (p : Product) : Product :=
  { p with
    placements := p.placements.map (Placement.reread p.templates)
    createdAt := p.createdAt.settle
    updatedAt := p.updatedAt.settle
    rates := none
    params := none }

def draftBack (p : Product) : ProductDraft where
  id := p.id
  name := p.name
  code := p.code
  description := p.description
  placements := p.placements.map (Placement.reread p.templates)
  steps := p.steps
  status := .ofChoice p.status
  createdAt := p.createdAt.settle
  updatedAt := p.updatedAt.settle

theorem record_of_totals {defaults : Defaults} {p : Product} {totals : ProductTotals}
    (reachable : p.Reachable defaults) (taken : p.totals defaults = .ok totals) :
    ∃ d, p.record defaults = .ok d := by
  obtain ⟨rates, params, -, -, summed⟩ := totals_parts taken
  obtain ⟨parts, each, -⟩ := bind_ok.mp summed
  have components : ∀ entry ∈ p.placements, ∃ d, entry.record = .ok d := by
    intro entry placed
    have fresh := (reachable.parts.placements entry placed).component.fresh
    obtain ⟨part, taken⟩ := mapM_member each entry.component (List.mem_map_of_mem placed)
    have time := fresh.timesAgree.total rates part taken
    simp only [Placement.record, Component.record, time, bind, Except.bind]
    exact ⟨_, rfl⟩
  obtain ⟨ds, recorded⟩ := mapM_ok components
  simp only [record, taken, recorded, bind, Except.bind]
  exact ⟨_, rfl⟩

theorem reread_refresh (p : Product) : p.reread.refresh = p.reread := by
  apply refresh_eq_self
  intro entry placed
  obtain ⟨before, -, rfl⟩ := List.mem_map.mp placed
  exact Component.refresh_fresh _

theorem hasText_part {d : Datum} (shown : d.HasText) : (d.part?.getD .null).HasText := by
  unfold Datum.part?
  split
  · exact shown
  · exact Datum.hasText_null

theorem reread_listed {p : Product} (listed : p.Listed) : p.reread.Listed := by
  refine ⟨⟨?_, ?_⟩, ?_⟩
  · have components := listed.components
    simpa only [components, reread, Product.components, List.length_map] using components
  · intro c member
    obtain ⟨entry, placed, rfl⟩ := List.mem_map.mp member
    obtain ⟨before, mb, rfl⟩ := List.mem_map.mp placed
    have operations := listed.operations before.component (List.mem_map_of_mem mb)
    simpa [Placement.reread, Component.reread, Component.refresh] using operations
  · intro c member q held
    obtain ⟨entry, placed, rfl⟩ := List.mem_map.mp member
    obtain ⟨before, mb, rfl⟩ := List.mem_map.mp placed
    obtain ⟨r, again, rfl⟩ := List.mem_map.mp held
    obtain ⟨o, former, rfl⟩ := List.mem_map.mp again
    exact hasText_part
      (listed.equipment before.component (List.mem_map_of_mem mb) o former)

theorem ofRecord_make {defaults : Defaults} {p : Product} (reachable : p.Reachable defaults)
    (doubles : ∀ t ∈ p.templates, (t.firstIn p.templates).HasDoubles) {d : Datum}
    (written : p.record defaults = .ok d) :
    ofRecord defaults d = (make defaults p.draftBack).within (.badProductRecord (.text p.id)) := by
  obtain ⟨totals, -, written⟩ := bind_ok.mp written
  obtain ⟨components, recorded, same⟩ := bind_ok.mp written
  obtain rfl := Except.ok.inj same
  have parts := reachable.parts
  obtain ⟨after, placements, -⟩ := readEach_records (R := fun entry d => entry.record = .ok d)
    (fun entry placed _ _ _ remembers start written =>
      Placement.ofRecord_record remembers start (parts.placements entry placed)
        (fun t used => doubles t (templates_of_placement placed t used)) written)
    remembers_nothing (List.prefix_refl p.templates) (mapM_ok_iff.mp recorded)
  have steps : (p.steps.map AssemblyStep.record).mapM AssemblyStep.ofRecord = .ok p.steps :=
    mapM_map_ok fun s member => AssemblyStep.ofRecord_record (parts.steps s member)
  have createdAt := Moment.record_read parts.createdAt "createdAt"
  have updatedAt := Moment.record_read parts.updatedAt "updatedAt"
  simp only [ofRecord, ofFields, isRecordVersion, recordVersion, Datum.asRecord, Record.need,
    Record.text, Record.value, Record.valueOr, Record.items_eq, List.lookup, String.reduceBEq,
    Option.getD_some, givenText_text, Datum.items_list, Datum.asText, placements, steps, createdAt,
    updatedAt, beq_self_eq_true, ↓reduceIte, bind, Except.bind]
  rfl

theorem ofRecord_reread {defaults : Defaults} {p : Product} (reachable : p.Reachable defaults)
    (usable : defaults.Usable) (listed : p.Listed)
    (doubles : ∀ t ∈ p.templates, (t.firstIn p.templates).HasDoubles) {d : Datum}
    (written : p.record defaults = .ok d) : ofRecord defaults d = .ok p.reread := by
  have made : make defaults p.draftBack = .ok p.reread.refresh :=
    make_ok usable (read_ofChoice p.status) (reread_listed listed)
  rw [ofRecord_make reachable doubles written, made, reread_refresh]
  rfl

end Product
end Joinery
