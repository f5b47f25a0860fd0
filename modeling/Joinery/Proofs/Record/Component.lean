import Joinery.Proofs.Component.Fresh
import Joinery.Proofs.Estimate.Totals
import Joinery.Proofs.Record.Reference
import Joinery.Record.Component

/-!
Records of components read back. Each operation comes back with the first template of its id, as a
reader knows it, and with times that are calculated anew.
-/
namespace Joinery

theorem Parameter.ofRecord_record (p : Parameter) : Parameter.ofRecord p.record = .ok p := rfl

theorem Feature.readSize_ok {d : Datum} {size : Option Float} {field : String}
    (read : Feature.readSize field d = .ok size) :
    size = none ∨ ∃ x, size = some x ∧ d.nonNegative field = .ok x := by
  have measured (other : (d.nonNegative field).map some = .ok size) :
      ∃ x, size = some x ∧ d.nonNegative field = .ok x := by
    obtain ⟨x, measure, rfl⟩ := map_ok.mp other
    exact ⟨x, rfl, measure⟩
  cases d with
  | null => exact Or.inl (Except.ok.inj read).symm
  | _ => exact Or.inr (measured read)

theorem Feature.readSize_again {d : Datum} {size : Option Float} {field : String}
    (read : Feature.readSize field d = .ok size) :
    Feature.readSize field (Datum.orNull Datum.real size) = .ok size := by
  rcases readSize_ok read with rfl | ⟨x, rfl, measure⟩
  · rfl
  · have again : (Datum.real x).nonNegative field = .ok x := Datum.nonNegative_again measure field
    simp only [Datum.orNull, readSize, again, Except.map]

theorem Operation.readActualTime_eq (d : Datum) :
    Operation.readActualTime d = Feature.readSize "actual_time" d := by
  cases d <;> rfl

theorem Feature.ofRecord_record {f : Feature} (made : f.WellMade) :
    Feature.ofRecord f.record = .ok f := by
  obtain ⟨d, readCount⟩ := made.count
  obtain ⟨e, readSize⟩ := made.size
  have count : Feature.readCount (.nat f.count) = .ok f.count := Datum.count_again readCount _
  have size := Feature.readSize_again readSize
  simp only [Feature.ofRecord, Feature.record, Datum.asRecord, Record.needText, Record.need,
    Record.text, Record.value, Record.valueOr, List.lookup, String.reduceBEq, Option.getD,
    Datum.asText, givenText_text, bind, Except.bind, Feature.make, read_ofChoice, count, size]
  rfl

def Operation.reread (all : List Template) (p : Operation) : Operation :=
  { p with
    template := (p.template.firstIn all).readBack
    minutes := 0
    equipment := p.equipment.part?.getD .null
    diagnostic := none }

theorem Operation.make_again {p : Operation} (made : p.WellMade) (template : Template)
    (equipment : Datum) :
    Operation.make p.id template (Datum.orNull Datum.real p.actualTime) (.ofChoice p.status) p.notes
        p.parameters equipment =
      .ok { p with template, equipment, minutes := 0, diagnostic := none } := by
  obtain ⟨d, read⟩ := made.actualTime
  rw [readActualTime_eq] at read
  have again := Feature.readSize_again read
  rw [← readActualTime_eq] at again
  simp only [make, read_ofChoice, again, bind, Except.bind]
  rfl

theorem Operation.ofRecord_record {known : Keyed Template} {before : List Template} {p : Operation}
    (remembers : Remembers known before) (made : p.WellMade)
    (doubles : (p.template.firstIn (before ++ [p.template])).HasDoubles) :
    ∃ after, Operation.ofRecord known p.record = .ok (p.reread (before ++ [p.template]), after) ∧
      Remembers after (before ++ [p.template]) := by
  obtain ⟨after, template, remembersAfter⟩ :=
    Template.ofRecord_record remembers made.template doubles
  refine ⟨after, ?_, remembersAfter⟩
  have parameters : (p.parameters.map Parameter.record).mapM Parameter.ofRecord = .ok p.parameters :=
    mapM_map_ok fun q _ => Parameter.ofRecord_record q
  simp only [Operation.ofRecord, Operation.record, Datum.asRecord, Record.needText, Record.need,
    Record.text, Record.value, Record.valueOr, Record.items_eq, Record.part?_eq, List.lookup, String.reduceBEq,
    Option.getD_some, givenText_text, Datum.items_list, Datum.asText, template, parameters, bind,
    Except.bind, make_again made]
  rfl

/-- Things that are written one after another are read back one after another, if each of them is,
with its templates next among those of a product. -/
theorem readEach_records {α : Type} {read : Keyed Template → Datum → Outcome (α × Keyed Template)}
    {R : α → Datum → Prop} {templates : α → List Template} {reread : α → α}
    {all before : List Template} {known : Keyed Template} {as : List α} {ds : List Datum}
    (each : ∀ a ∈ as, ∀ {known : Keyed Template} {before : List Template} {d : Datum},
      Remembers known before → before ++ templates a <+: all → R a d →
      ∃ after, read known d = .ok (reread a, after) ∧ Remembers after (before ++ templates a))
    (remembers : Remembers known before) (start : before ++ as.flatMap templates <+: all)
    (written : List.Forall₂ R as ds) :
    ∃ after, readEach read known ds = .ok (as.map reread, after) ∧
      Remembers after (before ++ as.flatMap templates) := by
  induction written generalizing known before with
  | nil => exact ⟨known, rfl, by simpa using remembers⟩
  | cons first _ ih =>
    rw [List.flatMap_cons, ← List.append_assoc] at start ⊢
    obtain ⟨next, own, remembersNext⟩ :=
      each _ (by simp) remembers ((List.prefix_append _ _).trans start) first
    obtain ⟨after, others, remembersAfter⟩ :=
      ih (fun b member => each b (by simp [member])) remembersNext start
    refine ⟨after, ?_, remembersAfter⟩
    simp only [readEach, own, others, bind, Except.bind]
    rfl

theorem Operation.readEach_record {known : Keyed Template} {before all : List Template}
    {ps : List Operation} (remembers : Remembers known before)
    (start : before ++ ps.map Operation.template <+: all) (made : ∀ p ∈ ps, p.WellMade)
    (doubles : ∀ p ∈ ps, (p.template.firstIn all).HasDoubles) :
    ∃ after, readEach Operation.ofRecord known (ps.map Operation.record) =
        .ok (ps.map (Operation.reread all), after) ∧
      Remembers after (before ++ ps.map Operation.template) := by
  rw [List.map_eq_flatMap (f := Operation.template)] at start ⊢
  refine readEach_records (R := fun p d => p.record = d) ?_ remembers start
    (List.forall₂_map_right_iff.mpr (List.forall₂_same.mpr fun _ _ => rfl))
  rintro p member known before _ remembers start rfl
  have reached := Template.firstIn_initial start
  have same : p.reread all = p.reread (before ++ [p.template]) := by
    rw [reread, reread, reached]
  rw [same]
  exact ofRecord_record remembers (made p member) (reached ▸ doubles p member)

theorem Size.ofRecord_record {s : Size} {length width thickness : Datum}
    (made : Size.make length width thickness = .ok s) : Size.ofRecord s.record = .ok s := by
  obtain ⟨readLength, readWidth, readThickness⟩ := parts_of_make made
  simp only [Size.ofRecord, Size.record, Datum.asRecord, Record.need, List.lookup, String.reduceBEq,
    Size.make, Datum.nonNegative_again readLength, Datum.nonNegative_again readWidth,
    Datum.nonNegative_again readThickness, bind, Except.bind]
  rfl

namespace Component

def templates (c : Component) : List Template := c.operations.map Operation.template

def reread (all : List Template) (c : Component) : Component :=
  refresh { c with operations := c.operations.map (Operation.reread all) }

theorem ofRecord_record {known : Keyed Template} {before all : List Template} {c : Component}
    (remembers : Remembers known before) (start : before ++ c.templates <+: all)
    (made : c.WellMade) (doubles : ∀ t ∈ c.templates, (t.firstIn all).HasDoubles) {d : Datum}
    (written : c.record = .ok d) :
    ∃ after, ofRecord known d = .ok (c.reread all, after) ∧
      Remembers after (before ++ c.templates) := by
  obtain ⟨totalTime, -, same⟩ := bind_ok.mp written
  obtain rfl := Except.ok.inj same
  obtain ⟨length, width, thickness, sized⟩ := made.size
  obtain ⟨_, readQuantity⟩ := made.quantity
  obtain ⟨_, readEdgeCount⟩ := made.edgeCount
  have quantity : Component.readQuantity (.nat c.quantity) = .ok c.quantity :=
    Datum.count_again readQuantity _
  have edgeCount : Component.readEdgeCount (.nat c.edgeCount) = .ok c.edgeCount :=
    Datum.count_again readEdgeCount _
  have features : (c.features.map Feature.record).mapM Feature.ofRecord = .ok c.features :=
    mapM_map_ok fun f member => Feature.ofRecord_record (made.features f member)
  obtain ⟨after, operations, remembersAfter⟩ :=
    Operation.readEach_record remembers start made.operations
      fun p member => doubles p.template (List.mem_map_of_mem member)
  refine ⟨after, ?_, remembersAfter⟩
  simp only [ofRecord, ofFields, Datum.asRecord, Record.needText, Record.need, Record.text,
    Record.value, Record.valueOr, Record.items_eq, List.lookup, String.reduceBEq, Option.getD_some, givenText_text,
    Datum.items_list, Datum.asText, Size.ofRecord_record sized, features, operations, make, quantity,
    edgeCount, read_ofChoice, bind, Except.bind]
  rfl

end Component
end Joinery
