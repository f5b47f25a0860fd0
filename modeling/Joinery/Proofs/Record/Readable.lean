import Joinery.Proofs.Record.Product

/-!
Which records can be read back. A record of a product is written whenever its totals can be taken.
It can be read if and only if the numbers of the templates that are read have doubles, where of the
templates with one id only the first is read.
-/
namespace Joinery

theorem Datum.hasDouble_of_amount? {n m : Option Numeral}
    (read : (Datum.orNull Datum.number n).amount? = .ok m) : ∀ k ∈ n, k.HasDouble := by
  intro k own
  obtain rfl := Option.mem_def.mp own
  obtain ⟨x, double, -⟩ := map_ok.mp read
  exact ⟨x, double⟩

theorem Datum.part_of_read {α : Type} {write : α → Datum} {read : Datum → Outcome α}
    {part part' : Option α} (given : ∀ a, (write a).isGiven = true)
    (success : Option.mapM read (Datum.orNull write part).part? = .ok part') :
    ∀ a ∈ part, ∃ b, read (write a) = .ok b := by
  intro a own
  obtain rfl := Option.mem_def.mp own
  have there : (write a).part? = some (write a) := if_pos (given a)
  simp only [orNull, there, Option.mapM] at success
  obtain ⟨b, own, -⟩ := map_ok.mp success
  exact ⟨b, own⟩

theorem Variable.doubles_of_read {v w : Variable} (read : Variable.ofRecord v.record = .ok w) :
    v.HasDoubles := by
  simp only [Variable.ofRecord, Variable.record, Datum.asRecord, Record.needText, Record.need,
    Record.text, Datum.asText, givenText_text, List.lookup, String.reduceBEq, Record.amount?_eq,
    Record.value, Record.valueOr, Option.getD_some, ok_bind] at read
  obtain ⟨_, fallback, read⟩ := bind_ok.mp read
  obtain ⟨_, least, read⟩ := bind_ok.mp read
  obtain ⟨_, most, read⟩ := bind_ok.mp read
  exact ⟨Datum.hasDouble_of_amount? fallback, Datum.hasDouble_of_amount? least,
    Datum.hasDouble_of_amount? most⟩

theorem Logic.doubles_of_read {l k : Logic} (read : Logic.ofRecord l.record = .ok k) :
    l.HasDoubles := by
  simp only [Logic.ofRecord, Logic.record, Datum.asRecord, Record.needText, Record.need, Record.text,
    Datum.asText, givenText_text, List.lookup, String.reduceBEq, Record.items_eq, Record.value,
    Record.valueOr, Option.getD_some, Datum.items_list, ok_bind] at read
  obtain ⟨_, used, -⟩ := bind_ok.mp read
  refine ⟨fun v member => ?_⟩
  obtain ⟨w, own⟩ := mapM_member used v.record (List.mem_map_of_mem member)
  exact Variable.doubles_of_read own

theorem Efficiency.doubles_of_read {e f : Efficiency} (read : Efficiency.ofRecord e.record = .ok f) :
    e.HasDoubles := by
  simp only [Efficiency.ofRecord, Efficiency.record, Datum.asRecord, Record.needText, Record.need,
    Record.text, Datum.asText, givenText_text, List.lookup, String.reduceBEq, Record.value,
    Record.valueOr, Option.getD_some, ok_bind] at read
  obtain ⟨b, base, read⟩ := bind_ok.mp read
  obtain ⟨s, size, read⟩ := bind_ok.mp read
  obtain ⟨c, complexity, -⟩ := bind_ok.mp read
  exact ⟨⟨b, base⟩, ⟨s, size⟩, ⟨c, complexity⟩⟩

theorem Template.doubles_of_new {t u : Template} {fields : Record}
    (written : t.record = .object fields) (read : Template.ofNewRecord t.id fields = .ok u) :
    t.HasDoubles := by
  obtain rfl := Datum.object.inj written.symm
  simp only [Template.ofNewRecord, Record.needText, Record.need, Record.text, Datum.asText,
    givenText_text, Record.part?_eq, Record.value, Record.valueOr, List.lookup, String.reduceBEq,
    Option.getD_some, ok_bind] at read
  obtain ⟨logic, readLogic, read⟩ := bind_ok.mp read
  obtain ⟨efficiency, readEfficiency, -⟩ := bind_ok.mp read
  refine ⟨fun l own => ?_, fun e own => ?_⟩
  · obtain ⟨k, readOwn⟩ := Datum.part_of_read (fun _ => rfl) readLogic l own
    exact Logic.doubles_of_read readOwn
  · obtain ⟨f, readOwn⟩ := Datum.part_of_read (fun _ => rfl) readEfficiency e own
    exact Efficiency.doubles_of_read readOwn

theorem Template.firstIn_congr {all : List Template} {t u : Template} (same : t.id = u.id)
    (member : u ∈ all) : t.firstIn all = u.firstIn all := by
  unfold firstIn
  rw [same]
  cases found : all.find? fun v => v.id == u.id with
  | some v => rfl
  | none => exact absurd (List.find?_eq_none.mp found u member) (by simp)

/-- A template that is read without a fault is either the first of its id, or the first has been read
before. -/
theorem Template.doubles_of_read {known after : Keyed Template} {before all : List Template}
    {t u : Template} (remembers : Remembers known before) (start : before ++ [t] <+: all)
    (earlier : ∀ s ∈ before, (s.firstIn all).HasDoubles)
    (read : Template.ofRecord known t.record = .ok (u, after)) : (t.firstIn all).HasDoubles := by
  have own := remembers t.id
  cases found : before.find? fun s => s.id == t.id with
  | some s =>
    have member : s ∈ before := List.mem_of_find?_eq_some found
    have same : s.id = t.id := by simpa using List.find?_some found
    have inAll : s ∈ all := start.subset (List.mem_append_left _ member)
    rw [firstIn_congr same.symm inAll]
    exact earlier s member
  | none =>
    have first : t.firstIn (before ++ [t]) = t := by simp [firstIn, List.find?_append, found]
    rw [firstIn_initial start, first]
    rw [found] at own
    simp only [Template.ofRecord, Template.record, Datum.asRecord, Record.needText, Record.need,
      List.lookup, String.reduceBEq, Datum.asText, own, Option.map_none, ok_bind] at read
    obtain ⟨v, new, -⟩ := bind_ok.mp read
    exact doubles_of_new rfl new

/-- Records one after the other, which are read without a fault. What each of them shows of its own
templates comes beside those of the records before it. -/
theorem readEach_doubles {α β : Type} {read : Keyed Template → Datum → Outcome (β × Keyed Template)}
    {R : α → Datum → Prop} {templates : α → List Template} {all before : List Template}
    {known after : Keyed Template} {as : List α} {bs : List β} {ds : List Datum}
    (each : ∀ a ∈ as, ∀ {known after : Keyed Template} {before : List Template} {d : Datum} {b : β},
      Remembers known before → before ++ templates a <+: all →
      (∀ t ∈ before, (t.firstIn all).HasDoubles) → R a d → read known d = .ok (b, after) →
      (∀ t ∈ before ++ templates a, (t.firstIn all).HasDoubles) ∧
        Remembers after (before ++ templates a))
    (remembers : Remembers known before) (start : before ++ as.flatMap templates <+: all)
    (earlier : ∀ t ∈ before, (t.firstIn all).HasDoubles) (written : List.Forall₂ R as ds)
    (success : readEach read known ds = .ok (bs, after)) :
    ∀ t ∈ before ++ as.flatMap templates, (t.firstIn all).HasDoubles := by
  induction written generalizing known before bs with
  | nil => simpa using earlier
  | cons first _ ih =>
    obtain ⟨b, next, others, own, later, rfl⟩ := readEach_cons success
    rw [List.flatMap_cons, ← List.append_assoc] at start ⊢
    obtain ⟨doubles, remembersNext⟩ :=
      each _ (by simp) remembers ((List.prefix_append _ _).trans start) earlier first own
    exact ih (fun a member => each a (by simp [member])) remembersNext start doubles later

theorem Operation.template_of_read {known after : Keyed Template} {p q : Operation}
    (read : Operation.ofRecord known p.record = .ok (q, after)) :
    ∃ u, Template.ofRecord known p.template.record = .ok (u, after) := by
  simp only [Operation.ofRecord, Operation.record, Datum.asRecord, Record.needText, Record.need,
    Record.text, Record.value, Record.valueOr, Datum.asText, givenText_text, List.lookup,
    String.reduceBEq, Option.getD_some, ok_bind] at read
  obtain ⟨⟨u, next⟩, template, read⟩ := bind_ok.mp read
  dsimp only at read
  obtain ⟨_, -, read⟩ := bind_ok.mp read
  obtain ⟨_, -, read⟩ := bind_ok.mp read
  obtain ⟨_, -, same⟩ := bind_ok.mp read
  obtain ⟨-, rfl⟩ := Prod.mk.inj (Except.ok.inj same)
  exact ⟨u, template⟩

theorem Operation.doubles_of_reads {known after : Keyed Template} {before all : List Template}
    {ps qs : List Operation} (remembers : Remembers known before)
    (start : before ++ ps.map Operation.template <+: all) (made : ∀ p ∈ ps, p.WellMade)
    (earlier : ∀ s ∈ before, (s.firstIn all).HasDoubles)
    (read : readEach Operation.ofRecord known (ps.map Operation.record) = .ok (qs, after)) :
    ∀ t ∈ before ++ ps.map Operation.template, (t.firstIn all).HasDoubles := by
  rw [List.map_eq_flatMap (f := Operation.template)] at start ⊢
  refine readEach_doubles (R := fun p d => p.record = d) ?_ remembers start earlier
    (List.forall₂_map_right_iff.mpr (List.forall₂_same.mpr fun _ _ => rfl)) read
  rintro p member known after before _ q remembers start earlier rfl first
  obtain ⟨u, template⟩ := template_of_read first
  have double := Template.doubles_of_read remembers start earlier template
  -- The template has its doubles, so that the record is known to be read as the next one needs it.
  obtain ⟨after', again, remembersAfter⟩ := ofRecord_record remembers (made p member)
    (Template.firstIn_initial start ▸ double)
  obtain ⟨-, rfl⟩ := Prod.mk.inj (Except.ok.inj (again.symm.trans first))
  refine ⟨fun s among => ?_, remembersAfter⟩
  rcases List.mem_append.mp among with old | new
  · exact earlier s old
  · rw [List.mem_singleton.mp new]
    exact double

theorem Component.doubles_of_read {known after : Keyed Template} {before all : List Template}
    {c e : Component} (remembers : Remembers known before) (start : before ++ c.templates <+: all)
    (made : c.WellMade) (earlier : ∀ s ∈ before, (s.firstIn all).HasDoubles) {d : Datum}
    (written : c.record = .ok d) (read : ofRecord known d = .ok (e, after)) :
    ∀ t ∈ before ++ c.templates, (t.firstIn all).HasDoubles := by
  obtain ⟨totalTime, -, same⟩ := bind_ok.mp written
  obtain rfl := Except.ok.inj same
  simp only [ofRecord, Datum.asRecord, Record.need, List.lookup, String.reduceBEq, ok_bind] at read
  have fields := within_ok read
  simp only [ofFields, Record.needText, Record.need, Record.text, Datum.asText, givenText_text,
    Record.items_eq, Record.value, Record.valueOr, List.lookup, String.reduceBEq, Option.getD_some,
    Datum.items_list, ok_bind] at fields
  obtain ⟨_, -, fields⟩ := bind_ok.mp fields
  obtain ⟨_, -, fields⟩ := bind_ok.mp fields
  obtain ⟨⟨operations, last⟩, reads, -⟩ := bind_ok.mp fields
  exact Operation.doubles_of_reads remembers start made.operations earlier reads

theorem Placement.doubles_of_read {known after : Keyed Template} {before all : List Template}
    {p q : Placement} (remembers : Remembers known before)
    (start : before ++ p.component.templates <+: all) (reachable : p.Reachable)
    (earlier : ∀ s ∈ before, (s.firstIn all).HasDoubles) {d : Datum} (written : p.record = .ok d)
    (read : ofRecord known d = .ok (q, after)) :
    (∀ t ∈ before ++ p.component.templates, (t.firstIn all).HasDoubles) ∧
      Remembers after (before ++ p.component.templates) := by
  obtain ⟨component, recorded, same⟩ := bind_ok.mp written
  obtain rfl := Except.ok.inj same
  have readOwn := read
  simp only [ofRecord, Datum.asRecord, Record.need, List.lookup, String.reduceBEq,
    ok_bind] at readOwn
  obtain ⟨⟨c, last⟩, readComponent, -⟩ := bind_ok.mp readOwn
  have doubles := Component.doubles_of_read remembers start reachable.component.wellMade earlier
    recorded readComponent
  obtain ⟨after', again, remembersAfter⟩ := ofRecord_record remembers start reachable
    (fun t member => doubles t (List.mem_append_right _ member)) written
  obtain ⟨-, rfl⟩ := Prod.mk.inj (Except.ok.inj (again.symm.trans read))
  exact ⟨doubles, remembersAfter⟩

namespace Product

theorem doubles_of_read {defaults : Defaults} {p q : Product} (reachable : p.Reachable defaults)
    {d : Datum} (written : p.record defaults = .ok d) (read : ofRecord defaults d = .ok q) :
    ∀ t ∈ p.templates, (t.firstIn p.templates).HasDoubles := by
  obtain ⟨totals, -, written⟩ := bind_ok.mp written
  obtain ⟨components, recorded, same⟩ := bind_ok.mp written
  obtain rfl := Except.ok.inj same
  simp only [ofRecord, isRecordVersion, recordVersion, Datum.asRecord, Record.need,
    Record.valueOr, List.lookup, String.reduceBEq, Option.getD_some, beq_self_eq_true, ↓reduceIte,
    ok_bind] at read
  have fields := within_ok read
  simp only [ofFields, Record.items_eq, Record.value, Record.valueOr, List.lookup,
    String.reduceBEq, Option.getD_some, Datum.items_list, ok_bind] at fields
  obtain ⟨⟨placements, after⟩, reads, -⟩ := bind_ok.mp fields
  exact readEach_doubles (R := fun entry d => entry.record = .ok d)
    (fun entry placed _ _ _ _ _ remembers start earlier written read =>
      Placement.doubles_of_read remembers start (reachable.parts.placements entry placed) earlier
        written read)
    remembers_nothing (List.prefix_refl p.templates) (by simp) (mapM_ok_iff.mp recorded) reads

theorem record_ok_iff {defaults : Defaults} {p : Product} (reachable : p.Reachable defaults) :
    (∃ d, p.record defaults = .ok d) ↔ ∃ totals, p.totals defaults = .ok totals := by
  constructor
  · rintro ⟨d, written⟩
    obtain ⟨totals, taken, -⟩ := bind_ok.mp written
    exact ⟨totals, taken⟩
  · rintro ⟨totals, taken⟩
    exact record_of_totals reachable taken

/-- What is written can be read if the templates that are read have doubles, and only then. -/
theorem ofRecord_ok_iff {defaults : Defaults} {p : Product} (reachable : p.Reachable defaults)
    (usable : defaults.Usable) (listed : p.Listed) {d : Datum}
    (written : p.record defaults = .ok d) :
    (∃ q, ofRecord defaults d = .ok q) ↔ ∀ t ∈ p.templates, (t.firstIn p.templates).HasDoubles := by
  constructor
  · rintro ⟨q, read⟩
    exact doubles_of_read reachable written read
  · intro doubles
    exact ⟨p.reread, ofRecord_reread reachable usable listed doubles written⟩

end Product
end Joinery
