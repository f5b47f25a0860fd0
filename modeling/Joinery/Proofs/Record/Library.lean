import Joinery.Proofs.Record.Reading
import Joinery.Proofs.Record.Settled

/-!
The library of templates that a reader builds up. A template that was read stays the one of its id
for the rest of the record, and so all operations of a product with one template id share one
template.
-/
namespace Joinery
open Datum (WithoutNaN)

namespace Template

def Library (known : Keyed Template) : Prop :=
  ∀ id t, known.get? id = some t → t.id = id ∧ t.Settled

theorem library_nil : Library [] := by
  intro id t found
  cases found

structure Added (known after : Keyed Template) (used : List Template) : Prop where
  library : Library after
  kept : ∀ id t, known.get? id = some t → after.get? id = some t
  used : ∀ t ∈ used, after.get? t.id = some t

namespace Added
variable {known next after : Keyed Template} {used more : List Template}

theorem nothing (library : Library known) : Added known known [] :=
  ⟨library, fun _ _ found => found, by simp⟩

theorem trans (first : Added known next used) (later : Added next after more) :
    Added known after (used ++ more) where
  library := later.library
  kept id t found := later.kept id t (first.kept id t found)
  used t member := by
    rcases List.mem_append.mp member with old | new
    · exact later.kept t.id t (first.used t old)
    · exact later.used t new

theorem settled (added : Added known after used) {t : Template} (member : t ∈ used) : t.Settled :=
  (added.library t.id t (added.used t member)).2

/-- Every template that was used is the first one of its id. -/
theorem firstIn_eq (added : Added known after used) {t : Template} (member : t ∈ used) :
    t.firstIn used = t := by
  unfold firstIn
  cases found : used.find? fun u => u.id == t.id with
  | none => rfl
  | some u =>
    have same : u.id = t.id := by simpa using List.find?_some found
    have own := added.used u (List.mem_of_find?_eq_some found)
    rw [same, added.used t member] at own
    exact (Option.some.inj own).symm

end Added
end Template

theorem readEach_added {α : Type} {read : Keyed Template → Datum → Outcome (α × Keyed Template)}
    {good : α → Prop} {templates : α → List Template} {whole : Datum} {known after : Keyed Template}
    {ds : List Datum} {as : List α}
    (each : ∀ {known after : Keyed Template} {d : Datum} {a : α}, Template.Library known →
      whole.Holds d → read known d = .ok (a, after) → good a ∧ Template.Added known after (templates a))
    (refuses : ∀ known s, ∃ f, read known (.text s) = .error f) (library : Template.Library known)
    (held : ∀ d ∈ ds, whole.Holds d ∨ ∃ s, d = .text s)
    (success : readEach read known ds = .ok (as, after)) :
    (∀ a ∈ as, good a) ∧ Template.Added known after (as.flatMap templates) := by
  induction ds generalizing known as with
  | nil =>
    obtain ⟨rfl, rfl⟩ := readEach_nil success
    exact ⟨by simp, .nothing library⟩
  | cons d ds ih =>
    obtain ⟨a, next, others, first, later, rfl⟩ := readEach_cons success
    have part := Datum.held_of_read (held d List.mem_cons_self) (refuses known) first
    obtain ⟨own, added⟩ := each library part first
    obtain ⟨rest, addedLater⟩ := ih added.library (fun e member => held e (by simp [member])) later
    exact ⟨List.forall_mem_cons.mpr ⟨own, rest⟩, added.trans addedLater⟩

section Readers
variable {whole : Datum} (numbers : whole.WithoutNaN)
include numbers

theorem Template.ofRecord_added {known after : Keyed Template} {d : Datum} {t : Template}
    (library : Library known) (held : whole.Holds d) (read : ofRecord known d = .ok (t, after)) :
    Added known after [t] := by
  obtain ⟨r, name, rfl, -, ⟨found, rfl⟩ | ⟨unknown, new, rfl⟩⟩ := parts_of_read read
  · obtain ⟨own, -⟩ := library _ _ found
    refine ⟨library, fun _ _ same => same, fun v member => ?_⟩
    rw [List.mem_singleton.mp member, own]
    exact found
  · obtain ⟨own, settled⟩ := ofNewRecord_ok numbers held new
    refine ⟨?_, ?_, ?_⟩
    · intro id v found
      rw [Keyed.get?_set] at found
      split at found
      · rename_i same
        obtain rfl := Option.some.inj found
        exact ⟨own.trans same.symm, settled⟩
      · exact library id v found
    · intro id v found
      rw [Keyed.get?_set, if_neg, found]
      rintro rfl
      rw [unknown] at found
      cases found
    · intro v member
      rw [List.mem_singleton.mp member, Keyed.get?_set, if_pos own]

theorem Parameter.ofRecord_beq_self {d : Datum} {p : Parameter} (held : whole.Holds d)
    (read : ofRecord d = .ok p) : (p == p) = true := by
  obtain ⟨r, record, rest⟩ := bind_ok.mp read
  obtain rfl := Datum.asRecord_ok record
  obtain ⟨_, -, rest⟩ := bind_ok.mp rest
  obtain ⟨value, needed, same⟩ := bind_ok.mp rest
  obtain rfl := Except.ok.inj same
  exact beq_self (numbers.beq_self (Record.held_of_need held needed))
    (Record.value_beq_self numbers held "unit") (Record.value_beq_self numbers held "description")

theorem Feature.ofRecord_ok {d : Datum} {f : Feature} (held : whole.Holds d)
    (read : ofRecord d = .ok f) : f.Reachable ∧ (f.position == f.position) = true := by
  obtain ⟨r, _, _, _, _, rfl, made⟩ := parts_of_read read
  refine ⟨.made made, ?_⟩
  obtain ⟨_, _, _, -, -, -, rfl⟩ := parts_of_make made
  exact Record.value_beq_self numbers held "position"

theorem Operation.ofRecord_ok {known after : Keyed Template} {d : Datum} {p : Operation}
    (library : Template.Library known) (held : whole.Holds d)
    (read : ofRecord known d = .ok (p, after)) :
    (p.Reachable ∧ p.Settled) ∧ Template.Added known after [p.template] := by
  obtain ⟨r, _, _, inner, t, items, parameters, rfl, needed, readTemplate, listed, reads, made⟩ :=
    parts_of_read read
  have added := Template.ofRecord_added numbers library (Record.held_of_need held needed) readTemplate
  have settled : t.Settled := added.settled (by simp)
  have each : ∀ q ∈ parameters, (q == q) = true :=
    Record.each_read held listed (fun _ _ => Parameter.ofRecord_beq_self numbers)
      (fun _ => ⟨_, rfl⟩) reads
  have equipment : ((r.part? "equipment").getD .null == (r.part? "equipment").getD .null) = true := by
    cases found : r.part? "equipment" with
    | none => rfl
    | some e => exact numbers.beq_self (held.trans (Record.holds_of_part found))
  have reachable : p.Reachable := .made settled.made made
  obtain ⟨_, _, -, -, rfl⟩ := parts_of_make made
  exact ⟨⟨reachable, settled, r.part?_again "equipment", each, equipment⟩, added⟩

theorem Component.ofRecord_ok {known after : Keyed Template} {d : Datum} {c : Component}
    (library : Template.Library known) (held : whole.Holds d)
    (read : ofRecord known d = .ok (c, after)) :
    c.Reachable ∧ c.Settled ∧ Template.Added known after c.templates := by
  obtain ⟨r, draft, rfl, drawn, made⟩ := parts_of_read read
  obtain ⟨-, ⟨_, -, readSize⟩, ⟨ds, listedFeatures, readFeatures⟩, es, listed, readOperations⟩ := drawn
  have eachFeature : ∀ f ∈ draft.features, f.Reachable ∧ (f.position == f.position) = true :=
    Record.each_read held listedFeatures (fun _ _ => Feature.ofRecord_ok numbers) (fun _ => ⟨_, rfl⟩)
      readFeatures
  obtain ⟨each, added⟩ := readEach_added (Operation.ofRecord_ok numbers) (fun _ _ => ⟨_, rfl⟩) library
    (fun d member => (Record.holds_of_items listed member).imp_left held.trans) readOperations
  have reachable : c.Reachable := ⟨draft, c, ⟨Size.parts_of_read readSize,
    fun f member => (eachFeature f member).1, fun p member => (each p member).1⟩, made, .start⟩
  obtain ⟨_, _, _, -, -, -, rfl⟩ := parts_of_make made
  refine ⟨reachable, Settled.refresh
    ⟨fun p member => (each p member).2, fun f member => (eachFeature f member).2⟩, ?_⟩
  rwa [templates, refresh, List.map_map, List.map_eq_flatMap]

theorem Placement.ofRecord_ok {known after : Keyed Template} {d : Datum} {p : Placement}
    (library : Template.Library known) (held : whole.Holds d)
    (read : ofRecord known d = .ok (p, after)) :
    (p.Reachable ∧ p.Settled) ∧ Template.Added known after p.component.templates := by
  obtain ⟨r, inner, c, rfl, needed, readComponent, made⟩ := parts_of_read read
  obtain ⟨reachable, settled, added⟩ :=
    Component.ofRecord_ok numbers library (Record.held_of_need held needed) readComponent
  have whole := reachable_of_make reachable made
  obtain ⟨_, _, -, -, rfl⟩ := parts_of_make made
  exact ⟨⟨whole, settled, Record.value_beq_self numbers held "position"⟩, added⟩

end Readers
end Joinery
