import Joinery.Proofs.Duration.Equality
import Joinery.Proofs.Record.Product

/-!
Plain products read back. Where texts are texts, numbers are doubles and templates with one id are
equal, what is read differs from what was written in nothing but the first templates and the dates:
equal templates lead to the times that were there before.
-/
namespace Joinery

def Datum.IsText : Datum → Prop
  | .text _ | .null => True
  | _ => False

def Datum.IsScalar : Datum → Prop
  | .list _ | .object _ => False
  | .real x => x.isNaN = false
  | _ => True

structure Feature.Plain (f : Feature) : Prop where
  position : f.position.IsText

structure Parameter.Plain (p : Parameter) : Prop where
  value : p.value.IsScalar
  unit : p.unit.IsText
  description : p.description.IsText

structure Operation.Plain (p : Operation) : Prop where
  template : p.template.Plain
  parameters : ∀ q ∈ p.parameters, q.Plain
  equipment : p.equipment.IsText ∧ p.equipment ≠ .text ""

/-- The templates that a product or a part of it uses have doubles for numbers, and those with one
id are equal. -/
structure Template.Shared (all : List Template) : Prop where
  plain : ∀ t ∈ all, t.Plain
  equal : ∀ t ∈ all, ∀ u ∈ all, t.id = u.id → (t == u) = true

theorem Template.firstIn_beq {all : List Template} (shared : Shared all) {t : Template}
    (member : t ∈ all) : (t.firstIn all).Plain ∧ (t.firstIn all == t) = true := by
  unfold firstIn
  cases found : all.find? fun u => u.id == t.id with
  | none => exact absurd (List.find?_eq_none.mp found t member) (by simp)
  | some u =>
    have used : u ∈ all := List.mem_of_find?_eq_some found
    have named : u.id = t.id := by simpa using List.find?_some found
    exact ⟨shared.plain u used, shared.equal u used t member named⟩

theorem Variable.plain_of_make {name unit description : String} {kind : Datum}
    {fallback least most : Option Numeral} {v : Variable}
    (made : Variable.make name kind unit description fallback least most = .ok v)
    (real : ∀ bound ∈ [fallback, least, most], ∀ n ∈ bound, n.IsReal) : v.Plain := by
  obtain ⟨_, -, -, rfl⟩ := parts_of_make made
  exact ⟨real fallback (by simp), real least (by simp), real most (by simp)⟩

theorem Template.plain_of_make {draft : TemplateDraft} {t : Template}
    (made : Template.make draft = .ok t) (logic : ∀ l ∈ draft.logic, l.Plain)
    (efficiency : ∀ e ∈ draft.efficiency, e.Plain) : t.Plain := by
  obtain ⟨-, _, _, _, _, _, _, -, -, -, -, rfl⟩ := parts_of_make made
  exact ⟨logic, efficiency⟩

def Operation.readIn (all : List Template) (p : Operation) : Operation :=
  { p with template := (p.template.firstIn all).settle }

theorem Datum.hasText_of_isText {d : Datum} (text : d.IsText) : d.HasText := by
  cases d with
  | null => exact hasText_null
  | text s => exact hasText_text s
  | _ => exact text.elim

theorem Datum.part?_of_text {d : Datum} (plain : d.IsText ∧ d ≠ .text "") :
    d.part?.getD .null = d := by
  cases d with
  | null => rfl
  | text s =>
    have some : s ≠ "" := fun none => plain.2 (by rw [none])
    simp [part?, isGiven, some]
  | _ => exact plain.1.elim

theorem Operation.reread_of_plain {all : List Template} {p : Operation} (shared : Template.Shared all)
    (used : p.template ∈ all) (plain : p.Plain) :
    p.reread all = { p.readIn all with minutes := 0, diagnostic := none } := by
  obtain ⟨plainFirst, -⟩ := Template.firstIn_beq shared used
  rw [reread, plainFirst.readBack, Datum.part?_of_text plain.equipment]
  rfl

namespace Component

def readIn (all : List Template) (c : Component) : Component :=
  { c with operations := c.operations.map (Operation.readIn all) }

structure Plain (c : Component) : Prop where
  features : ∀ f ∈ c.features, f.Plain
  operations : ∀ p ∈ c.operations, p.Plain

/-- The times that are calculated for what is read are those that were there. -/
theorem timed_reread {c : Component} {all : List Template} (shared : Template.Shared all)
    (fresh : c.Fresh) (operations : List Operation) {p : Operation} (member : p ∈ c.operations)
    (used : p.template ∈ all) (plain : p.Plain) :
    Operation.timed { c with operations } (p.reread all) = p.readIn all := by
  obtain ⟨plainFirst, equal⟩ := Template.firstIn_beq shared used
  have again : Duration.compute (p.template.firstIn all).settle p.parameters c.subject =
      Duration.compute p.template p.parameters c.subject :=
    Duration.compute_of_beq plainFirst plain.template equal p.parameters c.subject
  obtain ⟨minutes, diagnostic⟩ := fresh p member
  rw [Operation.reread_of_plain shared used plain]
  simp only [Operation.timed, Operation.readIn, Component.subject_with_operations, again, ← minutes, ← diagnostic]

theorem reread_of_plain {c : Component} {all : List Template} (shared : Template.Shared all)
    (fresh : c.Fresh) (used : ∀ t ∈ c.templates, t ∈ all) (plain : c.Plain) :
    c.reread all = c.readIn all := by
  have each : (c.operations.map (Operation.reread all)).map
      (Operation.timed { c with operations := c.operations.map (Operation.reread all) }) =
      c.operations.map (Operation.readIn all) := by
    rw [List.map_map]
    apply List.map_congr_left
    intro p member
    exact timed_reread shared fresh _ member (used p.template (List.mem_map_of_mem member))
      (plain.operations p member)
  simp only [reread, refresh, each]
  rfl

end Component

namespace Placement

def readIn (all : List Template) (p : Placement) : Placement :=
  { p with component := p.component.readIn all }

structure Plain (p : Placement) : Prop where
  component : p.component.Plain
  position : p.position.IsText

end Placement

namespace Product

def readBack (p : Product) : Product :=
  { p with
    placements := p.placements.map (Placement.readIn p.templates)
    createdAt := p.createdAt.settle
    updatedAt := p.updatedAt.settle
    rates := none
    params := none }

/-- Texts are texts, and doubles are numbers. -/
structure Plain (p : Product) : Prop where
  placements : ∀ entry ∈ p.placements, entry.Plain
  rates : ∀ t ∈ p.rates, t.Usable
  params : ∀ t ∈ p.params, t.Usable

theorem plain_of_templates {p : Product} (plain : p.Plain) : ∀ t ∈ p.templates, t.Plain := by
  intro t member
  obtain ⟨entry, placed, used⟩ := List.mem_flatMap.mp member
  obtain ⟨q, mq, rfl⟩ := List.mem_map.mp used
  exact ((plain.placements entry placed).component.operations q mq).template

theorem listed_of_plain {p : Product} (plain : p.Plain) (short : p.Short) : p.Listed := by
  refine ⟨short, fun c placed q held => ?_⟩
  obtain ⟨entry, among, rfl⟩ := List.mem_map.mp placed
  exact Datum.hasText_of_isText ((plain.placements entry among).component.operations q held).equipment.1

theorem record_ok {defaults : Defaults} {p : Product} (reachable : p.Reachable defaults)
    (usable : defaults.Usable) (plain : p.Plain) (short : p.Short) :
    ∃ d, p.record defaults = .ok d := by
  obtain ⟨totals, taken⟩ :=
    totals_ok usable plain.rates plain.params (listed_of_plain plain short)
  exact record_of_totals reachable taken

theorem reread_of_plain {defaults : Defaults} {p : Product} (reachable : p.Reachable defaults)
    (plain : p.Plain) (shared : Template.Shared p.templates) : p.reread = p.readBack := by
  have placements : p.placements.map (Placement.reread p.templates) =
      p.placements.map (Placement.readIn p.templates) := by
    apply List.map_congr_left
    intro entry placed
    rw [Placement.reread, Placement.readIn, Component.reread_of_plain shared
      (reachable.parts.placements entry placed).component.fresh (templates_of_placement placed)
      (plain.placements entry placed).component]
  rw [reread, readBack, placements]

theorem ofRecord_record {defaults : Defaults} {p : Product} (reachable : p.Reachable defaults)
    (usable : defaults.Usable) (plain : p.Plain) (shared : Template.Shared p.templates)
    (short : p.Short) {d : Datum} (written : p.record defaults = .ok d) :
    ofRecord defaults d = .ok p.readBack := by
  have doubles : ∀ t ∈ p.templates, (t.firstIn p.templates).HasDoubles :=
    fun t member => (Template.firstIn_beq shared member).1.hasDoubles
  rw [← reread_of_plain reachable plain shared]
  exact ofRecord_reread reachable usable (listed_of_plain plain short) doubles written

end Product
end Joinery
