import Joinery.Proofs.Moment.Read
import Joinery.Proofs.Number.Equality
import Joinery.Proofs.Record.Equality
import Joinery.Proofs.Record.Reading

/-!
What a reader gives. Numbers are doubles, dates are settled, equipment is named or absent, and
templates come out of one library, where an id stands for one template. All of this is what a reader
finds again in what is written of it. A value without a part that is no number equals itself, and so does
every part of it.
-/
namespace Joinery.Datum

def WithoutNaN (whole : Datum) : Prop :=
  ∀ d, whole.Holds d → ∀ x, d.toFloat = .ok x → x.isNaN = false

theorem WithoutNaN.part {whole d : Datum} (numbers : whole.WithoutNaN) (held : whole.Holds d) :
    d.WithoutNaN := fun _ inner => numbers _ (held.trans inner)

mutual

theorem agrees_self : (d : Datum) → d.WithoutNaN → d.agrees d = true
  | null, _ => rfl
  | bool b, _ => by cases b <;> rfl
  | int n, _ => beq_self_eq_true n
  | real x, numbers => Number.beq_self (numbers _ .self x rfl)
  | text s, _ => beq_self_eq_true s
  | list items, numbers => itemsAgree_self items fun _ member => numbers.part (Holds.self.item member)
  | object fields, numbers =>
    fieldsAgree_self fields fun _ _ member => numbers.part (Holds.self.field member)

theorem itemsAgree_self : (items : List Datum) → (∀ d ∈ items, d.WithoutNaN) →
    itemsAgree items items = true
  | [], _ => rfl
  | d :: rest, numbers => by
    have first := agrees_self d (numbers d (by simp))
    have later := itemsAgree_self rest fun e member => numbers e (by simp [member])
    simp only [itemsAgree, first, later, Bool.and_self]

theorem fieldsAgree_self : (fields : Record) → (∀ name d, (name, d) ∈ fields → d.WithoutNaN) →
    fieldsAgree fields fields = true
  | [], _ => rfl
  | (name, d) :: rest, numbers => by
    have first := agrees_self d (numbers name d (by simp))
    have later := fieldsAgree_self rest fun other e member => numbers other e (by simp [member])
    simp only [fieldsAgree, first, later, beq_self_eq_true, Bool.and_self]

end

/-! The same as a check, which goes through the parts of a value. -/

def namesNumber (d : Datum) : Bool :=
  match d.toFloat with
  | .ok x => !x.isNaN
  | .error _ => true

mutual

def allNumbers : Datum → Bool
  | list items => itemsNumbers items
  | object fields => fieldsNumbers fields
  | d => d.namesNumber

def itemsNumbers : List Datum → Bool
  | [] => true
  | d :: rest => allNumbers d && itemsNumbers rest

def fieldsNumbers : Record → Bool
  | [] => true
  | (_, d) :: rest => allNumbers d && fieldsNumbers rest

end

theorem allNumbers_item {items : List Datum} (checked : itemsNumbers items = true) :
    ∀ d ∈ items, d.allNumbers = true := by
  induction items with
  | nil => simp
  | cons d rest ih =>
    simp only [itemsNumbers, Bool.and_eq_true] at checked
    simp only [List.forall_mem_cons]
    exact ⟨checked.1, ih checked.2⟩

theorem allNumbers_field {fields : Record} (checked : fieldsNumbers fields = true) :
    ∀ entry ∈ fields, entry.2.allNumbers = true := by
  induction fields with
  | nil => simp
  | cons entry rest ih =>
    simp only [fieldsNumbers, Bool.and_eq_true] at checked
    simp only [List.forall_mem_cons]
    exact ⟨checked.1, ih checked.2⟩

theorem withoutNaN_of_check {whole : Datum} (checked : whole.allNumbers = true) :
    whole.WithoutNaN := by
  intro d held
  have own : d.allNumbers = true := by
    induction held with
    | self => exact checked
    | item _ member ih => exact allNumbers_item ih _ member
    | field _ member ih => exact allNumbers_field ih _ member
  intro x read
  cases d with
  | list _ | object _ | null => cases read
  | bool _ | number _ | text _ => simpa [allNumbers, namesNumber, read] using own

theorem WithoutNaN.beq_self {whole d : Datum} (numbers : whole.WithoutNaN) (held : whole.Holds d) :
    (d == d) = true := agrees_self d (numbers.part held)

end Joinery.Datum

namespace Joinery
open Datum (WithoutNaN)

/-- Doubles for numbers, and dates as a reader takes them. -/
structure Template.Settled (t : Template) : Prop where
  made : t.Made
  plain : t.Plain
  dates : t.settle = t

structure Operation.Settled (p : Operation) : Prop where
  template : p.template.Settled
  equipment : p.equipment.part?.getD .null = p.equipment
  selfEqual : p.SelfEqual

structure Component.Settled (c : Component) : Prop where
  operations : ∀ p ∈ c.operations, p.Settled
  features : ∀ f ∈ c.features, (f.position == f.position) = true

structure Placement.Settled (p : Placement) : Prop where
  component : p.component.Settled
  position : (p.position == p.position) = true

theorem Placement.Settled.selfEqual {p : Placement} (settled : p.Settled) : p.SelfEqual where
  component := {
    features := settled.component.features
    operations q member := (settled.component.operations q member).selfEqual }
  position := settled.position

theorem Component.Settled.refresh {c : Component} (settled : c.Settled) : c.refresh.Settled where
  features := settled.features
  operations p member := by
    obtain ⟨q, mq, rfl⟩ := List.mem_map.mp member
    have before := settled.operations q mq
    exact ⟨before.template, before.equipment,
      ⟨before.selfEqual.parameters, before.selfEqual.equipment⟩⟩

/-! Fields of a record that is part of a value without a part that is no number. -/
section Fields
variable {whole : Datum} {r : Record}

theorem Record.held_of_need {kind key : String} {d : Datum} (held : whole.Holds (.object r))
    (needed : r.need kind key = .ok d) : whole.Holds d :=
  held.trans (holds_of_lookup (lookup_of_need needed))

theorem Record.value_beq_self (numbers : whole.WithoutNaN) (held : whole.Holds (.object r))
    (key : String) : (r.value key == r.value key) = true := by
  rcases r.value_cases key with none | part
  · rw [none]
    rfl
  · exact numbers.beq_self (held.trans part)

theorem Numeral.isReal_of_read (numbers : whole.WithoutNaN) {d : Datum} (held : whole.Holds d) {x : Float}
    (read : d.toFloat = .ok x) : (Numeral.real x).IsReal := numbers d held x read

theorem Record.amount?_isReal (numbers : whole.WithoutNaN) (held : whole.Holds (.object r))
    {key : String} {n : Option Numeral} (read : r.amount? key = .ok n) : ∀ k ∈ n, k.IsReal := by
  intro k own
  obtain rfl := Option.mem_def.mp own
  unfold amount? at read
  split at read
  · cases read
  · rename_i given
    obtain ⟨x, double, same⟩ := map_ok.mp read
    obtain rfl := Option.some.inj same
    rcases r.value_cases key with none | part
    · exact absurd none given
    · exact Numeral.isReal_of_read numbers (held.trans part) double

theorem Datum.held_of_read {α : Type} {read : Datum → Outcome α} {d : Datum} {a : α}
    (given : whole.Holds d ∨ ∃ s, d = .text s) (refuses : ∀ s, ∃ f, read (.text s) = .error f)
    (success : read d = .ok a) : whole.Holds d := by
  rcases given with held | ⟨s, rfl⟩
  · exact held
  · obtain ⟨f, refused⟩ := refuses s
    cases refused.symm.trans success

theorem Record.each_read {α : Type} {key : String} {ds : List Datum} {as : List α}
    {read : Datum → Outcome α} {holds : α → Prop} (held : whole.Holds (.object r))
    (listed : r.items key = .ok ds) (each : ∀ d a, whole.Holds d → read d = .ok a → holds a)
    (refuses : ∀ s, ∃ f, read (.text s) = .error f) (success : ds.mapM read = .ok as) :
    ∀ a ∈ as, holds a := by
  intro a member
  obtain ⟨d, item, first⟩ := mapM_result success a member
  have given := (holds_of_items listed item).imp_left held.trans
  exact each d a (Datum.held_of_read given refuses first) first

theorem Record.part_read {α : Type} {key : String} {read : Datum → Outcome α} {part : Option α}
    (held : whole.Holds (.object r)) (success : (r.part? key).mapM read = .ok part) :
    ∀ a ∈ part, ∃ d, whole.Holds d ∧ read d = .ok a := by
  intro a own
  obtain rfl := Option.mem_def.mp own
  cases found : r.part? key with
  | none =>
    rw [found] at success
    cases success
  | some d =>
    rw [found] at success
    obtain ⟨b, first, same⟩ := map_ok.mp success
    obtain rfl := Option.some.inj same
    exact ⟨d, held.trans (holds_of_part found), first⟩

theorem Record.part?_again (r : Record) (key : String) :
    ((r.part? key).getD .null).part?.getD .null = (r.part? key).getD .null := by
  unfold part?
  split
  · rename_i given
    rw [Option.getD_some, Datum.part?, if_pos given]
    rfl
  · rfl

end Fields

theorem Datum.moment_ok {field : String} {d : Datum} {m : Moment} (read : d.moment field = .ok m) :
    m.Valid ∧ m.settle = m := by
  obtain ⟨text, -, rest⟩ := bind_ok.mp read
  split at rest
  · rename_i found
    obtain rfl := Except.ok.inj rest
    exact Moment.read?_ok found
  · cases rest

/-! Reference data. -/
section Readers
variable {whole : Datum} (numbers : whole.WithoutNaN)
include numbers

theorem Variable.ofRecord_ok {d : Datum} {v : Variable} (held : whole.Holds d)
    (read : ofRecord d = .ok v) : v.Made ∧ v.Plain := by
  obtain ⟨r, record, rest⟩ := bind_ok.mp read
  obtain rfl := Datum.asRecord_ok record
  obtain ⟨name, -, rest⟩ := bind_ok.mp rest
  obtain ⟨unit, -, rest⟩ := bind_ok.mp rest
  obtain ⟨description, -, rest⟩ := bind_ok.mp rest
  obtain ⟨fallback, readFallback, rest⟩ := bind_ok.mp rest
  obtain ⟨least, readLeast, rest⟩ := bind_ok.mp rest
  obtain ⟨most, readMost, made⟩ := bind_ok.mp rest
  refine ⟨⟨_, _, _, _, _, _, _, made⟩, plain_of_make made ?_⟩
  simp only [List.forall_mem_cons]
  exact ⟨Record.amount?_isReal numbers held readFallback, Record.amount?_isReal numbers held readLeast,
    Record.amount?_isReal numbers held readMost, by simp⟩

theorem Logic.ofRecord_ok {d : Datum} {l : Logic} (held : whole.Holds d) (read : ofRecord d = .ok l) :
    l.Made ∧ l.Plain := by
  obtain ⟨r, record, rest⟩ := bind_ok.mp read
  obtain rfl := Datum.asRecord_ok record
  obtain ⟨_, -, rest⟩ := bind_ok.mp rest
  obtain ⟨_, -, rest⟩ := bind_ok.mp rest
  obtain ⟨_, -, rest⟩ := bind_ok.mp rest
  obtain ⟨items, listed, rest⟩ := bind_ok.mp rest
  obtain ⟨used, reads, rest⟩ := bind_ok.mp rest
  obtain ⟨_, -, same⟩ := bind_ok.mp rest
  obtain rfl := Except.ok.inj same
  have each : ∀ v ∈ used, v.Made ∧ v.Plain :=
    Record.each_read held listed (fun _ _ => Variable.ofRecord_ok numbers) (fun _ => ⟨_, rfl⟩) reads
  exact ⟨fun v member => (each v member).1, ⟨fun v member => (each v member).2⟩⟩

theorem Efficiency.ofRecord_ok {d : Datum} {e : Efficiency} (held : whole.Holds d)
    (read : ofRecord d = .ok e) : e.Plain := by
  obtain ⟨r, record, rest⟩ := bind_ok.mp read
  obtain rfl := Datum.asRecord_ok record
  obtain ⟨_, -, rest⟩ := bind_ok.mp rest
  obtain ⟨_, -, rest⟩ := bind_ok.mp rest
  obtain ⟨base, needBase, rest⟩ := bind_ok.mp rest
  obtain ⟨_, readBase, rest⟩ := bind_ok.mp rest
  obtain ⟨size, needSize, rest⟩ := bind_ok.mp rest
  obtain ⟨_, readSize, rest⟩ := bind_ok.mp rest
  obtain ⟨complexity, readComplexity, rest⟩ := bind_ok.mp rest
  obtain ⟨_, -, made⟩ := bind_ok.mp rest
  obtain ⟨_, -, same⟩ := bind_ok.mp made
  obtain rfl := Except.ok.inj same
  refine ⟨Numeral.isReal_of_read numbers (Record.held_of_need held needBase) readBase,
    Numeral.isReal_of_read numbers (Record.held_of_need held needSize) readSize, ?_⟩
  rcases r.valueOr_cases "complexityFactor" (.real 1) with default | found
  · rw [default] at readComplexity
    obtain rfl := Except.ok.inj readComplexity
    rfl
  · exact Numeral.isReal_of_read numbers (held.trans (Record.holds_of_lookup found)) readComplexity

theorem Template.ofNewRecord_ok {r : Record} {id : String} {t : Template}
    (held : whole.Holds (.object r)) (read : ofNewRecord id r = .ok t) : t.id = id ∧ t.Settled := by
  obtain ⟨draft, drawn, made⟩ := parts_of_new read
  obtain ⟨rfl, readLogic, readEfficiency, ⟨_, -, readCreated⟩, ⟨_, -, readUpdated⟩⟩ := drawn
  obtain ⟨validCreated, settledCreated⟩ := Datum.moment_ok readCreated
  obtain ⟨validUpdated, settledUpdated⟩ := Datum.moment_ok readUpdated
  have logics : ∀ l ∈ draft.logic, l.Made ∧ l.Plain := by
    intro l own
    obtain ⟨d, part, own⟩ := Record.part_read held readLogic l own
    exact Logic.ofRecord_ok numbers part own
  have efficiencies : ∀ e ∈ draft.efficiency, e.Plain := by
    intro e own
    obtain ⟨d, part, own⟩ := Record.part_read held readEfficiency e own
    exact Efficiency.ofRecord_ok numbers part own
  have parts : t.Made :=
    ⟨_, fun l own => (logics l own).1, validCreated, validUpdated, made⟩
  have plain : t.Plain := plain_of_make made (fun l own => (logics l own).2) efficiencies
  obtain ⟨-, _, _, _, _, _, _, -, -, -, -, rfl⟩ := parts_of_make made
  refine ⟨rfl, parts, plain, ?_⟩
  simp only [settle, settledCreated, settledUpdated]

end Readers
end Joinery
