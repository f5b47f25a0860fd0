import Joinery.Proofs.Record.Plain

/-!
When what is read equals what was written. Everything but the dates is read as it was, and so the
two are equal just if no date lost its distance from universal time.
-/
namespace Joinery

theorem map_beq_iff {α : Type} [BEq α] {f : α → α} {xs : List α} :
    (xs.map f == xs) = true ↔ ∀ x ∈ xs, (f x == x) = true := by
  induction xs with
  | nil => simp
  | cons x xs ih => simp [List.cons_beq_cons, ih]

theorem list_beq_self {α : Type} [BEq α] {xs : List α} (each : ∀ x ∈ xs, (x == x) = true) :
    (xs == xs) = true := by
  have same := (map_beq_iff (f := id)).mpr each
  rwa [List.map_id] at same

theorem option_beq_self {α : Type} [BEq α] {part : Option α} (each : ∀ a ∈ part, (a == a) = true) :
    (part == part) = true := by
  cases part with
  | none => rfl
  | some a => exact each a rfl

/-! Plain reference data equals itself. -/

theorem Numeral.IsReal.beq_self {n : Numeral} (real : n.IsReal) : (n == n) = true := by
  obtain ⟨x, rfl⟩ := real.double
  exact Number.beq_self real

theorem Variable.Plain.beq_self {v : Variable} (plain : v.Plain) : (v == v) = true := by
  have fields : (v == v) = (v.name == v.name && (v.kind == v.kind && (v.unit == v.unit &&
      (v.description == v.description && (v.fallback == v.fallback && (v.least == v.least &&
      v.most == v.most)))))) := rfl
  rw [fields, option_beq_self fun n own => (plain.fallback n own).beq_self,
    option_beq_self fun n own => (plain.least n own).beq_self,
    option_beq_self fun n own => (plain.most n own).beq_self]
  simp only [beq_self_eq_true, Bool.and_self]

theorem Logic.Plain.beq_self {l : Logic} (plain : l.Plain) : (l == l) = true := by
  have fields : (l == l) = (l.id == l.id && (l.name == l.name && (l.formula == l.formula &&
      (l.used == l.used && (l.description == l.description && l.isDefault == l.isDefault))))) := rfl
  rw [fields, list_beq_self fun v used => (plain.used v used).beq_self]
  simp only [beq_self_eq_true, Bool.and_self]

theorem Efficiency.Plain.beq_self {e : Efficiency} (plain : e.Plain) : (e == e) = true := by
  have fields : (e == e) = (e.id == e.id && (e.processName == e.processName &&
      (e.baseTime == e.baseTime && (e.sizeFactor == e.sizeFactor &&
      (e.complexityFactor == e.complexityFactor && (e.unit == e.unit &&
      e.description == e.description)))))) := rfl
  rw [fields, plain.baseTime.beq_self, plain.sizeFactor.beq_self, plain.complexityFactor.beq_self]
  simp only [beq_self_eq_true, Bool.and_self]

theorem Template.Plain.beq_self {t : Template} (plain : t.Plain) : (t == t) = true := by
  have dated (m : Moment) : (m == m) = true := Moment.beq_iff.mpr ⟨rfl, rfl⟩
  exact Template.beq_iff.mpr ⟨rfl, rfl, rfl, rfl,
    option_beq_self fun l own => (plain.logic l own).beq_self, rfl,
    option_beq_self fun e own => (plain.efficiency e own).beq_self, rfl, rfl, rfl, rfl, dated _,
    dated _⟩

theorem Datum.beq_self_of_text {d : Datum} (plain : d.IsText) : (d == d) = true := by
  cases d with
  | null => rfl
  | text s =>
    change (s == s) = true
    exact beq_self_eq_true s
  | _ => exact plain.elim

theorem Datum.beq_self_of_scalar {d : Datum} (plain : d.IsScalar) : (d == d) = true := by
  match d with
  | .null => rfl
  | .bool b => cases b <;> rfl
  | .text s => exact beq_self_of_text (d := .text s) trivial
  | .int n => exact beq_self_eq_true n
  | .real x => exact Number.beq_self plain
  | .list items => exact plain.elim
  | .object fields => exact plain.elim

/-! A loose value differs from itself if some part of it is no number. What holds no such value
equals itself. -/

structure Operation.SelfEqual (p : Operation) : Prop where
  parameters : ∀ q ∈ p.parameters, (q == q) = true
  equipment : (p.equipment == p.equipment) = true

structure Component.SelfEqual (c : Component) : Prop where
  features : ∀ f ∈ c.features, (f.position == f.position) = true
  operations : ∀ p ∈ c.operations, p.SelfEqual

structure Placement.SelfEqual (p : Placement) : Prop where
  component : p.component.SelfEqual
  position : (p.position == p.position) = true

theorem Parameter.beq_self {p : Parameter} (value : (p.value == p.value) = true)
    (unit : (p.unit == p.unit) = true) (description : (p.description == p.description) = true) :
    (p == p) = true := by
  have fields : (p == p) = (p.name == p.name && (p.value == p.value && (p.unit == p.unit &&
      p.description == p.description))) := rfl
  rw [fields]
  simp only [value, unit, description, beq_self_eq_true, Bool.and_self]

theorem Parameter.Plain.beq_self {p : Parameter} (plain : p.Plain) : (p == p) = true :=
  Parameter.beq_self (Datum.beq_self_of_scalar plain.value) (Datum.beq_self_of_text plain.unit)
    (Datum.beq_self_of_text plain.description)

theorem Placement.Plain.selfEqual {p : Placement} (plain : p.Plain) : p.SelfEqual where
  component := {
    features f member := Datum.beq_self_of_text (plain.component.features f member).position
    operations q member :=
      have parts := plain.component.operations q member
      ⟨fun r own => (parts.parameters r own).beq_self, Datum.beq_self_of_text parts.equipment.1⟩ }
  position := Datum.beq_self_of_text plain.position

theorem Feature.size_beq_self {d : Datum} {size : Option Float} {field : String}
    (read : Feature.readSize field d = .ok size) : (size == size) = true := by
  rcases readSize_ok read with rfl | ⟨x, rfl, measure⟩
  · rfl
  · exact Number.beq_self_of_finite (Datum.measure_of_nonNegative measure).1

theorem Feature.beq_self {f : Feature} (made : f.WellMade)
    (position : (f.position == f.position) = true) : (f == f) = true := by
  obtain ⟨_, readSize⟩ := made.size
  have fields : (f == f) = (f.id == f.id && (f.type == f.type && (f.count == f.count &&
      (f.size == f.size && (f.position == f.position && (f.name == f.name &&
      f.description == f.description)))))) := rfl
  rw [fields, size_beq_self readSize, position]
  simp only [beq_self_eq_true, Bool.and_self]

theorem Size.beq_self {s : Size} {length width thickness : Datum}
    (made : Size.make length width thickness = .ok s) : (s == s) = true := by
  obtain ⟨readLength, readWidth, readThickness⟩ := parts_of_make made
  have finite {x : Float} {d : Datum} {field : String} (read : d.nonNegative field = .ok x) :
      (x == x) = true := Number.beq_self_of_finite (Datum.measure_of_nonNegative read).1
  change (_ && (_ && _)) = true
  rw [finite readLength, finite readWidth, finite readThickness]
  rfl

theorem Operation.readIn_beq_iff {all : List Template} {c : Component} {p : Operation}
    (shared : Template.Shared all) (used : p.template ∈ all) (made : p.WellMade)
    (selfEqual : p.SelfEqual) (fresh : p.FreshIn c) :
    (p.readIn all == p) = true ↔ (p.template.firstIn all).Whole := by
  obtain ⟨-, equal⟩ := Template.firstIn_beq shared used
  obtain ⟨_, readTime⟩ := made.actualTime
  rw [readActualTime_eq] at readTime
  have minutes : (p.minutes == p.minutes) = true := by
    rw [fresh.1]
    exact Number.beq_self_of_finite
      (Duration.small_compute p.template p.parameters c).isFinite
  have parameters : (p.parameters == p.parameters) = true := list_beq_self selfEqual.parameters
  have fields : (p.readIn all == p) = (p.id == p.id &&
      ((p.template.firstIn all).settle == p.template && (p.minutes == p.minutes &&
      (p.actualTime == p.actualTime && (p.status == p.status && (p.notes == p.notes &&
      (p.parameters == p.parameters && (p.equipment == p.equipment &&
      p.diagnostic == p.diagnostic)))))))) := rfl
  rw [fields, minutes, Feature.size_beq_self readTime, parameters, selfEqual.equipment]
  simp only [beq_self_eq_true, Bool.and_self, Bool.and_true, Bool.true_and]
  exact Template.settle_beq_iff equal

theorem Component.readIn_beq_iff {all : List Template} {c : Component}
    (shared : Template.Shared all) (used : ∀ t ∈ c.templates, t ∈ all) (made : c.WellMade)
    (selfEqual : c.SelfEqual) (fresh : c.Fresh) :
    (c.readIn all == c) = true ↔ ∀ t ∈ c.templates, (t.firstIn all).Whole := by
  obtain ⟨_, _, _, sized⟩ := made.size
  have features : (c.features == c.features) = true :=
    list_beq_self fun f member =>
      Feature.beq_self (made.features f member) (selfEqual.features f member)
  have fields : (c.readIn all == c) = (c.id == c.id && (c.name == c.name && (c.size == c.size &&
      (c.material == c.material && (c.quantity == c.quantity && (c.complexity == c.complexity &&
      (c.features == c.features && (c.operations.map (Operation.readIn all) == c.operations &&
      (c.code == c.code && (c.edgeCount == c.edgeCount && c.notes == c.notes)))))))))) := rfl
  rw [fields, Size.beq_self sized, features]
  simp only [beq_self_eq_true, Bool.and_self, Bool.and_true, Bool.true_and]
  rw [map_beq_iff, templates, List.forall_mem_map]
  have each (p : Operation) (member : p ∈ c.operations) :
      (p.readIn all == p) = true ↔ (p.template.firstIn all).Whole :=
    Operation.readIn_beq_iff shared (used p.template (List.mem_map_of_mem member))
      (made.operations p member) (selfEqual.operations p member) (fresh p member)
  constructor
  · intro equal p member
    exact (each p member).mp (equal p member)
  · intro whole p member
    exact (each p member).mpr (whole p member)

theorem Placement.readIn_beq_iff {all : List Template} {p : Placement}
    (shared : Template.Shared all) (used : ∀ t ∈ p.component.templates, t ∈ all)
    (reachable : p.Reachable) (selfEqual : p.SelfEqual) :
    (p.readIn all == p) = true ↔ ∀ t ∈ p.component.templates, (t.firstIn all).Whole := by
  have fields : (p.readIn all == p) = (p.component.readIn all == p.component &&
      (p.quantity == p.quantity && (p.position == p.position && p.order == p.order))) := rfl
  rw [fields, selfEqual.position]
  simp only [beq_self_eq_true, Bool.and_self, Bool.and_true]
  exact Component.readIn_beq_iff shared used reachable.component.wellMade selfEqual.component
    reachable.component.fresh

theorem AssemblyStep.beq_self {s : AssemblyStep} (reachable : s.Reachable) : (s == s) = true := by
  obtain ⟨_, read⟩ := reachable.measured
  have time : (s.estimatedTime == s.estimatedTime) = true :=
    Number.beq_self_of_finite (Datum.measure_of_nonNegative read).1
  have fields : (s == s) = (s.id == s.id && (s.name == s.name && (s.description == s.description &&
      (s.componentIds == s.componentIds && (s.estimatedTime == s.estimatedTime &&
      (s.status == s.status && s.notes == s.notes)))))) := rfl
  rw [fields, time]
  simp only [beq_self_eq_true, Bool.and_self]

theorem Moment.settle_beq_self_iff {m : Moment} : (m.settle == m) = true ↔ m.Whole :=
  Moment.settle_beq_iff (Moment.beq_iff.mpr ⟨rfl, rfl⟩)

namespace Product

/-- The dates that a reader takes from a record: those of the product and, for every operation,
those of the first template with the id of its own. -/
def datesRead (p : Product) : List Moment :=
  [p.createdAt, p.updatedAt] ++ p.templates.flatMap fun t =>
    let first := t.firstIn p.templates
    [first.createdAt, first.updatedAt]

theorem whole_datesRead_iff {p : Product} : (∀ m ∈ p.datesRead, m.Whole) ↔
    p.createdAt.Whole ∧ p.updatedAt.Whole ∧
      ∀ t ∈ p.templates, (t.firstIn p.templates).Whole := by
  unfold datesRead
  constructor
  · intro whole
    have own (m : Moment) (member : m ∈ [p.createdAt, p.updatedAt]) : m.Whole :=
      whole m (List.mem_append_left _ member)
    refine ⟨own _ (by simp), own _ (by simp), ?_⟩
    intro t member
    have dates (m : Moment)
        (date : m ∈ [(t.firstIn p.templates).createdAt, (t.firstIn p.templates).updatedAt]) :
        m.Whole :=
      whole m (List.mem_append_right _ (List.mem_flatMap.mpr ⟨t, member, date⟩))
    exact ⟨dates _ (by simp), dates _ (by simp)⟩
  · rintro ⟨createdAt, updatedAt, templates⟩ m member
    rcases List.mem_append.mp member with own | used
    · simp only [List.mem_cons, List.not_mem_nil, or_false] at own
      rcases own with rfl | rfl
      · exact createdAt
      · exact updatedAt
    · obtain ⟨t, mt, date⟩ := List.mem_flatMap.mp used
      simp only [List.mem_cons, List.not_mem_nil, or_false] at date
      rcases date with rfl | rfl
      · exact (templates t mt).createdAt
      · exact (templates t mt).updatedAt

theorem readBack_beq_iff_of_parts {defaults : Defaults} {p : Product}
    (reachable : p.Reachable defaults) (selfEqual : ∀ entry ∈ p.placements, entry.SelfEqual)
    (shared : Template.Shared p.templates) :
    (p.readBack == p) = true ↔ ∀ m ∈ p.datesRead, m.Whole := by
  have steps : (p.steps == p.steps) = true :=
    list_beq_self fun s member => AssemblyStep.beq_self (reachable.parts.steps s member)
  have each (entry : Placement) (placed : entry ∈ p.placements) :
      (entry.readIn p.templates == entry) = true ↔
        ∀ t ∈ entry.component.templates, (t.firstIn p.templates).Whole :=
    Placement.readIn_beq_iff shared (templates_of_placement placed)
      (reachable.parts.placements entry placed) (selfEqual entry placed)
  have placements : (p.placements.map (Placement.readIn p.templates) == p.placements) = true ↔
      ∀ t ∈ p.templates, (t.firstIn p.templates).Whole := by
    rw [map_beq_iff]
    constructor
    · intro equal t member
      obtain ⟨entry, placed, used⟩ := List.mem_flatMap.mp member
      exact (each entry placed).mp (equal entry placed) t used
    · intro whole entry placed
      exact (each entry placed).mpr fun t used => whole t (templates_of_placement placed t used)
  have fields : (p.readBack == p) = (p.id == p.id && p.name == p.name && p.code == p.code &&
      p.description == p.description &&
      p.placements.map (Placement.readIn p.templates) == p.placements && p.steps == p.steps &&
      p.status == p.status && p.createdAt.settle == p.createdAt &&
      p.updatedAt.settle == p.updatedAt) := rfl
  rw [fields, steps, whole_datesRead_iff]
  simp only [beq_self_eq_true, Bool.and_true, Bool.true_and, Bool.and_eq_true, placements,
    Moment.settle_beq_self_iff]
  constructor
  · rintro ⟨⟨templates, createdAt⟩, updatedAt⟩
    exact ⟨createdAt, updatedAt, templates⟩
  · rintro ⟨createdAt, updatedAt, templates⟩
    exact ⟨⟨templates, createdAt⟩, updatedAt⟩

theorem readBack_beq_iff {defaults : Defaults} {p : Product} (reachable : p.Reachable defaults)
    (plain : p.Plain) (shared : Template.Shared p.templates) :
    (p.readBack == p) = true ↔ ∀ m ∈ p.datesRead, m.Whole :=
  readBack_beq_iff_of_parts reachable
    (fun entry placed => (plain.placements entry placed).selfEqual) shared

end Product
end Joinery
