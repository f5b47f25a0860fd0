import Joinery.Catalog.Template
import Joinery.Proofs.Datum.Double
import Joinery.Proofs.Moment.Text
import Joinery.Proofs.Number.Equality

/-!
Equal templates, and reference data as a reader takes it. Templates are equal if they agree field by
field, where dates agree as instants and doubles as numbers. A reader gives doubles for all numbers, and
templates with settled dates.
-/
namespace Joinery

def Numeral.IsReal : Numeral → Prop
  | .real x => x.isNaN = false
  | .whole _ => False

structure Variable.Plain (v : Variable) : Prop where
  fallback : ∀ n ∈ v.fallback, n.IsReal
  least : ∀ n ∈ v.least, n.IsReal
  most : ∀ n ∈ v.most, n.IsReal

structure Logic.Plain (l : Logic) : Prop where
  used : ∀ v ∈ l.used, v.Plain

structure Efficiency.Plain (e : Efficiency) : Prop where
  baseTime : e.baseTime.IsReal
  sizeFactor : e.sizeFactor.IsReal
  complexityFactor : e.complexityFactor.IsReal

structure Template.Plain (t : Template) : Prop where
  logic : ∀ l ∈ t.logic, l.Plain
  efficiency : ∀ e ∈ t.efficiency, e.Plain

theorem Numeral.IsReal.double {n : Numeral} (real : n.IsReal) : ∃ x, n = .real x := by
  cases n with
  | real x => exact ⟨x, rfl⟩
  | whole z => exact real.elim

/-- The distance from universal time is none or a second at least. -/
def Moment.Whole (m : Moment) : Prop := ∀ ahead ∈ m.ahead, ahead = 0 ∨ 1000000 ≤ ahead.natAbs

theorem Moment.beq_iff {m n : Moment} : (m == n) = true ↔
    m.ahead.isSome = n.ahead.isSome ∧
      m.shownMicros - m.ahead.getD 0 = n.shownMicros - n.ahead.getD 0 := by
  change m.agrees n = true ↔ _
  simp only [Moment.agrees, Bool.and_eq_true, beq_iff_eq]

/-- Of two equal dates the one that is written and read is still equal to the other, unless its
distance from universal time got lost. -/
theorem Moment.settle_beq_iff {m n : Moment} (equal : (m == n) = true) :
    (m.settle == n) = true ↔ m.Whole := by
  obtain ⟨known, instant⟩ := beq_iff.mp equal
  have shown : m.settle.shownMicros = m.shownMicros := rfl
  have kept : m.settle.ahead.isSome = n.ahead.isSome := by
    rw [← known]
    exact Option.isSome_map
  rw [beq_iff, shown, and_iff_right kept, ← instant]
  unfold Moment.settle Moment.Whole
  cases m.ahead with
  | none => simp
  | some ahead =>
    simp only [Option.map_some, Option.getD_some, settleAhead, Option.mem_some_iff]
    constructor
    · intro same a own
      split at same <;> omega
    · intro whole
      have := whole ahead rfl
      split <;> omega

namespace Template

def settle (t : Template) : Template :=
  { t with createdAt := t.createdAt.settle, updatedAt := t.updatedAt.settle }

theorem beq_iff {t u : Template} : (t == u) = true ↔
    t.id = u.id ∧ t.code = u.code ∧ t.name = u.name ∧ t.category = u.category ∧
      (t.logic == u.logic) = true ∧ t.strategy = u.strategy ∧
      (t.efficiency == u.efficiency) = true ∧ t.equipment = u.equipment ∧
      t.materials = u.materials ∧ t.isActive = u.isActive ∧ t.description = u.description ∧
      (t.createdAt == u.createdAt) = true ∧ (t.updatedAt == u.updatedAt) = true := by
  have fields : (t == u) = (t.id == u.id && (t.code == u.code && (t.name == u.name &&
      (t.category == u.category && (t.logic == u.logic && (t.strategy == u.strategy &&
      (t.efficiency == u.efficiency && (t.equipment == u.equipment && (t.materials == u.materials &&
      (t.isActive == u.isActive && (t.description == u.description &&
      (t.createdAt == u.createdAt && t.updatedAt == u.updatedAt)))))))))))) := rfl
  rw [fields]
  simp only [Bool.and_eq_true, beq_iff_eq]

structure Whole (t : Template) : Prop where
  createdAt : t.createdAt.Whole
  updatedAt : t.updatedAt.Whole

theorem settle_beq_iff {t u : Template} (equal : (t == u) = true) :
    (t.settle == u) = true ↔ t.Whole := by
  obtain ⟨id, code, name, category, logic, strategy, efficiency, equipment, materials, isActive,
    description, createdAt, updatedAt⟩ := beq_iff.mp equal
  constructor
  · intro settled
    obtain ⟨-, -, -, -, -, -, -, -, -, -, -, created, updated⟩ := beq_iff.mp settled
    exact ⟨(Moment.settle_beq_iff createdAt).mp created,
      (Moment.settle_beq_iff updatedAt).mp updated⟩
  · intro whole
    have created := (Moment.settle_beq_iff createdAt).mpr whole.createdAt
    have updated := (Moment.settle_beq_iff updatedAt).mpr whole.updatedAt
    exact beq_iff.mpr ⟨id, code, name, category, logic, strategy, efficiency, equipment, materials,
      isActive, description, created, updated⟩

end Template

theorem Logic.formula_of_beq {l k : Logic} (equal : (l == k) = true) : l.formula = k.formula := by
  have fields : (l == k) = (l.id == k.id && (l.name == k.name && (l.formula == k.formula &&
      (l.used == k.used && (l.description == k.description && l.isDefault == k.isDefault))))) := rfl
  rw [fields] at equal
  simp only [Bool.and_eq_true, beq_iff_eq] at equal
  exact equal.2.2.1

theorem Efficiency.numbers_of_beq {e f : Efficiency} (equal : (e == f) = true) :
    (e.baseTime == f.baseTime) = true ∧ (e.sizeFactor == f.sizeFactor) = true ∧
      (e.complexityFactor == f.complexityFactor) = true ∧ e.unit = f.unit := by
  have fields : (e == f) = (e.id == f.id && (e.processName == f.processName &&
      (e.baseTime == f.baseTime && (e.sizeFactor == f.sizeFactor &&
      (e.complexityFactor == f.complexityFactor && (e.unit == f.unit &&
      e.description == f.description)))))) := rfl
  rw [fields] at equal
  simp only [Bool.and_eq_true, beq_iff_eq] at equal
  obtain ⟨-, -, base, size, complexity, unit, -⟩ := equal
  exact ⟨base, size, complexity, unit⟩

/-- Numbers that calculations cannot tell apart. -/
def Numeral.Alike (n k : Numeral) : Prop :=
  ∃ x y, n.toFloat = .ok x ∧ k.toFloat = .ok y ∧ Number.Alike x y

theorem Numeral.IsReal.alike {n k : Numeral} (real : n.IsReal) (other : k.IsReal)
    (equal : (n == k) = true) : n.Alike k := by
  obtain ⟨x, rfl⟩ := real.double
  obtain ⟨y, rfl⟩ := other.double
  exact ⟨x, y, rfl, rfl, Number.alike_of_beq equal⟩

structure Variable.HasDoubles (v : Variable) : Prop where
  fallback : ∀ n ∈ v.fallback, n.HasDouble
  least : ∀ n ∈ v.least, n.HasDouble
  most : ∀ n ∈ v.most, n.HasDouble

structure Logic.HasDoubles (l : Logic) : Prop where
  used : ∀ v ∈ l.used, v.HasDoubles

structure Efficiency.HasDoubles (e : Efficiency) : Prop where
  baseTime : e.baseTime.HasDouble
  sizeFactor : e.sizeFactor.HasDouble
  complexityFactor : e.complexityFactor.HasDouble

structure Template.HasDoubles (t : Template) : Prop where
  logic : ∀ l ∈ t.logic, l.HasDoubles
  efficiency : ∀ e ∈ t.efficiency, e.HasDoubles

def Variable.asDoubles (v : Variable) : Variable :=
  { v with
    fallback := v.fallback.map Numeral.asDouble
    least := v.least.map Numeral.asDouble
    most := v.most.map Numeral.asDouble }

def Logic.asDoubles (l : Logic) : Logic := { l with used := l.used.map Variable.asDoubles }

def Efficiency.asDoubles (e : Efficiency) : Efficiency :=
  { e with
    baseTime := e.baseTime.asDouble
    sizeFactor := e.sizeFactor.asDouble
    complexityFactor := e.complexityFactor.asDouble }

def Template.asDoubles (t : Template) : Template :=
  { t with
    logic := t.logic.map Logic.asDoubles
    efficiency := t.efficiency.map Efficiency.asDoubles }

def Template.readBack (t : Template) : Template := t.asDoubles.settle

theorem Variable.ordered?_asDouble {name : String} {least most : Option Numeral}
    (hasLeast : ∀ n ∈ least, n.HasDouble) (hasMost : ∀ n ∈ most, n.HasDouble)
    (ordered : ordered? name least most = .ok ()) :
    ordered? name (least.map Numeral.asDouble) (most.map Numeral.asDouble) = .ok () := by
  match least, most with
  | none, _ => rfl
  | some _, none => rfl
  | some n, some k =>
    simp only [ordered?] at ordered
    split at ordered
    · cases ordered
    · rename_i inOrder
      have kept := Numeral.below_asDouble (hasMost k rfl) (hasLeast n rfl) (by simpa using inOrder)
      simp only [Option.map_some, ordered?, kept]
      rfl

/-! What consists of doubles already is read as it is. -/

theorem Numeral.IsReal.hasDouble {n : Numeral} (real : n.IsReal) : n.HasDouble := by
  obtain ⟨x, rfl⟩ := real.double
  exact ⟨x, rfl⟩

theorem Numeral.IsReal.asDouble {n : Numeral} (real : n.IsReal) : n.asDouble = n := by
  obtain ⟨x, rfl⟩ := real.double
  rfl

theorem map_eq_self {α : Type} {f : α → α} {part : Option α} (each : ∀ a ∈ part, f a = a) :
    part.map f = part := by
  cases part with
  | none => rfl
  | some a => exact congrArg some (each a rfl)

namespace Variable.Plain
variable {v : Variable} (plain : v.Plain)
include plain

theorem hasDoubles : v.HasDoubles where
  fallback n own := (plain.fallback n own).hasDouble
  least n own := (plain.least n own).hasDouble
  most n own := (plain.most n own).hasDouble

theorem asDoubles : v.asDoubles = v := by
  unfold Variable.asDoubles
  rw [map_eq_self fun n own => (plain.fallback n own).asDouble,
    map_eq_self fun n own => (plain.least n own).asDouble,
    map_eq_self fun n own => (plain.most n own).asDouble]

end Variable.Plain

namespace Template.Plain
variable {t : Template} (plain : t.Plain)
include plain

theorem hasDoubles : t.HasDoubles where
  logic l own := ⟨fun v used => ((plain.logic l own).used v used).hasDoubles⟩
  efficiency e own :=
    have numbers := plain.efficiency e own
    ⟨numbers.baseTime.hasDouble, numbers.sizeFactor.hasDouble, numbers.complexityFactor.hasDouble⟩

theorem readBack : t.readBack = t.settle := by
  have logic : t.logic.map Logic.asDoubles = t.logic := by
    apply map_eq_self
    intro l own
    have used : l.used.map Variable.asDoubles = l.used := by
      rw [List.map_congr_left fun v member => ((plain.logic l own).used v member).asDoubles,
        List.map_id']
    rw [Logic.asDoubles, used]
  have efficiency : t.efficiency.map Efficiency.asDoubles = t.efficiency := by
    apply map_eq_self
    intro e own
    have numbers := plain.efficiency e own
    rw [Efficiency.asDoubles, numbers.baseTime.asDouble, numbers.sizeFactor.asDouble,
      numbers.complexityFactor.asDouble]
  rw [Template.readBack, asDoubles, logic, efficiency]

end Template.Plain
end Joinery
