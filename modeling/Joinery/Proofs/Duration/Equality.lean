import Joinery.Duration
import Joinery.Proofs.Catalog.Double

/-!
Templates that take equal time. A duration depends on the rule of a template and on nothing else of
it. It is rounded to hundredths, which do not tell one zero from the other, and so alike rules lead
to the same doubles.
-/
namespace Joinery

/-- Settings with alike numbers in one unit. -/
structure Efficiency.Alike (e f : Efficiency) : Prop where
  baseTime : e.baseTime.Alike f.baseTime
  sizeFactor : e.sizeFactor.Alike f.sizeFactor
  complexityFactor : e.complexityFactor.Alike f.complexityFactor
  unit : e.unit = f.unit

theorem Efficiency.alike_of_beq {e f : Efficiency} (plain : e.Plain) (other : f.Plain)
    (equal : (e == f) = true) : e.Alike f := by
  obtain ⟨base, size, complexity, unit⟩ := Efficiency.numbers_of_beq equal
  exact ⟨plain.baseTime.alike other.baseTime base, plain.sizeFactor.alike other.sizeFactor size,
    plain.complexityFactor.alike other.complexityFactor complexity, unit⟩

namespace Duration
open Number

/-- The same formula, the same name to guess from, or alike settings. -/
inductive Rule.Alike : Rule → Rule → Prop where
  | formula {l k : Logic} : l.formula = k.formula → Alike (.formula l) (.formula k)
  | heuristic (name : String) : Alike (.heuristic name) (.heuristic name)
  | efficiency {e f : Efficiency} : e.Alike f → Alike (.efficiency e) (.efficiency f)

theorem alike_toMinutes {x y : Float} (unit : TimeUnit) (alike : Number.Alike x y) :
    Number.Alike (toMinutes unit x) (toMinutes unit y) := by
  cases unit with
  | minute => exact alike
  | hour => exact alike.mul (.refl _)

theorem efficiencyMinutes_of_alike {e f : Efficiency} (alike : e.Alike f) (s : Subject) :
    efficiencyMinutes e s = efficiencyMinutes f s := by
  obtain ⟨a, b, readA, readB, bases⟩ := alike.baseTime
  obtain ⟨x, y, readX, readY, sizes⟩ := alike.sizeFactor
  obtain ⟨m, n, readM, readN, complexities⟩ := alike.complexityFactor
  have grown (factor : Float) : Number.Alike (s.size.squareMetres * x * m * factor)
      (s.size.squareMetres * y * n * factor) :=
    (((Number.Alike.refl _).mul sizes).mul complexities).mul (.refl _)
  simp only [efficiencyMinutes, readA, readB, readX, readY, readM, readN, alike.unit, ok_bind]
  refine bind_congr_ok fun factor _ => ?_
  exact congrArg Except.ok (alike_toMinutes f.unit (bases.add (grown factor))).roundHundredths

theorem Rule.Alike.compute_eq {r s : Rule} (alike : r.Alike s) (parameters : List Parameter)
    (on : Subject) : r.compute parameters on = s.compute parameters on := by
  cases alike with
  | formula same => simp only [Rule.compute, same]
  | heuristic name => rfl
  | efficiency same => simp only [Rule.compute, efficiencyMinutes_of_alike same on]

theorem compute_of_rules {t u : Template} (alike : (Rule.ofTemplate t).Alike (Rule.ofTemplate u))
    (parameters : List Parameter) (s : Subject) :
    compute t parameters s = compute u parameters s := by
  rw [compute, alike.compute_eq, compute]

/-! Equal templates have alike rules. -/

theorem both_of_beq {α : Type} [BEq α] {a b : Option α} (equal : (a == b) = true) :
    (a = none ∧ b = none) ∨ ∃ x y, a = some x ∧ b = some y ∧ (x == y) = true := by
  cases a with
  | none =>
    cases b with
    | none => exact Or.inl ⟨rfl, rfl⟩
    | some y => cases equal
  | some x =>
    cases b with
    | none => cases equal
    | some y => exact Or.inr ⟨x, y, rfl, rfl, equal⟩

theorem rules_of_beq {t u : Template} (plain : t.Plain) (other : u.Plain) (equal : (t == u) = true) :
    (Rule.ofTemplate t).Alike (Rule.ofTemplate u) := by
  obtain ⟨-, -, name, -, logics, strategy, efficiencies, -⟩ := Template.beq_iff.mp equal
  unfold Rule.ofTemplate
  rw [strategy, name]
  cases u.strategy with
  | formula =>
    rcases both_of_beq logics with ⟨none, none'⟩ | ⟨l, k, some, some', same⟩
    · rw [none, none']
      exact .heuristic _
    · rw [some, some']
      exact .formula (Logic.formula_of_beq same)
  | heuristic => exact .heuristic _
  | efficiency =>
    rcases both_of_beq efficiencies with ⟨none, none'⟩ | ⟨e, f, some, some', same⟩
    · rw [none, none']
      exact .heuristic _
    · rw [some, some']
      exact .efficiency (Efficiency.alike_of_beq (plain.efficiency e some)
        (other.efficiency f some') same)

theorem compute_of_beq {t u : Template} (plain : t.Plain) (other : u.Plain) (equal : (t == u) = true)
    (parameters : List Parameter) (s : Subject) :
    compute t parameters s = compute u parameters s :=
  compute_of_rules (rules_of_beq plain other equal) parameters s

/-- A template that is read back takes the time of the one that was written, also where a number has
no double: then both of them report the same fault. -/
theorem compute_readBack (t : Template) (parameters : List Parameter) (s : Subject) :
    compute t.readBack parameters s = compute t parameters s := by
  obtain ⟨id, code, name, category, logic, strategy, efficiency, equipment, materials, isActive,
    description, createdAt, updatedAt⟩ := t
  cases strategy with
  | formula => cases logic <;> rfl
  | heuristic => rfl
  | efficiency =>
    cases efficiency with
    | none => rfl
    | some e =>
      have minutes : efficiencyMinutes e.asDoubles s = efficiencyMinutes e s := by
        simp only [efficiencyMinutes, Efficiency.asDoubles, Numeral.asDouble_toFloat]
      change ofOutcome ((efficiencyMinutes e.asDoubles s).map clean) =
        ofOutcome ((efficiencyMinutes e s).map clean)
      rw [minutes]

end Duration
end Joinery
