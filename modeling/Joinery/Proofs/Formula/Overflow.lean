import Joinery.Proofs.Formula.Run
import Joinery.Proofs.Formula.Unbound
import Joinery.Proofs.Number.Overflow

/-!
Formulas with a value on whose way there a number was not finite. Once such a number is on the stack
it stays there in one form or another, until a quotient by an infinity makes a zero of it or a power
makes a zero or a one of it. Only then can the value of the formula be finite.
-/
namespace Joinery.Formula
open Number

/-- A step of a run, between the stack that it found and the one that it left. -/
structure Move where
  before : Stack
  step : Step
  after : Stack

def Stack.moves (env : Environment) : Stack → List Step → List Move
  | _, [] => []
  | stack, step :: rest =>
    match stack.perform env step with
    | .ok next => ⟨stack, step, next⟩ :: next.moves env rest
    | .error _ => []

def moves (formula : String) (env : Environment) : List Move :=
  Stack.moves env ⟨[], 0⟩ (polish (tokens formula))

/-- What a step pushes, a literal, the value of a name or a result, is finite. -/
def Move.PushesFinite (m : Move) : Prop := ∀ x ∈ m.after.values.head?, x.isFinite = true

/-- An operator that makes a plain number of operands that are not both finite. -/
inductive Operator.Absorbs : Operator → Float → Float → Float → Prop
  | quotient {a b x : Float} (finite : a.isFinite = true) (infinite : b.isInf = true)
      (zero : (x == 0) = true) : Absorbs .div a b x
  | power {a b x : Float} (unbounded : a.isFinite = false ∨ b.isFinite = false)
      (plain : (x == 0) = true ∨ (x == 1) = true) : Absorbs .pow a b x

def Move.Absorbs (m : Move) : Prop :=
  ∃ o a b x rest, m.step = .apply o ∧ m.before.values = b :: a :: rest ∧
    m.after.values = x :: rest ∧ o.Absorbs a b x

theorem Operator.finite_of_apply {o : Operator} {a b x : Float} (applied : o.apply a b = .ok x)
    (finite : x.isFinite = true) (divides : o.dividesByZero b = false) :
    (a.isFinite = true ∧ b.isFinite = true) ∨ o.Absorbs a b x := by
  cases o with
  | add =>
    obtain rfl := Except.ok.inj applied
    exact .inl (finite_of_add finite)
  | sub =>
    obtain rfl := Except.ok.inj applied
    exact .inl (finite_of_sub finite)
  | mul =>
    obtain rfl := Except.ok.inj applied
    exact .inl (finite_of_mul finite)
  | div =>
    have notZero : (b == 0) = false := divides
    simp only [apply, notZero, Bool.false_eq_true, ↓reduceIte] at applied
    obtain rfl := Except.ok.inj applied
    obtain ⟨left, right | ⟨infinite, zero⟩⟩ := finite_of_div finite
    · exact .inl ⟨left, right⟩
    · exact .inr (.quotient left infinite zero)
  | pow =>
    simp only [apply] at applied
    split at applied
    · rename_i y raised
      obtain rfl := Except.ok.inj applied
      by_cases both : a.isFinite = true ∧ b.isFinite = true
      · exact .inl both
      · rw [not_and_or, Bool.not_eq_true, Bool.not_eq_true] at both
        have unbounded : y = unboundedPower a b := by
          have either : (!a.isFinite || !b.isFinite) = true := by simpa using both
          simp only [Number.power, either, ↓reduceIte] at raised
          exact (Except.ok.inj raised).symm
        rw [unbounded] at finite ⊢
        exact .inr (.power both (unboundedPower_finite finite))
    · cases applied

/-! Runs. -/

theorem Stack.moves_cons {env : Environment} {stack next : Stack} {step : Step}
    (performed : stack.perform env step = .ok next) (rest : List Step) :
    stack.moves env (step :: rest) = ⟨stack, step, next⟩ :: next.moves env rest := by
  simp only [moves, performed]

theorem Stack.steps_of_moves {env : Environment} {stack last : Stack} {steps : List Step}
    (done : stack.run env steps = .ok last) : (stack.moves env steps).map Move.step = steps := by
  induction steps generalizing stack with
  | nil => rfl
  | cons step rest ih =>
    obtain ⟨next, performed, later⟩ := run_cons done
    rw [moves_cons performed, List.map_cons, ih later]

theorem Stack.zeroDivisions_of_run {env : Environment} {stack last : Stack} {steps : List Step}
    (done : stack.run env steps = .ok last) : stack.zeroDivisions ≤ last.zeroDivisions := by
  induction steps generalizing stack with
  | nil =>
    obtain rfl := Except.ok.inj done
    exact Nat.le_refl _
  | cons step rest ih =>
    obtain ⟨next, performed, later⟩ := run_cons done
    refine Nat.le_trans ?_ (ih later)
    cases Stack.performed performed with
    | push value => exact Nat.le_refl _
    | apply applied => exact Nat.le_add_right _ _

def Stack.Finite (stack : Stack) : Prop := ∀ x ∈ stack.values, x.isFinite = true

theorem Stack.finite_of_perform {env : Environment} {stack next : Stack} {step : Step}
    (performed : stack.perform env step = .ok next) (finite : next.Finite)
    (divisions : next.zeroDivisions = 0) (keeps : ¬ Move.Absorbs ⟨stack, step, next⟩) :
    stack.Finite := by
  cases Stack.performed performed with
  | push value => exact (List.forall_mem_cons.mp finite).2
  | @apply o a b x rest n applied =>
    obtain ⟨result, others⟩ := List.forall_mem_cons.mp finite
    have divides : o.dividesByZero b = false := by
      by_contra zero
      rw [Bool.not_eq_false] at zero
      simp [zero] at divisions
    rcases Operator.finite_of_apply applied result divides with ⟨left, right⟩ | absorbs
    · exact List.forall_mem_cons.mpr ⟨right, List.forall_mem_cons.mpr ⟨left, others⟩⟩
    · exact absurd ⟨o, a, b, x, rest, rfl, rfl, rfl, absorbs⟩ keeps

/-- Finiteness at the end of a run goes back to its start, step by step. -/
theorem Stack.finite_of_run {env : Environment} {stack last : Stack} {steps : List Step}
    (done : stack.run env steps = .ok last) (finite : last.Finite) (divisions : last.zeroDivisions = 0)
    (keeps : ∀ m ∈ stack.moves env steps, ¬ m.Absorbs) :
    stack.Finite ∧ ∀ m ∈ stack.moves env steps, m.PushesFinite := by
  induction steps generalizing stack with
  | nil =>
    obtain rfl := Except.ok.inj done
    exact ⟨finite, nofun⟩
  | cons step rest ih =>
    obtain ⟨next, performed, later⟩ := run_cons done
    rw [moves_cons performed] at keeps ⊢
    obtain ⟨first, others⟩ := List.forall_mem_cons.mp keeps
    obtain ⟨nextFinite, pushes⟩ := ih later others
    have none : next.zeroDivisions = 0 := by
      have := zeroDivisions_of_run later
      omega
    refine ⟨finite_of_perform performed nextFinite none first, List.forall_mem_cons.mpr ⟨?_, pushes⟩⟩
    exact fun x top => nextFinite x (List.mem_of_mem_head? top)

theorem Stack.keeps_of_pushes {env : Environment} {stack last : Stack} {steps : List Step}
    (done : stack.run env steps = .ok last) (finite : stack.Finite)
    (pushes : ∀ m ∈ stack.moves env steps, m.PushesFinite) :
    ∀ m ∈ stack.moves env steps, ¬ m.Absorbs := by
  induction steps generalizing stack with
  | nil => nofun
  | cons step rest ih =>
    obtain ⟨next, performed, later⟩ := run_cons done
    rw [moves_cons performed] at pushes ⊢
    obtain ⟨first, others⟩ := List.forall_mem_cons.mp pushes
    refine List.forall_mem_cons.mpr ⟨?_, ih later ?_ others⟩
    · rintro ⟨o, a, b, x, values, -, shape, -, absorbs⟩
      have right : b.isFinite = true := finite b (by simp_all)
      have left : a.isFinite = true := finite a (by simp_all)
      cases absorbs with
      | quotient _ infinite => exact absurd (infinite.symm.trans (not_isInf_of_finite right)) nofun
      | power unbounded => simp [left, right] at unbounded
    · cases Stack.performed performed with
      | push value =>
        exact List.forall_mem_cons.mpr ⟨first _ rfl, finite⟩
      | apply applied =>
        have others := (List.forall_mem_cons.mp (List.forall_mem_cons.mp finite).2).2
        exact List.forall_mem_cons.mpr ⟨first _ rfl, others⟩

/-- Where a formula has a value and no note, a number on the way was not finite if and only if a
quotient or a power has absorbed one. Without these two operators all numbers on the way are finite. -/
theorem hidden_overflow_is_absorbed {formula : String} {env : Environment} {e : Evaluation}
    (evaluated : evaluate formula env = .ok e) (ok : e.isOk = true) (plain : e.diagnostic = none) :
    (moves formula env).map Move.step = polish (tokens formula) ∧
    ((∀ m ∈ moves formula env, m.PushesFinite) ↔ ∀ m ∈ moves formula env, ¬ m.Absorbs) ∧
    ('/' ∉ formula.toList → '^' ∉ formula.toList → ∀ m ∈ moves formula env, m.PushesFinite) := by
  rw [Evaluation.value_of_plain ok plain] at evaluated
  obtain ⟨-, done, finite⟩ := run_of_value evaluated
  have steps : (moves formula env).map Move.step = polish (tokens formula) :=
    Stack.steps_of_moves done
  have last : Stack.Finite ⟨[e.amount], 0⟩ := by simpa [Stack.Finite] using finite
  have pushes (keeps : ∀ m ∈ moves formula env, ¬ m.Absorbs) :
      ∀ m ∈ moves formula env, m.PushesFinite := (Stack.finite_of_run done last rfl keeps).2
  refine ⟨steps, ⟨Stack.keeps_of_pushes done nofun, pushes⟩, fun noQuotient noPower => pushes ?_⟩
  rintro m member ⟨o, a, b, y, rest, step, -, -, absorbs⟩
  have used : .apply o ∈ polish (tokens formula) := by
    rw [← steps, ← step]
    exact List.mem_map_of_mem member
  have symbol := symbol_mem (apply_mem_polish.mp used)
  cases absorbs with
  | quotient => exact noQuotient symbol
  | power => exact noPower symbol

instance (m : Move) : Decidable m.PushesFinite := inferInstanceAs (Decidable (∀ x ∈ _, _))

def vast : Environment := fun name => if name = "x" then some (.real 1e200) else none

/-- The square of `x` is past every double, and yet the formula has a value, which is 0 instead of 1. -/
theorem square_is_absorbed :
    ∃ e, evaluate "x / (x * x / x)" vast = .ok e ∧ e.isOk = true ∧ e.diagnostic = none ∧
      (e.amount == 0) = true ∧ (¬ ∀ m ∈ moves "x / (x * x / x)" vast, m.PushesFinite) ∧
      ∃ m ∈ moves "x / (x * x / x)" vast, m.Absorbs := by
  have returns : (evaluate "x / (x * x / x)" vast).isOk = true := by decide +kernel
  have ok : ((evaluate "x / (x * x / x)" vast).value returns).isOk = true := by
    decide +revert +kernel
  have plain : ((evaluate "x / (x * x / x)" vast).value returns).diagnostic = none := by
    decide +revert +kernel
  have zero : (((evaluate "x / (x * x / x)" vast).value returns).amount == 0) = true := by
    decide +revert +kernel
  have overflows : ¬ ∀ m ∈ moves "x / (x * x / x)" vast, m.PushesFinite := by decide +kernel
  obtain ⟨-, absorbed, -⟩ := hidden_overflow_is_absorbed (Outcome.eq_value returns) ok plain
  have absorbs : ∃ m ∈ moves "x / (x * x / x)" vast, m.Absorbs := by
    simpa using mt absorbed.mpr overflows
  exact ⟨_, Outcome.eq_value returns, ok, plain, zero, overflows, absorbs⟩

end Joinery.Formula
