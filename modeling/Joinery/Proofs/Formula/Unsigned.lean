import Joinery.Proofs.Formula.Literal
import Joinery.Proofs.Formula.Unbound
import Joinery.Proofs.Number.Unsigned

/-!
Formulas without a minus. Their operators keep what is not below zero where it is, and so a formula
over such values has none below zero either, whether or not it is well formed. A value on the way may
be no number at all, which is why the invariant of the stack is that nothing on it is below zero, and
not that all of it is at least zero.
-/
namespace Joinery.Formula
open Number Text

/-! One step, and a run of them. -/

def Environment.Unsigned (env : Environment) : Prop :=
  ∀ name d x, env name = some d → d.toFloat = .ok x → ¬ x < 0

theorem boundValue_ok {name : String} {d : Datum} {x : Float} (bound : boundValue name d = .ok x) :
    d.toFloat = .ok x := by
  unfold boundValue at bound
  split at bound
  · rename_i y read
    split at bound
    · obtain rfl := Except.ok.inj bound
      exact read
    · cases bound
  · cases bound
  · cases bound

theorem operandValue_not_lt {env : Environment} (unsigned : env.Unsigned) {text : String} {x : Float}
    (chars : ∀ c ∈ text.toList, isOperandChar c) (value : operandValue env text = .ok x) :
    ¬ x < 0 := by
  unfold operandValue at value
  split at value
  · rename_i literal
    obtain ⟨d, read⟩ := readFloat?_decimal chars literal
    rw [read] at value
    obtain rfl := Except.ok.inj value
    exact decimal_not_lt d
  · split at value
    · split at value
      · cases value
      · rename_i d bound
        exact unsigned text d x bound (boundValue_ok value)
    · cases value

theorem Operator.apply_not_lt {o : Operator} (plain : o ≠ .sub) {a b x : Float} (left : ¬ a < 0)
    (right : ¬ b < 0) (applied : o.apply a b = .ok x) : ¬ x < 0 := by
  cases o with
  | sub => exact absurd rfl plain
  | add =>
    obtain rfl := Except.ok.inj applied
    exact add_not_lt left right
  | mul =>
    obtain rfl := Except.ok.inj applied
    exact mul_not_lt left right
  | div =>
    obtain rfl := Except.ok.inj applied
    split
    · exact zero_not_lt
    · rename_i divisor
      exact div_not_lt left right (Bool.eq_false_iff.mpr divisor)
  | pow =>
    simp only [Operator.apply] at applied
    split at applied
    · rename_i y raised
      obtain rfl := Except.ok.inj applied
      exact power_not_lt left right raised
    · cases applied

def Stack.Unsigned (stack : Stack) : Prop := ∀ x ∈ stack.values, ¬ x < 0

/-- A step that leaves the sign alone: no subtraction, and no operand that a formula cannot hold. -/
def Step.Plain : Step → Prop
  | .push text => ∀ c ∈ text.toList, isOperandChar c
  | .apply o => o ≠ .sub

theorem Step.plain_of_polish {formula : String} (minus : '-' ∉ formula.toList) {step : Step}
    (member : step ∈ polish (tokens formula)) : step.Plain := by
  cases step with
  | push text => exact operand_chars (push_mem_polish.mp member)
  | apply o =>
    rintro rfl
    exact minus (symbol_mem (apply_mem_polish.mp member))

theorem Stack.perform_unsigned {env : Environment} (values : env.Unsigned) {stack next : Stack}
    {step : Step} (unsigned : stack.Unsigned) (plain : step.Plain)
    (performed : stack.perform env step = .ok next) : next.Unsigned := by
  cases Stack.performed performed with
  | push value =>
    exact List.forall_mem_cons.mpr ⟨operandValue_not_lt values plain value, unsigned⟩
  | apply applied =>
    obtain ⟨right, others⟩ := List.forall_mem_cons.mp unsigned
    obtain ⟨left, kept⟩ := List.forall_mem_cons.mp others
    exact List.forall_mem_cons.mpr ⟨Operator.apply_not_lt plain left right applied, kept⟩

theorem Stack.run_unsigned {env : Environment} (values : env.Unsigned) {stack last : Stack}
    {steps : List Step} (unsigned : stack.Unsigned) (plain : ∀ step ∈ steps, step.Plain)
    (done : stack.run env steps = .ok last) : last.Unsigned := by
  induction steps generalizing stack with
  | nil =>
    obtain rfl := Except.ok.inj done
    exact unsigned
  | cons step rest ih =>
    obtain ⟨first, others⟩ := List.forall_mem_cons.mp plain
    obtain ⟨next, performed, later⟩ := run_cons done
    exact ih (perform_unsigned values unsigned first performed) others later

theorem evaluate_not_lt {formula : String} {env : Environment} {e : Evaluation}
    (minus : '-' ∉ formula.toList) (values : env.Unsigned)
    (evaluated : evaluate formula env = .ok e) : ¬ e.amount < 0 := by
  cases e with
  | failed m => exact zero_not_lt
  | value x n =>
    obtain ⟨-, done, -⟩ := run_of_value evaluated
    have empty : Stack.Unsigned ⟨[], 0⟩ := nofun
    exact Stack.run_unsigned values empty (fun _ => Step.plain_of_polish minus) done x
      List.mem_cons_self

end Joinery.Formula
