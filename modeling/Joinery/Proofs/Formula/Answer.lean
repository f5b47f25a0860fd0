import Joinery.Proofs.Datum.Giant
import Joinery.Proofs.Formula.Failure

/-!
Every evaluation has an answer, but for whole numbers past the largest double. A run stops at such a
number exactly where it would stop at a name that stands for nothing, so an evaluation is compared
with the one in which the names of such numbers stand for nothing.
-/
namespace Joinery.Formula
open Number

theorem append_some {s : String} (some : s ≠ "") (t : String) : s ++ t ≠ "" := fun none =>
  some (String.append_eq_empty_iff.mp none).1

theorem Mishap.message_some (m : Mishap) : m.message ≠ "" := by
  cases m with
  | unbalanced | empty | resultNotFinite => decide
  | unbound _ | notNumeric _ | notFinite _ | invalidToken _ => exact append_some (by decide) _
  | power base exponent fault =>
    iterate 5 apply append_some
    decide
  | missingOperand o => exact append_some (append_some (by decide) _) _
  | leftover count => exact fun none => absurd (String.append_eq_empty_iff.mp none).2 (by decide)

/-- A finite amount, and for a failure the amount 0 with a note of what went wrong. -/
structure Evaluation.Answers (e : Evaluation) : Prop where
  finite : e.amount.isFinite = true
  noted : e.isOk = false → e.amount = 0 ∧ ∃ note, e.diagnostic = some note ∧ note ≠ ""

theorem Evaluation.failed_answers (m : Mishap) : (failed m).Answers where
  finite := show Float.isFinite 0 = true by decide +kernel
  noted := fun _ => ⟨rfl, m.message, rfl, m.message_some⟩

theorem Stack.finish_answers (stack : Stack) : stack.finish.Answers := by
  unfold finish
  split
  · exact Evaluation.failed_answers .empty
  · split
    · exact ⟨by assumption, nofun⟩
    · exact Evaluation.failed_answers .resultNotFinite
  · exact Evaluation.failed_answers _

namespace Environment

def withoutGiants (env : Environment) : Environment := fun name =>
  (env name).filter fun d => !decide d.Giant

/-- An outcome in an environment, and the one without the giants of the environment. -/
inductive Spares {α : Type} (env : Environment) : Except Stop α → Except Stop α → Prop where
  | ok (a : α) : Spares env (.ok a) (.ok a)
  | mishap (m : Mishap) (missing : ∀ name, m = .unbound name → env name = none) :
      Spares env (.error (.mishap m)) (.error (.mishap m))
  | giant {name : String} {d : Datum} (bound : env name = some d) (giant : d.Giant) :
      Spares env (.error (.fault .integerTooLarge)) (.error (.mishap (.unbound name)))

theorem spares_boundValue {env : Environment} {name : String} {d : Datum} (small : ¬ d.Giant) :
    env.Spares (boundValue name d) (boundValue name d) := by
  unfold boundValue
  split
  · split
    · exact .ok _
    · exact .mishap _ nofun
  · rename_i fails
    rcases d.toFloat_fault fails with ⟨-, giant⟩ | ⟨other, -⟩
    · exact absurd giant small
    · exact absurd rfl other
  · exact .mishap _ nofun

theorem spares_operandValue (env : Environment) (text : String) :
    env.Spares (operandValue env text) (operandValue env.withoutGiants text) := by
  unfold operandValue
  split
  · exact .ok _
  · split
    · cases bound : env text with
      | none =>
        simp only [withoutGiants, bound, Option.filter_none]
        exact .mishap _ fun name same => by cases same; exact bound
      | some d =>
        by_cases giant : d.Giant
        · have hidden : env.withoutGiants text = none := by simp [withoutGiants, bound, giant]
          simp only [hidden, boundValue, d.toFloat_of_giant giant]
          exact .giant bound giant
        · have kept : env.withoutGiants text = some d := by simp [withoutGiants, bound, giant]
          rw [kept]
          exact spares_boundValue giant
    · refine .mishap _ ?_
      intro name same
      cases same

theorem spares_perform (env : Environment) (stack : Stack) (step : Step) :
    env.Spares (stack.perform env step) (stack.perform env.withoutGiants step) := by
  cases step with
  | push text =>
    have operand := spares_operandValue env text
    simp only [Stack.perform]
    revert operand
    generalize operandValue env text = x, operandValue env.withoutGiants text = y
    intro operand
    cases operand with
    | ok a => exact .ok _
    | mishap m missing => exact .mishap m missing
    | giant bound giant => exact .giant bound giant
  | apply o =>
    simp only [Stack.perform]
    split
    · split
      · exact .ok _
      · rename_i fails
        refine .mishap _ ?_
        rintro name rfl
        exact (Operator.apply_fails fails).elim
    · refine .mishap _ ?_
      intro name same
      cases same

theorem spares_run (env : Environment) (stack : Stack) (steps : List Step) :
    env.Spares (stack.run env steps) (stack.run env.withoutGiants steps) := by
  induction steps generalizing stack with
  | nil => exact .ok stack
  | cons step rest ih =>
    have first := spares_perform env stack step
    simp only [Stack.run]
    revert first
    generalize stack.perform env step = x, stack.perform env.withoutGiants step = y
    intro first
    cases first with
    | ok next => exact ih next
    | mishap m missing => exact .mishap m missing
    | giant bound giant => exact .giant bound giant

end Environment

theorem evaluate_ok {env : Environment} (small : ∀ name d, env name = some d → ¬ d.Giant)
    (formula : String) : ∃ e, evaluate formula env = .ok e := by
  unfold evaluate
  dsimp only
  split
  · have spared := env.spares_run ⟨[], 0⟩ (polish (tokens formula))
    revert spared
    generalize Stack.run env _ _ = x, Stack.run env.withoutGiants _ _ = y
    intro spared
    cases spared with
    | ok stack => exact ⟨_, rfl⟩
    | mishap m missing => exact ⟨_, rfl⟩
    | giant bound giant => exact absurd giant (small _ _ bound)
  · exact ⟨_, rfl⟩

/-- An evaluation answers, unless it comes to a name that stands for a whole number past the largest
double. It comes to one exactly if, with all names of such numbers taken away, it fails because one
of them stands for nothing. -/
theorem evaluation_answers_unless_giant (formula : String) (env : Environment) :
    ((∃ e, evaluate formula env = .ok e ∧ e.Answers) ∨
      evaluate formula env = .error .integerTooLarge) ∧
    (evaluate formula env = .error .integerTooLarge ↔
      ∃ name d, env name = some d ∧ d.Giant ∧
        evaluate formula env.withoutGiants = .ok (.failed (.unbound name))) := by
  unfold evaluate
  dsimp only
  by_cases parens : balanced (tokens formula) = true
  · rw [if_pos parens, if_pos parens]
    have spared := env.spares_run ⟨[], 0⟩ (polish (tokens formula))
    revert spared
    generalize Stack.run env _ _ = x, Stack.run env.withoutGiants _ _ = y
    intro spared
    cases spared with
    | ok stack =>
      refine ⟨Or.inl ⟨_, rfl, stack.finish_answers⟩, nofun, ?_⟩
      rintro ⟨name, d, -, -, same⟩
      exact absurd (Except.ok.inj same) (stack.finish_not_unbound name)
    | mishap m missing =>
      refine ⟨Or.inl ⟨_, rfl, Evaluation.failed_answers m⟩, nofun, ?_⟩
      rintro ⟨name, d, bound, -, same⟩
      cases same
      rw [missing name rfl] at bound
      cases bound
    | giant bound giant => exact ⟨Or.inr rfl, fun _ => ⟨_, _, bound, giant, rfl⟩, fun _ => rfl⟩
  · rw [if_neg parens, if_neg parens]
    refine ⟨Or.inl ⟨_, rfl, Evaluation.failed_answers .unbalanced⟩, nofun, ?_⟩
    rintro ⟨name, d, -, -, same⟩
    cases same

/-- A formula of one name has no answer where the name stands for a one and four hundred zeros. -/
example : ¬ (evaluate "x" fun _ => some (.int (10 ^ 400))).isOk := by decide +kernel

end Joinery.Formula
