import Joinery.Formula.Evaluation
import Joinery.Proofs.Formula.Grammar

/-!
The meaning of a formula. A formula without issues has exactly one bound tree, its order of
evaluation is the postorder of that tree, and working through it on the stack comes to the value of
the tree: the left operand, then the right one, then the operator. Arithmetic on doubles is that of
`Operator.apply`.
-/
namespace Joinery.Formula
open Number

/-- What names stand for when every value is a double. -/
abbrev Doubles := String → Option Float

def Doubles.environment (env : Doubles) : Environment := fun name => (env name).map Datum.real

namespace Tree

def leafValue (env : Doubles) (text : String) : Except Mishap Float :=
  if isNumber text then .ok ((readFloat? text).getD 0)
  else if isName text then
    match env text with
    | none => .error (.unbound text)
    | some x => if x.isFinite then .ok x else .error (.notFinite text)
  else .error (.invalidToken text)

def value (env : Doubles) : Tree → Except Mishap (Float × Nat)
  | operand text => do
    let x ← leafValue env text
    return (x, 0)
  | group inner => inner.value env
  | apply o left right => do
    let (a, m) ← left.value env
    let (b, n) ← right.value env
    let x ← o.apply a b
    return (x, m + n + if o.dividesByZero b then 1 else 0)

def meaning (env : Doubles) (t : Tree) : Evaluation :=
  match t.value env with
  | .ok (x, zeroDivisions) =>
    if x.isFinite then .value x zeroDivisions else .failed .resultNotFinite
  | .error m => .failed m

end Tree

theorem operandValue_doubles (env : Doubles) (text : String) :
    operandValue env.environment text = (Tree.leafValue env text).mapError .mishap := by
  unfold operandValue Tree.leafValue
  split
  · rfl
  · split
    · cases bound : env text with
      | none => simp [Doubles.environment, bound, Except.mapError]
      | some x =>
        simp only [Doubles.environment, bound, Option.map_some, boundValue, Datum.toFloat,
          Numeral.toFloat]
        split <;> rfl
    · rfl

/-- The stack after the steps of a tree: its value on top, or the failure that ended the run. -/
theorem run_postorder (env : Doubles) (t : Tree) (stack : Stack) (rest : List Step) :
    stack.run env.environment (t.postorder ++ rest) =
      match t.value env with
      | .ok (x, n) => Stack.run env.environment ⟨x :: stack.values, stack.zeroDivisions + n⟩ rest
      | .error m => .error (.mishap m) := by
  induction t generalizing stack rest with
  | operand text =>
    simp only [Tree.postorder, List.cons_append, List.nil_append, Stack.run, Stack.perform,
      operandValue_doubles, Tree.value]
    cases Tree.leafValue env text <;> rfl
  | group inner ih => exact ih stack rest
  | apply o left right ihl ihr =>
    simp only [Tree.postorder, List.append_assoc, ihl, ihr, Tree.value]
    cases left.value env with
    | error m => rfl
    | ok first =>
      obtain ⟨a, m⟩ := first
      cases right.value env with
      | error m => rfl
      | ok second =>
        obtain ⟨b, n⟩ := second
        simp only [List.cons_append, List.nil_append, Stack.run, Stack.perform]
        cases applied : o.apply a b with
        | error m => simp [bind, Except.bind, applied]
        | ok x => simp [bind, Except.bind, pure, Except.pure, applied, Nat.add_assoc]

theorem evaluate_of_postorder {formula : String} {t : Tree} (env : Doubles)
    (parens : balanced (tokens formula) = true) (order : polish (tokens formula) = t.postorder) :
    evaluate formula env.environment = .ok (t.meaning env) := by
  have run := run_postorder env t ⟨[], 0⟩ []
  rw [List.append_nil, ← order] at run
  simp only [evaluate, parens, ↓reduceIte, run, Tree.meaning]
  cases t.value env with
  | error m => rfl
  | ok result => simp [Stack.run, Stack.finish]

/-- A formula without issues means what its one bound tree means. -/
theorem faultless_formula_meaning (formula : String) (faultless : lint none formula = []) :
    ∃ t : Tree, (t.Bound ∧ t.tokens = tokens formula) ∧
      (∀ u : Tree, u.Bound → u.tokens = tokens formula → u = t) ∧
      polish (tokens formula) = t.postorder ∧
      ∀ env : Doubles, evaluate formula env.environment = .ok (t.meaning env) := by
  obtain ⟨parens, clean⟩ := (lint_nil_iff_faultless none formula).mp faultless
  obtain ⟨t, bound, same, order⟩ := tree_of_faultless clean parens
  refine ⟨t, ⟨bound, same⟩, ?_, order.symm, ?_⟩
  · intro u boundU sameU
    exact Tree.eq_of_tokens_eq boundU bound (sameU.trans same.symm)
  · intro env
    exact evaluate_of_postorder env parens order.symm

theorem chained_operators_meaning :
    lint none "a - 2 ^ (b / 0) ^ 2 - 3 * c" = [] ∧
    ∃ t : Tree, (t.Bound ∧ t.tokens = tokens "a - 2 ^ (b / 0) ^ 2 - 3 * c") ∧
      (∀ u : Tree, u.Bound → u.tokens = tokens "a - 2 ^ (b / 0) ^ 2 - 3 * c" → u = t) ∧
      polish (tokens "a - 2 ^ (b / 0) ^ 2 - 3 * c") = t.postorder ∧
      ∀ env : Doubles,
        evaluate "a - 2 ^ (b / 0) ^ 2 - 3 * c" env.environment = .ok (t.meaning env) :=
  ⟨by decide, faultless_formula_meaning _ (by decide)⟩

end Joinery.Formula
