import Joinery.Proofs.Formula.Literal
import Joinery.Proofs.Formula.Meaning
import Joinery.Proofs.Outcome

/-!
What a formula without issues can still fail at. Its operands all have values as soon as its names
stand for finite doubles, and it is worked through as a tree, where every operator has its two
operands. What is left is a power without a value and a result that is not finite.
-/
namespace Joinery.Formula
open Number

/-- A failure of the arithmetic, not of the formula or of what its names stand for. -/
def Mishap.Numeric : Mishap → Prop
  | .power base exponent fault => Number.power base exponent = .error fault
  | .resultNotFinite => True
  | _ => False

def Environment.doubles (env : Environment) : Doubles := fun name =>
  (env name).bind fun d => d.toFloat.toOption

theorem Stack.run_congr {env env' : Environment} {steps : List Step}
    (same : ∀ text, .push text ∈ steps → operandValue env text = operandValue env' text)
    (stack : Stack) : stack.run env steps = stack.run env' steps := by
  induction steps generalizing stack with
  | nil => rfl
  | cons step rest ih =>
    have first : stack.perform env step = stack.perform env' step := by
      cases step with
      | push text => simp only [Stack.perform, same text (by simp)]
      | apply o => rfl
    have later := ih fun text member => same text (List.mem_cons_of_mem step member)
    simp only [Stack.run, first, later]

theorem Stack.finish_not_unbound (stack : Stack) (name : String) :
    stack.finish ≠ .failed (.unbound name) := by
  unfold finish
  split
  · nofun
  · split <;> nofun
  · nofun

theorem Tree.operand_of_push {t : Tree} {text : String} (member : .push text ∈ t.postorder) :
    .operand text ∈ t.tokens := by
  induction t with
  | operand other => simpa [postorder, tokens] using member
  | group inner ih => simp [tokens, ih member]
  | apply o left right ihl ihr =>
    simp only [postorder, List.mem_append, List.mem_singleton, reduceCtorEq, or_false] at member
    rcases member with first | second
    · simp [tokens, ihl first]
    · simp [tokens, ihr second]

theorem Operator.apply_fails {o : Operator} {a b : Float} {m : Mishap}
    (fails : o.apply a b = .error m) : m.Numeric := by
  cases o with
  | pow =>
    simp only [Operator.apply] at fails
    split at fails
    · contradiction
    · cases fails
      assumption
  | _ => cases fails

theorem Tree.value_of_leaves {env : Doubles} {t : Tree}
    (leaves : ∀ text, .operand text ∈ t.tokens → ∃ x, leafValue env text = .ok x) :
    (∃ x n, t.value env = .ok (x, n)) ∨ ∃ m, t.value env = .error m ∧ m.Numeric := by
  induction t with
  | operand text =>
    obtain ⟨x, value⟩ := leaves text (by simp [tokens])
    exact Or.inl ⟨x, 0, by simp [Tree.value, value, bind, Except.bind, pure, Except.pure]⟩
  | group inner ih => exact ih fun text member => leaves text (by simp [tokens, member])
  | apply o left right ihl ihr =>
    have first := ihl fun text member => leaves text (by simp [tokens, member])
    have second := ihr fun text member => leaves text (by simp [tokens, member])
    rcases first with ⟨a, k, valueL⟩ | ⟨m, failL, numeric⟩
    · rcases second with ⟨b, n, valueR⟩ | ⟨m, failR, numeric⟩
      · cases applied : o.apply a b with
        | ok x =>
          refine Or.inl ⟨x, k + n + if o.dividesByZero b then 1 else 0, ?_⟩
          simp [Tree.value, valueL, valueR, applied, bind, Except.bind, pure, Except.pure]
        | error m =>
          exact Or.inr ⟨m, by simp [Tree.value, valueL, valueR, applied, bind, Except.bind],
            Operator.apply_fails applied⟩
      · exact Or.inr ⟨m, by simp [Tree.value, valueL, failR, bind, Except.bind], numeric⟩
    · exact Or.inr ⟨m, by simp [Tree.value, failL, bind, Except.bind], numeric⟩

theorem Tree.meaning_of_leaves {env : Doubles} {t : Tree}
    (leaves : ∀ text, .operand text ∈ t.tokens → ∃ x, leafValue env text = .ok x) :
    (t.meaning env).isOk = true ∨ ∃ m, t.meaning env = .failed m ∧ m.Numeric := by
  rcases value_of_leaves leaves with ⟨x, n, value⟩ | ⟨m, fails, numeric⟩
  · by_cases finite : x.isFinite = true
    · exact Or.inl (by simp [meaning, value, finite, Evaluation.isOk])
    · exact Or.inr ⟨.resultNotFinite, by simp [meaning, value, finite], trivial⟩
  · exact Or.inr ⟨m, by simp [meaning, fails], numeric⟩

/-- An operand without issues has a value, the same for an environment and for its doubles. -/
theorem value_of_operandIssues {names : List String} {place : Nat} {text : String}
    {env : Environment}
    (finite : ∀ name ∈ names, ∃ d x, env name = some d ∧ d.toFloat = .ok x ∧ x.isFinite = true)
    (clean : operandIssues (some names) place text = []) :
    ∃ x, Tree.leafValue env.doubles text = .ok x ∧ operandValue env text = .ok x := by
  by_cases literal : isNumber text = true
  · exact ⟨(readFloat? text).getD 0, by simp [Tree.leafValue, literal],
      by simp [operandValue, literal]⟩
  · by_cases identifier : isName text = true
    · have known : text ∈ names := by simpa [operandIssues, literal, identifier] using clean
      obtain ⟨d, x, bound, value, isFinite⟩ := finite text known
      have double : env.doubles text = some x := by
        simp [Environment.doubles, bound, value, Except.toOption]
      exact ⟨x, by simp [Tree.leafValue, literal, identifier, double, isFinite],
        by simp [operandValue, literal, identifier, bound, boundValue, value, isFinite]⟩
    · simp [operandIssues, literal, identifier] at clean

/-- A formula without issues over names that stand for finite doubles can always be evaluated: its
literals are numbers, and it has a value or fails in its arithmetic. -/
theorem clean_formula_fails_in_numbers_only (formula : String) (names : List String)
    (env : Environment) (clean : lint (some names) formula = [])
    (finite : ∀ name ∈ names, ∃ d x, env name = some d ∧ d.toFloat = .ok x ∧ x.isFinite = true) :
    (∀ text, .operand text ∈ tokens formula → isNumber text = true →
      ∃ x, readFloat? text = some x) ∧
    ∃ e, evaluate formula env = .ok e ∧
      (e.isOk = true ∨ ∃ m, e = .failed m ∧ m.Numeric) := by
  obtain ⟨parens, issues⟩ := (lint_nil_iff_faultless _ formula).mp clean
  obtain ⟨t, -, sameTokens, order⟩ := tree_of_faultless issues parens
  have values : ∀ text, .operand text ∈ tokens formula →
      ∃ x, Tree.leafValue env.doubles text = .ok x ∧ operandValue env text = .ok x := by
    intro text member
    obtain ⟨place, none⟩ := operandIssues_of_issuesFrom issues member
    exact value_of_operandIssues finite none
  have operands : ∀ text, .push text ∈ polish (tokens formula) →
      operandValue env text = operandValue env.doubles.environment text := by
    intro text member
    rw [← order] at member
    obtain ⟨x, leaf, operand⟩ := values text (sameTokens ▸ Tree.operand_of_push member)
    rw [operand, operandValue_doubles, leaf]
    rfl
  have evaluated : evaluate formula env = .ok (t.meaning env.doubles) := by
    rw [← evaluate_of_postorder env.doubles parens order.symm]
    simp only [evaluate, Stack.run_congr operands]
  refine ⟨fun text member => readFloat?_literal (operand_chars member), _, evaluated, ?_⟩
  apply Tree.meaning_of_leaves
  intro text member
  obtain ⟨x, leaf, -⟩ := values text (sameTokens ▸ member)
  exact ⟨x, leaf⟩

def squareRoom : Environment := fun name =>
  if name = "length" then some (.real 800.5)
  else if name = "width" then some (.int 400)
  else none

theorem square_fails_in_numbers_only :
    lint (some ["length", "width"]) "length ^ 2 / (width - 400)" = [] ∧
    (∀ name ∈ ["length", "width"],
      ∃ d x, squareRoom name = some d ∧ d.toFloat = .ok x ∧ x.isFinite = true) ∧
    (∀ text, .operand text ∈ tokens "length ^ 2 / (width - 400)" → isNumber text = true →
      ∃ x, readFloat? text = some x) ∧
    ∃ e, evaluate "length ^ 2 / (width - 400)" squareRoom = .ok e ∧
      (e.isOk = true ∨ ∃ m, e = .failed m ∧ m.Numeric) := by
  have clean : lint (some ["length", "width"]) "length ^ 2 / (width - 400)" = [] := by decide
  have finite : ∀ name ∈ ["length", "width"],
      ∃ d x, squareRoom name = some d ∧ d.toFloat = .ok x ∧ x.isFinite = true := by
    intro name member
    simp only [List.mem_cons, List.not_mem_nil, or_false] at member
    rcases member with rfl | rfl
    · exact ⟨.real 800.5, 800.5, rfl, rfl, by decide +kernel⟩
    · have double : (Numeral.whole 400).toFloat.isOk = true := by decide +kernel
      exact ⟨.int 400, (Numeral.whole 400).toFloat.value double, rfl,
        Outcome.eq_value double, by decide +revert +kernel⟩
  exact ⟨clean, finite, clean_formula_fails_in_numbers_only _ _ _ clean finite⟩

end Joinery.Formula
