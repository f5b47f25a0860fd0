import Joinery.Formula.Evaluation
import Joinery.Formula.Polish
import Mathlib

/-!
Runs that come to their end. Ranks and parentheses decide when an operator is released, and never
whether: every operand and every operator of the tokens comes out, each as often as it is there. Every
step of a run that comes to its end has found its operands, and a formula has a value only at the end of
one, from a single finite double that is left.
-/
namespace Joinery.Formula

def Token.step? : Token → Option Step
  | operand text => some (.push text)
  | operator o => some (.apply o)
  | opening | closing => none

theorem closeGroup_releases (ws : List Waiting) :
    (closeGroup ws).1 ++ (closeGroup ws).2.filterMap Waiting.step? =
      ws.filterMap Waiting.step? := by
  induction ws with
  | nil => rfl
  | cons w ws ih =>
    cases w with
    | opening => rfl
    | operator o => simpa [closeGroup, Waiting.step?] using ih

theorem yieldTo_releases (rank : Nat) (ws : List Waiting) :
    (yieldTo rank ws).1 ++ (yieldTo rank ws).2.filterMap Waiting.step? =
      ws.filterMap Waiting.step? := by
  induction ws with
  | nil => rfl
  | cons w ws ih =>
    cases w with
    | opening => rfl
    | operator o =>
      by_cases yields : rank ≤ o.rank
      · simpa [yieldTo, yields, Waiting.step?] using ih
      · simp [yieldTo, yields]

/-- What comes out of an arrangement is what was waiting and what the tokens ask for. -/
theorem arrange_perm (ws : List Waiting) (ts : List Token) :
    (arrange ws ts).Perm (ws.filterMap Waiting.step? ++ ts.filterMap Token.step?) := by
  induction ts generalizing ws with
  | nil => simp [arrange]
  | cons t ts ih =>
    cases t with
    | operand text =>
      have later := (ih ws).cons (Step.push text)
      exact later.trans List.perm_middle.symm
    | opening => exact ih (.opening :: ws)
    | closing =>
      have later := (ih (closeGroup ws).2).append_left (closeGroup ws).1
      rw [← List.append_assoc, closeGroup_releases] at later
      exact later
    | operator o =>
      have later := (ih (.operator o :: (yieldTo o.rank ws).2)).append_left (yieldTo o.rank ws).1
      have waits : (Waiting.operator o :: (yieldTo o.rank ws).2).filterMap Waiting.step? =
          .apply o :: (yieldTo o.rank ws).2.filterMap Waiting.step? := rfl
      rw [waits, List.cons_append] at later
      refine later.trans ?_
      rw [← yieldTo_releases o.rank ws, List.append_assoc]
      exact List.perm_middle.symm.append_left _

theorem polish_perm (ts : List Token) : (polish ts).Perm (ts.filterMap Token.step?) :=
  arrange_perm [] ts

theorem push_mem_polish {text : String} {ts : List Token} :
    .push text ∈ polish ts ↔ .operand text ∈ ts := by
  rw [(polish_perm ts).mem_iff, List.mem_filterMap]
  constructor
  · rintro ⟨t, member, asks⟩
    cases t <;> cases asks
    exact member
  · intro member
    exact ⟨.operand text, member, rfl⟩

theorem apply_mem_polish {o : Operator} {ts : List Token} :
    .apply o ∈ polish ts ↔ .operator o ∈ ts := by
  rw [(polish_perm ts).mem_iff, List.mem_filterMap]
  constructor
  · rintro ⟨t, member, asks⟩
    cases t <;> cases asks
    exact member
  · intro member
    exact ⟨.operator o, member, rfl⟩

/-- What a step that finds its operands does to the stack. -/
inductive Stack.Performed (env : Environment) : Stack → Step → Stack → Prop
  | push {text : String} {x : Float} {values : List Float} {n : Nat}
      (value : operandValue env text = .ok x) :
      Performed env ⟨values, n⟩ (.push text) ⟨x :: values, n⟩
  | apply {o : Operator} {a b x : Float} {rest : List Float} {n : Nat}
      (applied : o.apply a b = .ok x) :
      Performed env ⟨b :: a :: rest, n⟩ (.apply o)
        ⟨x :: rest, n + if o.dividesByZero b then 1 else 0⟩

theorem Stack.performed {env : Environment} {stack next : Stack} {step : Step}
    (done : stack.perform env step = .ok next) : Performed env stack step next := by
  obtain ⟨values, n⟩ := stack
  cases step with
  | push text =>
    simp only [perform] at done
    split at done
    · rename_i x value
      obtain rfl := Except.ok.inj done
      exact .push value
    · cases done
  | apply o =>
    simp only [perform] at done
    split at done
    · split at done
      · rename_i x applied
        obtain rfl := Except.ok.inj done
        exact .apply applied
      · cases done
    · cases done

theorem Stack.run_cons {env : Environment} {stack last : Stack} {step : Step} {rest : List Step}
    (done : stack.run env (step :: rest) = .ok last) :
    ∃ next, stack.perform env step = .ok next ∧ next.run env rest = .ok last := by
  simp only [run] at done
  split at done
  · rename_i next performed
    exact ⟨next, performed, done⟩
  · cases done

theorem Stack.value_of_run {env : Environment} {stack last : Stack} {steps : List Step}
    (done : stack.run env steps = .ok last) {text : String} (member : .push text ∈ steps) :
    ∃ x, operandValue env text = .ok x := by
  induction steps generalizing stack with
  | nil => cases member
  | cons step rest ih =>
    obtain ⟨next, first, later⟩ := run_cons done
    rcases List.mem_cons.mp member with rfl | after
    · cases performed first with
      | push value => exact ⟨_, value⟩
    · exact ih later after

theorem Evaluation.value_of_plain {e : Evaluation} (ok : e.isOk = true) (plain : e.diagnostic = none) :
    e = .value e.amount 0 := by
  cases e with
  | failed m => cases ok
  | value x n =>
    cases n with
    | zero => rfl
    | succ n => cases plain

theorem Stack.finish_value {stack : Stack} {x : Float} {n : Nat}
    (value : stack.finish = .value x n) : stack = ⟨[x], n⟩ ∧ x.isFinite = true := by
  obtain ⟨values, zeroDivisions⟩ := stack
  simp only [finish] at value
  split at value
  · cases value
  · split at value
    · cases value
      exact ⟨rfl, ‹_›⟩
    · cases value
  · cases value

theorem run_of_value {formula : String} {env : Environment} {x : Float} {n : Nat}
    (evaluated : evaluate formula env = .ok (.value x n)) :
    balanced (tokens formula) = true ∧
      Stack.run env ⟨[], 0⟩ (polish (tokens formula)) = .ok ⟨[x], n⟩ ∧ x.isFinite = true := by
  unfold evaluate at evaluated
  dsimp only at evaluated
  split at evaluated
  · rename_i parens
    split at evaluated
    · rename_i last done
      obtain ⟨rfl, finite⟩ := Stack.finish_value (Except.ok.inj evaluated)
      exact ⟨parens, done, finite⟩
    · cases evaluated
    · cases evaluated
  · cases evaluated

end Joinery.Formula
