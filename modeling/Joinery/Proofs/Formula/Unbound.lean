import Joinery.Proofs.Formula.Failure
import Joinery.Proofs.Formula.Run

/-!
Names that stand for nothing. A formula reports one only if it uses a name without a value, and it
has no value as long as it uses one. No other failure reads like such a report.
-/
namespace Joinery.Formula

theorem mem_names {formula name : String} :
    name ∈ names formula ↔ .operand name ∈ tokens formula ∧ isName name = true := by
  rw [names, List.mem_eraseDups, List.mem_filterMap]
  constructor
  · rintro ⟨t, member, kept⟩
    cases t with
    | operand text =>
      obtain ⟨identifier, same⟩ := Option.ite_none_right_eq_some.mp kept
      obtain rfl := Option.some.inj same
      exact ⟨member, identifier⟩
    | _ => cases kept
  · rintro ⟨member, identifier⟩
    exact ⟨.operand name, member, if_pos identifier⟩

theorem not_number_of_name {formula name : String} (member : .operand name ∈ tokens formula)
    (identifier : isName name = true) : isNumber name = false := by
  have chars := operand_chars member
  have notNumeral := identifier_not_numeral ((isName_iff chars).mp identifier)
  simpa using mt (isNumber_iff chars).mp notNumeral

/-! Runs. -/

theorem operandValue_unbound {env : Environment} {text name : String}
    (stops : operandValue env text = .error (.mishap (.unbound name))) :
    text = name ∧ isName name = true ∧ env name = none := by
  unfold operandValue at stops
  split at stops
  · cases stops
  · split at stops
    · rename_i identifier
      cases bound : env text with
      | none =>
        simp only [bound] at stops
        cases stops
        exact ⟨rfl, identifier, bound⟩
      | some d =>
        simp only [bound, boundValue] at stops
        split at stops
        · split at stops <;> cases stops
        · cases stops
        · cases stops
    · cases stops

theorem Stack.perform_unbound {env : Environment} {stack : Stack} {step : Step} {name : String}
    (stops : stack.perform env step = .error (.mishap (.unbound name))) :
    step = .push name ∧ isName name = true ∧ env name = none := by
  cases step with
  | push text =>
    simp only [perform] at stops
    split at stops
    · cases stops
    · rename_i stop failed
      cases stops
      obtain ⟨rfl, found⟩ := operandValue_unbound failed
      exact ⟨rfl, found⟩
  | apply o =>
    simp only [perform] at stops
    split at stops
    · split at stops
      · cases stops
      · rename_i failed
        cases stops
        exact (Operator.apply_fails failed).elim
    · cases stops

theorem Stack.run_unbound {env : Environment} {stack : Stack} {steps : List Step} {name : String}
    (stops : stack.run env steps = .error (.mishap (.unbound name))) :
    .push name ∈ steps ∧ isName name = true ∧ env name = none := by
  induction steps generalizing stack with
  | nil => cases stops
  | cons step rest ih =>
    simp only [run] at stops
    split at stops
    · obtain ⟨member, found⟩ := ih stops
      exact ⟨List.mem_cons_of_mem step member, found⟩
    · rename_i stop failed
      cases stops
      obtain ⟨rfl, found⟩ := perform_unbound failed
      exact ⟨List.mem_cons_self, found⟩

theorem evaluate_unbound {formula name : String} {env : Environment}
    (failed : evaluate formula env = .ok (.failed (.unbound name))) :
    name ∈ names formula ∧ env name = none := by
  unfold evaluate at failed
  dsimp only at failed
  split at failed
  · split at failed
    · rename_i stack _
      exact absurd (Except.ok.inj failed) (stack.finish_not_unbound name)
    · rename_i m stopped
      cases failed
      obtain ⟨pushed, identifier, unbound⟩ := Stack.run_unbound stopped
      exact ⟨mem_names.mpr ⟨push_mem_polish.mp pushed, identifier⟩, unbound⟩
    · cases failed
  · cases failed

theorem evaluate_fails_of_unbound {formula name : String} {env : Environment} {e : Evaluation}
    (used : name ∈ names formula) (unbound : env name = none)
    (evaluated : evaluate formula env = .ok e) : ∃ m, e = .failed m := by
  obtain ⟨member, identifier⟩ := mem_names.mp used
  have noValue : operandValue env name = .error (.mishap (.unbound name)) := by
    simp [operandValue, not_number_of_name member identifier, identifier, unbound]
  cases e with
  | failed m => exact ⟨m, rfl⟩
  | value x n =>
    obtain ⟨-, done, -⟩ := run_of_value evaluated
    obtain ⟨y, value⟩ := Stack.value_of_run done (push_mem_polish.mpr member)
    rw [noValue] at value
    cases value

/-! Reports. -/

/-- Enough of a diagnostic to tell the report of an unbound name from all others. -/
def opening (text : String) : List Char := text.toList.take 4

def unboundOpening : List Char := ['u', 'n', 'b', 'o']

theorem opening_append {s : String} (long : 4 ≤ s.length) (t : String) :
    opening (s ++ t) = opening s := by
  rw [← String.length_toList] at long
  rw [opening, String.toList_append, List.take_append_of_le_length long, opening]

theorem opening_unbound (name : String) : opening (Mishap.unbound name).message = unboundOpening :=
  opening_append (by decide) _

theorem opening_apart {s : String} (long : 4 ≤ s.length) (apart : opening s ≠ unboundOpening)
    (t : String) : opening (s ++ t) ≠ unboundOpening :=
  fun same => apart ((opening_append long t).symm.trans same)

theorem opening_of_number (n : Nat) (t : String) : opening (toString n ++ t) ≠ unboundOpening := by
  intro same
  have digits : (toString n).toList = Nat.toDigits 10 n := Nat.toList_repr
  rw [opening, String.toList_append, digits] at same
  cases shown : Nat.toDigits 10 n with
  | nil => exact Nat.toDigits_ne_nil shown
  | cons c cs =>
    rw [shown, List.cons_append, List.take_succ_cons] at same
    obtain ⟨rfl, -⟩ := List.cons.inj same
    have digit := Nat.isDigit_of_mem_toDigits (b := 10) (n := n) (by decide) (by decide)
      (shown ▸ List.mem_cons_self)
    exact absurd digit (by decide)

theorem unbound_of_opening {m : Mishap} (same : opening m.message = unboundOpening) :
    ∃ name, m = .unbound name := by
  cases m with
  | unbound name => exact ⟨name, rfl⟩
  | unbalanced | empty | resultNotFinite => exact absurd same (by decide)
  | notNumeric _ | notFinite _ | invalidToken _ =>
    exact absurd same (opening_apart (by decide) (by decide) _)
  | power base exponent fault =>
    have apart (s t u v w : String) :
        opening ("cannot evaluate " ++ s ++ t ++ u ++ v ++ w) ≠ unboundOpening := by
      simp only [String.append_assoc]
      exact opening_apart (by decide) (by decide) _
    exact absurd same (apart _ _ _ _ _)
  | missingOperand o =>
    have apart (s t : String) : opening ("operator " ++ s ++ t) ≠ unboundOpening := by
      rw [String.append_assoc]
      exact opening_apart (by decide) (by decide) _
    exact absurd same (apart _ _)
  | leftover count =>
    have text : (Mishap.leftover count).message =
        toString count ++ " operand(s) without an operator" := rfl
    exact absurd (text ▸ same) (opening_of_number count _)

/-- An evaluation whose diagnostic reads like a report of an unbound name is one. -/
theorem Evaluation.unbound_of_diagnostic {e : Evaluation} {name : String}
    (reported : e.diagnostic = some (Mishap.unbound name).message) :
    ∃ other, e = .failed (.unbound other) := by
  cases e with
  | failed m =>
    have same : m.message = (Mishap.unbound name).message := Option.some.inj reported
    obtain ⟨other, rfl⟩ := unbound_of_opening (same ▸ opening_unbound name)
    exact ⟨other, rfl⟩
  | value x zeroDivisions =>
    cases zeroDivisions with
    | zero => cases reported
    | succ n =>
      have notes : "; ".intercalate (List.replicate (n + 1) zeroDivisionNote) =
          (Mishap.unbound name).message := Option.some.inj reported
      have apart : opening ("; ".intercalate (List.replicate (n + 1) zeroDivisionNote)) ≠
          unboundOpening := by
        cases n with
        | zero => decide
        | succ n =>
          rw [List.replicate_succ, List.replicate_succ, String.intercalate_cons_cons,
            String.append_assoc]
          exact opening_apart (by decide) (by decide) _
      exact absurd (notes ▸ opening_unbound name) apart

end Joinery.Formula
