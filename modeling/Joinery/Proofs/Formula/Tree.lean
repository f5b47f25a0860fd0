import Joinery.Formula.Polish
import Mathlib

/-!
Infix expressions as trees. A tree keeps its parentheses, so its tokens can be read off it. In a
bound tree tighter operators stand below looser ones and operators of one rank lean to the left. A
list of tokens belongs to at most one bound tree.
-/
namespace Joinery.Formula

/-- How many parentheses are open after some tokens, unless one of them closes what was never
opened. -/
def depthAfter : Nat → List Token → Option Nat
  | depth, [] => some depth
  | depth, .opening :: rest => depthAfter (depth + 1) rest
  | 0, .closing :: _ => none
  | depth + 1, .closing :: rest => depthAfter depth rest
  | depth, .operand _ :: rest => depthAfter depth rest
  | depth, .operator _ :: rest => depthAfter depth rest

theorem balancedFrom_iff (depth : Nat) (ts : List Token) :
    balancedFrom depth ts = true ↔ depthAfter depth ts = some 0 := by
  fun_induction depthAfter depth ts <;> simp_all [balancedFrom]

theorem depthAfter_append (depth : Nat) (ts us : List Token) :
    depthAfter depth (ts ++ us) = (depthAfter depth ts).bind fun d => depthAfter d us := by
  fun_induction depthAfter depth ts <;> simp_all [depthAfter]

theorem depthAfter_deeper {depth left : Nat} {ts : List Token} (h : depthAfter depth ts = some left) :
    depthAfter (depth + 1) ts = some (left + 1) := by
  fun_induction depthAfter depth ts <;> simp_all [depthAfter]

inductive Tree where
  | operand (text : String)
  | group (inner : Tree)
  | apply (o : Operator) (left right : Tree)
  deriving DecidableEq, Repr

namespace Tree

def tokens : Tree → List Token
  | operand text => [.operand text]
  | group inner => .opening :: (inner.tokens ++ [.closing])
  | apply o left right => left.tokens ++ .operator o :: right.tokens

def postorder : Tree → List Step
  | operand text => [.push text]
  | group inner => inner.postorder
  | apply o left right => left.postorder ++ (right.postorder ++ [.apply o])

def rank : Tree → Nat
  | operand _ => 4
  | group _ => 4
  | apply o _ _ => o.rank

/-- No operator has an operand that binds looser, nor a right operand of its own rank. -/
def Bound : Tree → Prop
  | operand _ => True
  | group inner => inner.Bound
  | apply o left right => left.Bound ∧ right.Bound ∧ o.rank ≤ left.rank ∧ o.rank < right.rank

theorem depthAfter_tokens (t : Tree) (depth : Nat) : depthAfter depth t.tokens = some depth := by
  induction t generalizing depth with
  | operand text => rfl
  | group inner ih => simp [tokens, depthAfter, depthAfter_append, ih]
  | apply o left right ihl ihr => simp [tokens, depthAfter, depthAfter_append, ihl, ihr]

theorem tokens_ne_nil (t : Tree) : t.tokens ≠ [] := by
  cases t <;> simp [tokens]

theorem group_has_no_outer_operator {inner : Tree} {before after : List Token} {o : Operator}
    (cut : (group inner).tokens = before ++ .operator o :: after)
    (outer : depthAfter 0 before = some 0) : False := by
  cases before with
  | nil => simp [tokens] at cut
  | cons first before =>
    simp only [tokens, List.cons_append, List.cons.injEq] at cut
    obtain ⟨rfl, cut⟩ := cut
    rcases List.append_eq_append_iff.mp cut with ⟨c, rfl, last⟩ | ⟨c, inside, last⟩
    · cases c <;> simp at last
    · -- the operator lies within the inner tokens, where no prefix closes the outer parenthesis
      have depths := depthAfter_tokens inner 0
      rw [inside, depthAfter_append] at depths
      cases reached : depthAfter 0 before with
      | none => simp [reached] at depths
      | some depth =>
        have deeper := depthAfter_deeper reached
        simp [depthAfter, deeper] at outer

theorem rank_le_outer_operator {t : Tree} {before after : List Token} {o : Operator}
    (bound : t.Bound) (cut : t.tokens = before ++ .operator o :: after)
    (outer : depthAfter 0 before = some 0) : t.rank ≤ o.rank := by
  induction t generalizing before after with
  | operand text =>
    have := congrArg List.length cut
    cases before <;> simp_all [tokens]
  | group inner ih => exact (group_has_no_outer_operator cut outer).elim
  | apply p left right ihl ihr =>
    obtain ⟨boundLeft, boundRight, looser, tighter⟩ := bound
    rw [tokens, List.append_eq_append_iff] at cut
    rcases cut with ⟨c, rfl, cut⟩ | ⟨c, cutLeft, cut⟩
    · cases c with
      | nil => simp_all [rank]
      | cons token c =>
        simp only [List.cons_append, List.cons.injEq] at cut
        obtain ⟨rfl, cut⟩ := cut
        simp only [depthAfter_append, depthAfter_tokens, Option.bind_some, depthAfter] at outer
        exact Nat.le_trans (Nat.le_of_lt tighter) (ihr boundRight cut outer)
    · cases c with
      | nil => simp_all [rank]
      | cons token c =>
        simp only [List.cons_append, List.cons.injEq] at cut
        obtain ⟨rfl, -⟩ := cut
        exact Nat.le_trans looser (ihl boundLeft cutLeft outer)

/-- The outermost operator of one bound tree cannot stand within the left operand of another. -/
theorem no_longer_left {o p : Operator} {left right left' right' : Tree} {token : Token}
    {c : List Token} (bound : (apply o left right).Bound) (bound' : (apply p left' right').Bound)
    (longer : left'.tokens = left.tokens ++ token :: c)
    (cut : .operator o :: right.tokens = token :: c ++ .operator p :: right'.tokens) : False := by
  simp only [List.cons_append, List.cons.injEq] at cut
  obtain ⟨rfl, cut⟩ := cut
  have first : left'.rank ≤ o.rank :=
    rank_le_outer_operator bound'.1 longer (depthAfter_tokens left 0)
  have depths := depthAfter_tokens left' 0
  rw [longer, depthAfter_append, depthAfter_tokens] at depths
  have second : right.rank ≤ p.rank := rank_le_outer_operator bound.2.1 cut depths
  have looser : p.rank ≤ left'.rank := bound'.2.2.1
  have tighter : o.rank < right.rank := bound.2.2.2
  omega

theorem eq_of_tokens_eq {t u : Tree} (boundT : t.Bound) (boundU : u.Bound)
    (same : t.tokens = u.tokens) : t = u := by
  induction t generalizing u with
  | operand text =>
    cases u with
    | operand other => simpa [tokens] using same
    | group inner => simp [tokens] at same
    | apply o left right =>
      have := congrArg List.length same
      have := List.length_pos_iff.mpr left.tokens_ne_nil
      simp [tokens] at *
      omega
  | group inner ih =>
    cases u with
    | operand other => simp [tokens] at same
    | group other =>
      have : inner.tokens = other.tokens := by simpa [tokens] using same
      exact congrArg group (ih boundT boundU this)
    | apply o left right =>
      exact (group_has_no_outer_operator same (depthAfter_tokens left 0)).elim
  | apply o left right ihl ihr =>
    cases u with
    | operand other =>
      have := congrArg List.length same
      have := List.length_pos_iff.mpr left.tokens_ne_nil
      simp [tokens] at *
      omega
    | group inner =>
      exact (group_has_no_outer_operator same.symm (depthAfter_tokens left 0)).elim
    | apply p left' right' =>
      -- the two outermost operators stand at the same place, or one left operand is too long
      rcases List.append_eq_append_iff.mp same with ⟨c, longer, cut⟩ | ⟨c, longer, cut⟩
      · cases c with
        | nil =>
          simp only [List.append_nil, List.nil_append, List.cons.injEq, Token.operator.injEq]
            at longer cut
          rw [ihl boundT.1 boundU.1 longer.symm, ihr boundT.2.1 boundU.2.1 cut.2, cut.1]
        | cons token c => exact (no_longer_left boundT boundU longer cut).elim
      · cases c with
        | nil =>
          simp only [List.append_nil, List.nil_append, List.cons.injEq, Token.operator.injEq]
            at longer cut
          rw [ihl boundT.1 boundU.1 longer, ihr boundT.2.1 boundU.2.1 cut.2.symm, cut.1]
        | cons token c => exact (no_longer_left boundU boundT longer cut).elim

end Tree
end Joinery.Formula
