import Joinery.Formula.Token
import Joinery.Text.Quoted

/-!
Strict reading of a formula: everything that keeps it from being an infix expression over numbers and
known names, each issue at the place of its token.
-/
namespace Joinery.Formula

inductive Issue where
  | empty
  | unbalanced
  | openingAfterOperand (place : Nat)
  | closingTooEarly (place : Nat)
  | noLeftOperand (place : Nat) (o : Operator)
  | invalidToken (place : Nat) (text : String)
  | unknownName (place : Nat) (text : String)
  | noOperatorBefore (place : Nat) (text : String)
  | endsEarly
  deriving DecidableEq, Repr

def Issue.message : Issue → String
  | .empty => "formula is empty"
  | .unbalanced => "unbalanced parentheses"
  | .openingAfterOperand place => s!"token {place}: '(' follows an operand"
  | .closingTooEarly place => s!"token {place}: ')' closes an incomplete expression"
  | .noLeftOperand place o =>
    s!"token {place}: operator {Text.quoted o.text} is missing a left operand"
  | .invalidToken place text => s!"token {place}: invalid token {Text.quoted text}"
  | .unknownName place text => s!"token {place}: unknown variable {Text.quoted text}"
  | .noOperatorBefore place text =>
    s!"token {place}: {Text.quoted text} follows an operand without an operator"
  | .endsEarly => "formula ends with an operator"

def operandIssues (known : Option (List String)) (place : Nat) (text : String) : List Issue :=
  if isNumber text then []
  else if isName text then
    match known with
    | some names => if names.contains text then [] else [.unknownName place text]
    | none => []
  else [.invalidToken place text]

def issueIf (p : Bool) (issue : Issue) : List Issue := if p then [issue] else []

def issuesFrom (known : Option (List String)) : Bool → Nat → List Token → List Issue
  | expectsOperand, _, [] => issueIf expectsOperand .endsEarly
  | expectsOperand, place, .opening :: rest =>
    issueIf (!expectsOperand) (.openingAfterOperand place) ++ issuesFrom known true (place + 1) rest
  | expectsOperand, place, .closing :: rest =>
    issueIf expectsOperand (.closingTooEarly place) ++ issuesFrom known false (place + 1) rest
  | expectsOperand, place, .operator o :: rest =>
    issueIf expectsOperand (.noLeftOperand place o) ++ issuesFrom known true (place + 1) rest
  | expectsOperand, place, .operand text :: rest =>
    operandIssues known place text ++
      issueIf (!expectsOperand) (.noOperatorBefore place text) ++
      issuesFrom known false (place + 1) rest

/-- The issues of a formula; names are checked only against a given list. -/
def lint (known : Option (List String)) (formula : String) : List Issue :=
  match tokens formula with
  | [] => [.empty]
  | ts => issueIf (!balanced ts) .unbalanced ++ issuesFrom known true 1 ts

end Joinery.Formula
