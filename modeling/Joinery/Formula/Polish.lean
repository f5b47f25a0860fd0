import Joinery.Formula.Token

/-!
The order of evaluation: every operand where it stands, and every operator after its operands.
Operators of equal rank go from left to right. The order is defined for any list of tokens; an
unmatched parenthesis leaves no trace in it.
-/
namespace Joinery.Formula

inductive Step where
  | push (text : String)
  | apply (o : Operator)
  deriving DecidableEq, Repr

def Step.text : Step → String
  | .push text => text
  | .apply o => o.text

/-- What waits for a later token: an operator for its right operand, or a parenthesis for its end. -/
inductive Waiting where
  | operator (o : Operator)
  | opening
  deriving DecidableEq, Repr

def Waiting.step? : Waiting → Option Step
  | .operator o => some (.apply o)
  | .opening => none

/-- Releases the operators down to the nearest parenthesis, and that parenthesis too. -/
def closeGroup : List Waiting → List Step × List Waiting
  | [] => ([], [])
  | .opening :: rest => ([], rest)
  | .operator o :: rest =>
    let (steps, left) := closeGroup rest
    (.apply o :: steps, left)

/-- Releases the operators that bind at least as tightly as a new one. -/
def yieldTo (rank : Nat) : List Waiting → List Step × List Waiting
  | [] => ([], [])
  | .opening :: rest => ([], .opening :: rest)
  | .operator o :: rest =>
    if rank ≤ o.rank then
      let (steps, left) := yieldTo rank rest
      (.apply o :: steps, left)
    else ([], .operator o :: rest)

def arrange : List Waiting → List Token → List Step
  | waiting, [] => waiting.filterMap Waiting.step?
  | waiting, .operand text :: rest => .push text :: arrange waiting rest
  | waiting, .opening :: rest => arrange (.opening :: waiting) rest
  | waiting, .closing :: rest =>
    (closeGroup waiting).1 ++ arrange (closeGroup waiting).2 rest
  | waiting, .operator o :: rest =>
    (yieldTo o.rank waiting).1 ++ arrange (.operator o :: (yieldTo o.rank waiting).2) rest

def polish (ts : List Token) : List Step := arrange [] ts

end Joinery.Formula
