import Joinery.Text.Blank
import Joinery.Text.Digit
import Joinery.Text.Runs

/-!
Tokens of a formula. A symbol is a token of its own, blanks separate, and the longest stretch of any
other characters is one operand, whether or not it is a number or a name.
-/
namespace Joinery.Formula
open Text

inductive Operator where
  | add
  | sub
  | mul
  | div
  | pow
  deriving DecidableEq, Repr

def Operator.symbol : Operator → Char
  | .add => '+'
  | .sub => '-'
  | .mul => '*'
  | .div => '/'
  | .pow => '^'

def Operator.text (o : Operator) : String := .singleton o.symbol

def Operator.rank : Operator → Nat
  | .add | .sub => 1
  | .mul | .div => 2
  | .pow => 3

inductive Token where
  | operand (text : String)
  | operator (o : Operator)
  | opening
  | closing
  deriving DecidableEq, Repr

def Token.text : Token → String
  | .operand text => text
  | .operator o => o.text
  | .opening => "("
  | .closing => ")"

def symbol? : Char → Option Token
  | '+' => some (.operator .add)
  | '-' => some (.operator .sub)
  | '*' => some (.operator .mul)
  | '/' => some (.operator .div)
  | '^' => some (.operator .pow)
  | '(' => some .opening
  | ')' => some .closing
  | _ => none

def Token.ofText (s : String) : Token :=
  match s.toList with
  | [c] => (symbol? c).getD (.operand s)
  | _ => .operand s

def isOperandChar (c : Char) : Bool := !isBlank c && (symbol? c).isNone

def Token.ofRun? (run : List Char) : Option Token :=
  if run.all isOperandChar then some (.operand (.ofList run))
  else run.head?.bind symbol?

def tokens (formula : String) : List Token :=
  (runs isOperandChar formula.toList).filterMap Token.ofRun?

def withoutLineEnd (cs : List Char) : List Char :=
  if cs.getLast? = some '\n' then cs.dropLast else cs

def isNumberForm (cs : List Char) : Bool :=
  let whole := cs.takeWhile isDigit
  match cs.dropWhile isDigit with
  | [] => !whole.isEmpty
  | '.' :: fraction => fraction.all isDigit && (!whole.isEmpty || !fraction.isEmpty)
  | _ => false

/-- Digits of any script with an optional point among or around them, and no sign or exponent. -/
def isNumber (s : String) : Bool := isNumberForm (withoutLineEnd s.toList)

def startsName (c : Char) : Bool := c.isAlpha || c == '_'

def continuesName (c : Char) : Bool := c.isAlphanum || c == '_'

def isNameForm : List Char → Bool
  | [] => false
  | c :: rest => startsName c && rest.all continuesName

def isName (s : String) : Bool := isNameForm (withoutLineEnd s.toList)

def names (formula : String) : List String :=
  ((tokens formula).filterMap fun
    | .operand text => if isName text then some text else none
    | _ => none).eraseDups

def balancedFrom : Nat → List Token → Bool
  | depth, [] => depth == 0
  | depth, .opening :: rest => balancedFrom (depth + 1) rest
  | 0, .closing :: _ => false
  | depth + 1, .closing :: rest => balancedFrom depth rest
  | depth, _ :: rest => balancedFrom depth rest

def balanced (ts : List Token) : Bool := balancedFrom 0 ts

end Joinery.Formula
