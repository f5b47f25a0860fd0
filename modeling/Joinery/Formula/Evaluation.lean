import Joinery.Datum.Measure
import Joinery.Formula.Polish
import Joinery.Log
import Joinery.Number.Power

/-!
Evaluation of a formula on a stack of doubles. A failure has the value 0 and a cause; a division by
zero is no failure, has the value 0 and is counted.
-/
namespace Joinery.Formula
open Number

/-- Why a formula has no value. -/
inductive Mishap where
  | unbalanced
  | unbound (name : String)
  | notNumeric (name : String)
  | notFinite (name : String)
  | invalidToken (text : String)
  | power (base exponent : Float) (fault : PowerFault)
  | missingOperand (o : Operator)
  | empty
  | leftover (count : Nat)
  | resultNotFinite

def Mishap.message : Mishap → String
  | .unbalanced => "unbalanced parentheses"
  | .unbound name => s!"unbound identifier {Text.quoted name}"
  | .notNumeric name => s!"non-numeric value for {Text.quoted name}"
  | .notFinite name => s!"non-finite value for {Text.quoted name}"
  | .invalidToken text => s!"invalid token {Text.quoted text}"
  | .power base exponent fault =>
    s!"cannot evaluate {inFull base} ^ {inFull exponent}: {fault.message}"
  | .missingOperand o => s!"operator {Text.quoted o.text} is missing an operand"
  | .empty => "formula is empty"
  | .leftover count => s!"{count} operand(s) without an operator"
  | .resultNotFinite => "result is not finite"

/-- A formula stops short of a value by a mishap of its own or by a fault in a bound value. -/
inductive Stop where
  | mishap (m : Mishap)
  | fault (f : Fault)

abbrev Environment := String → Option Datum

def boundValue (name : String) (d : Datum) : Except Stop Float :=
  match d.toFloat with
  | .ok x => if x.isFinite then .ok x else .error (.mishap (.notFinite name))
  | .error .integerTooLarge => .error (.fault .integerTooLarge)
  | .error _ => .error (.mishap (.notNumeric name))

def operandValue (env : Environment) (text : String) : Except Stop Float :=
  if isNumber text then .ok ((readFloat? text).getD 0)
  else if isName text then
    match env text with
    | none => .error (.mishap (.unbound text))
    | some d => boundValue text d
  else .error (.mishap (.invalidToken text))

/-- The values still to be used, the latest first, and the number of divisions by zero so far. -/
structure Stack where
  values : List Float
  zeroDivisions : Nat

def Operator.apply : Operator → Float → Float → Except Mishap Float
  | .add, a, b => .ok (a + b)
  | .sub, a, b => .ok (a - b)
  | .mul, a, b => .ok (a * b)
  | .div, a, b => .ok (if b == 0 then 0 else a / b)
  | .pow, a, b =>
    match power a b with
    | .ok x => .ok x
    | .error fault => .error (.power a b fault)

def Operator.dividesByZero : Operator → Float → Bool
  | .div, b => b == 0
  | _, _ => false

def Stack.perform (env : Environment) (stack : Stack) : Step → Except Stop Stack
  | .push text =>
    match operandValue env text with
    | .ok x => .ok { stack with values := x :: stack.values }
    | .error stop => .error stop
  | .apply o =>
    match stack.values with
    | b :: a :: rest =>
      match o.apply a b with
      | .ok x => .ok ⟨x :: rest, stack.zeroDivisions + (if o.dividesByZero b then 1 else 0)⟩
      | .error m => .error (.mishap m)
    | _ => .error (.mishap (.missingOperand o))

def Stack.run (env : Environment) : Stack → List Step → Except Stop Stack
  | stack, [] => .ok stack
  | stack, step :: rest =>
    match stack.perform env step with
    | .ok next => next.run env rest
    | .error stop => .error stop

inductive Evaluation where
  | value (x : Float) (zeroDivisions : Nat)
  | failed (m : Mishap)

namespace Evaluation

def amount : Evaluation → Float
  | value x _ => x
  | failed _ => 0

def isOk : Evaluation → Bool
  | value .. => true
  | failed _ => false

def zeroDivisionNote : String := "division by zero evaluated as 0"

def diagnostic : Evaluation → Option String
  | value _ 0 => none
  | value _ n => some ("; ".intercalate (List.replicate n zeroDivisionNote))
  | failed m => some m.message

end Evaluation

def Stack.finish (stack : Stack) : Evaluation :=
  match stack.values with
  | [] => .failed .empty
  | [x] => if x.isFinite then .value x stack.zeroDivisions else .failed .resultNotFinite
  | _ :: rest => .failed (.leftover rest.length)

def evaluate (formula : String) (env : Environment) : Outcome Evaluation :=
  let ts := tokens formula
  if balanced ts then
    match Stack.run env ⟨[], 0⟩ (polish ts) with
    | .ok stack => .ok stack.finish
    | .error (.mishap m) => .ok (.failed m)
    | .error (.fault f) => .error f
  else .ok (.failed .unbalanced)

def Evaluation.log (formula : String) : Evaluation → Log
  | .value .. => []
  | .failed m =>
    [.warning s!"Formula evaluation failed for {Text.quoted formula}: {m.message}"]

end Joinery.Formula
