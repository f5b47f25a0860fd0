import Joinery.Number.Exact
import Joinery.Number.Literal

/-!
Powers of doubles. The sign and every case with a zero, an infinity or no number follow fixed rules;
only the size of a finite power is left to the machine.
-/
namespace Joinery.Number

inductive PowerFault where
  | domain
  | range
  deriving DecidableEq, Repr

def PowerFault.message : PowerFault → String
  | .domain => "math domain error"
  | .range => "math range error"

def isOddWhole (x : Float) : Bool := isWhole x && units x / unitsPerOne % 2 == 1

def unboundedPower (a b : Float) : Float :=
  if a.isNaN then if b == 0 then 1 else a
  else if b.isNaN then if a == 1 then 1 else b
  else if a.isInf then
    if 0 < b then if isOddWhole b then a else a.abs
    else if b == 0 then 1
    else if isOddWhole b && a < 0 then -0.0 else 0
  else if a.abs == 1 then 1
  else if 0 < b && 1 < a.abs then infinity
  else if b < 0 && a.abs < 1 then infinity
  else 0

/-- The power of two positive sizes, past which there is nothing to hold it. -/
def boundedSize (a b : Float) : Except PowerFault Float :=
  let size := (Float.pow a.abs b).abs
  if size.isNaN then .error .domain
  else if size.isInf then .error .range
  else .ok size

def power (a b : Float) : Except PowerFault Float :=
  if !a.isFinite || !b.isFinite then .ok (unboundedPower a b)
  else if b == 0 then .ok 1
  else if a == 0 then
    if b < 0 then .error .domain
    else .ok (if isOddWhole b then a else 0)
  else if a < 0 then
    if !isWhole b then .error .domain
    else (boundedSize a b).map fun size => if isOddWhole b then -size else size
  else boundedSize a b

end Joinery.Number
