import Joinery.Fault
import Joinery.Number.Hundredths
import Joinery.Number.Literal

/-!
Loose values read as numbers. A text counts as the number typed in it.
-/
namespace Joinery
open Number

/-- A whole number past the largest double has no double. -/
def Numeral.toFloat : Numeral → Outcome Float
  | .whole n =>
    match ofInt? n with
    | some x => .ok x
    | none => .error .integerTooLarge
  | .real x => .ok x

namespace Datum

def toFloat : Datum → Outcome Float
  | bool b => .ok (if b then 1 else 0)
  | number n => n.toFloat
  | text s =>
    match readFloat? s with
    | some x => .ok x
    | none => .error (.notTypedNumber s)
  | null | list _ | object _ => .error .wrongType

/-- The finite double that a number or a text stands for, if it stands for one. -/
def finite? : Datum → Outcome (Option Float)
  | number n => n.toFloat.map fun x => if x.isFinite then some x else none
  | text s => .ok ((readFloat? (Text.trim s)).filter Float.isFinite)
  | null | bool _ | list _ | object _ => .ok none

def hundredths (d : Datum) : Outcome Float :=
  d.finite?.map fun x => (x.map roundHundredths).getD 0

def nonNegative (field : String) (d : Datum) : Outcome Float :=
  d.finite?.bind fun
    | some x => if x < 0 then refuse (.notNonNegative field d) else .ok x
    | none => refuse (.notNonNegative field d)

def wholeAtLeast (least : Int) (field : String) (d : Datum) : Outcome Int :=
  d.finite?.bind fun
    | some x =>
      if isWhole x && least ≤ wholePart x then .ok (wholePart x)
      else refuse (.notWhole field least d)
    | none => refuse (.notWhole field least d)

def count (least : Nat) (field : String) (d : Datum) : Outcome Nat :=
  (d.wholeAtLeast least field).map Int.toNat

/-- What a value consists of: the characters of a text, the items of a list, the names of an object. -/
def elements : Datum → Outcome (List Datum)
  | text s => .ok (s.toList.map fun c => text (.singleton c))
  | list items => .ok items
  | object fields => .ok (fields.map fun entry => text entry.1)
  | null | bool _ | number _ => .error .wrongType

end Datum
end Joinery
