import Joinery.Arithmetic

/-!
Finite doubles as exact numbers. Every finite double is a whole number of units, where a unit is the
smallest positive double, 2^-1074. Sums are taken exactly and rounded once.
-/
namespace Joinery.Number
open Float.Model

/-- The double nearest to `mantissa * 2 ^ exponent`, ties to even, infinite past the largest one. -/
def nearest (mantissa exponent : Int) : Float :=
  .ofModel (.pack (.normalize .binary64 mantissa exponent .positive))

def unitsPerOne : Int := 2 ^ 1074

/-- The exact value in units; 0 for an infinity and for no number at all. -/
def units (x : Float) : Int :=
  match x.toModel.unpack with
  | .finite sign mantissa exponent _ => sign.apply (mantissa * 2 ^ (exponent + 1074).toNat)
  | _ => 0

def ofUnits (n : Int) : Float := nearest n (-1074)

def isWhole (x : Float) : Bool := x.isFinite && units x % unitsPerOne == 0

def wholePart (x : Float) : Int := units x / unitsPerOne

/-- `none` when the integer lies past the largest double. -/
def ofInt? (n : Int) : Option Float :=
  let x := nearest n 0
  if x.isFinite then some x else none

/-- The double nearest to the exact sum; `none` when the sum lies past the largest double. -/
def sum? (xs : List Float) : Option Float :=
  let x := ofUnits (xs.map units).sum
  if x.isFinite then some x else none

end Joinery.Number
