import Joinery.Arithmetic

/-!
Unsigned decimal numbers and their rounding.
-/
namespace Joinery.Number

/-- The number `digits * 10 ^ exponent`. -/
structure Decimal where
  digits : Nat
  exponent : Int
  deriving DecidableEq, Repr

def digitChars (n : Nat) : List Char := Nat.toDigits 10 n

def digitCount (n : Nat) : Nat := (digitChars n).length

def roundHalfUp (num den : Nat) : Nat := (2 * num + den) / (2 * den)

def roundHalfEven (num den : Nat) : Nat :=
  let q := num / den
  let twice := 2 * (num % den)
  if twice < den then q
  else if twice = den then q + q % 2
  else q + 1

def Decimal.toFloat (d : Decimal) : Float :=
  .ofScientific d.digits (d.exponent < 0) d.exponent.natAbs

/-- The number of hundredths in a decimal number, a half going up. -/
def Decimal.hundredths (d : Decimal) : Nat :=
  if 0 ≤ d.exponent + 2 then d.digits * 10 ^ (d.exponent + 2).toNat
  else roundHalfUp d.digits (10 ^ (-(d.exponent + 2)).toNat)

end Joinery.Number
