import Joinery.Number.Shortest

/-!
Rounding to hundredths. A double is rounded as its shortest decimal, a half going away from zero, and
the answer is the double nearest to the rounded decimal, never a negative zero. A result of more than
28 digits cannot be held, and 0 stands for it.
-/
namespace Joinery.Number

def hundredthsLimit : Nat := 10 ^ 28

/-- The hundredths of a size, with what cannot be held counted as none. -/
def heldHundredths (x : Float) : Nat :=
  let n := (shortest x).hundredths
  if n < hundredthsLimit then n else 0

def roundHundredths (x : Float) : Float :=
  let size := (Decimal.mk (heldHundredths x) (-2)).toFloat
  if x < 0 && heldHundredths x ≠ 0 then -size else size

end Joinery.Number
