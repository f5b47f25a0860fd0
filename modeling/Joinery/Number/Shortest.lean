import Joinery.Number.Exact
import Joinery.Number.Decimal

/-!
The shortest decimal number that reads back as a given double. Among the decimals of the least digit
count the one nearest to the double is taken, and of two equally near ones the even one.
All numbers here are counted in grains, where a grain is 10^-400 of a quarter unit: every double,
every midpoint between doubles and every decimal that can matter is a whole number of grains.
-/
namespace Joinery.Number
open Float.Model

/-- The reals that round to one double, whose own value is `middle`. -/
structure Basin where
  low : Nat
  middle : Nat
  high : Nat
  closed : Bool
  deriving DecidableEq, Repr

def finestPlace : Nat := 400

/-- The basin of `mantissa * 2 ^ exponent`. Below a power of two the doubles lie twice as close. -/
def basin (mantissa : Nat) (exponent : Int) : Basin :=
  let quarter := 2 ^ (exponent + 1074).toNat * 10 ^ finestPlace
  let below := if mantissa = 2 ^ 52 ∧ exponent ≠ -1074 then quarter else 2 * quarter
  { low := 4 * mantissa * quarter - below
    middle := 4 * mantissa * quarter
    high := 4 * mantissa * quarter + 2 * quarter
    closed := mantissa % 2 == 0 }

def Basin.holds (b : Basin) (n : Nat) : Bool :=
  if b.closed then b.low ≤ n && n ≤ b.high else b.low < n && n < b.high

/-- The grains in one step of the decimal grid whose place is `place - finestPlace`. -/
def gridStep (place : Nat) : Nat := 10 ^ place * 2 ^ 1076

/-- The best multiple of a grid step in the basin: one of the two neighbours of the middle. -/
def Basin.onGrid? (b : Basin) (place : Nat) : Option Nat :=
  let step := gridStep place
  let below := b.middle / step
  let rest := b.middle % step
  match b.holds (below * step), b.holds ((below + 1) * step) with
  | false, false => none
  | true, false => some below
  | false, true => some (below + 1)
  | true, true =>
    if 2 * rest < step then some below
    else if 2 * rest = step then some (below + below % 2)
    else some (below + 1)

/-- Goes down from a coarse grid to the first one with a point in the basin. -/
def Basin.shortestFrom (b : Basin) : Nat → Decimal
  | 0 => ⟨b.middle / gridStep 0, -(finestPlace : Int)⟩
  | place + 1 =>
    match b.onGrid? (place + 1) with
    | some n => ⟨n, (place + 1 : Nat) - (finestPlace : Int)⟩
    | none => b.shortestFrom place

def Basin.shortest (b : Basin) : Decimal :=
  b.shortestFrom (digitCount (b.middle / gridStep 0))

/-- The shortest decimal for the size of a double; zero stands for whatever is not finite. -/
def shortest (x : Float) : Decimal :=
  match x.toModel.unpack with
  | .finite _ mantissa exponent _ => (basin mantissa exponent).shortest
  | _ => ⟨0, 0⟩

end Joinery.Number
