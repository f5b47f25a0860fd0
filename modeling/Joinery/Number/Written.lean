import Joinery.Number.Shortest

/-!
How numbers are written: in full, to six significant digits, and with two fixed places.
-/
namespace Joinery.Number

/-- Numbers of at least 10^-4 and below `10 ^ positionalBelow` are written without an exponent. A
whole number is followed by `.0` if `keepPoint` says so. -/
structure Style where
  positionalBelow : Int
  keepPoint : Bool

def zeroChars (n : Int) : List Char := List.replicate n.toNat '0'

def exponentChars (n : Int) : List Char :=
  let ds := digitChars n.natAbs
  (if n < 0 then '-' else '+') :: (List.replicate (2 - ds.length) '0' ++ ds)

def Style.layout (style : Style) (ds : List Char) (point : Int) : List Char :=
  let length : Int := ds.length
  if -4 < point ∧ point ≤ style.positionalBelow then
    if point ≤ 0 then '0' :: '.' :: (zeroChars (-point) ++ ds)
    else if length ≤ point then
      ds ++ zeroChars (point - length) ++ (if style.keepPoint then ['.', '0'] else [])
    else ds.take point.toNat ++ '.' :: ds.drop point.toNat
  else
    let mantissa := match ds with
      | [] => []
      | [d] => [d]
      | d :: rest => d :: '.' :: rest
    mantissa ++ 'e' :: exponentChars (point - 1)

def isNegative (x : Float) : Bool := x.toBits >>> 63 == 1

def signChars (x : Float) : List Char := if isNegative x then ['-'] else []

def Style.write (style : Style) (x : Float) (digits : Float → List Char × Int) : String :=
  if x.isNaN then "nan"
  else if x.isInf then if isNegative x then "-inf" else "inf"
  else
    let (ds, point) := digits x
    .ofList (signChars x ++ style.layout ds point)

def shortestDigits (x : Float) : List Char × Int :=
  let d := shortest x
  let ds := digitChars d.digits
  (ds, ds.length + d.exponent)

def dropTrailingZeros (ds : List Char) : List Char :=
  match (ds.reverse.dropWhile (· == '0')).reverse with
  | [] => ['0']
  | kept => kept

/-- The six leading digits of the exact value, a half going to the even neighbour. -/
def sixDigits (x : Float) : List Char × Int :=
  let size := (units x).natAbs
  if size = 0 then (['0'], 1)
  else
    let grains := size * 10 ^ finestPlace
    let place := digitCount (grains / 2 ^ 1074)
    let rounded := roundHalfEven grains (2 ^ 1074 * 10 ^ (place - 6))
    let ds := digitChars rounded
    (dropTrailingZeros ds, (place : Int) - finestPlace + (ds.length - 6 : Nat))

/-- The shortest text that reads back as the same double. -/
def inFull (x : Float) : String := Style.write ⟨16, true⟩ x shortestDigits

def toSixDigits (x : Float) : String := Style.write ⟨6, false⟩ x sixDigits

/-- Two places after the point, a half of the exact value going to the even neighbour. -/
def toTwoPlaces (x : Float) : String :=
  if x.isNaN then "nan"
  else if x.isInf then if isNegative x then "-inf" else "inf"
  else
    let n := roundHalfEven ((units x).natAbs * 100) (2 ^ 1074)
    let places := digitChars (n % 100)
    .ofList (signChars x ++ digitChars (n / 100) ++
      '.' :: (List.replicate (2 - places.length) '0' ++ places))

end Joinery.Number
