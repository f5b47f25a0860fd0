import Joinery.Text.Blank
import Joinery.Text.Digit
import Joinery.Number.Decimal

/-!
Numbers as people type them: digits of any script, single underscores between digits, a sign, a
fraction, an exponent, or one of the words for infinity and for no number.
-/
namespace Joinery.Number
open Joinery.Text

/-- What may surround a typed number: every blank but the four separator controls. -/
def isMargin (c : Char) : Bool := isBlank c && !(0x1C ≤ c.toNat && c.toNat ≤ 0x1F)

def isPlainDigit (c : Char) : Bool := '0' ≤ c && c ≤ '9'

def plainDigit (c : Char) : Char :=
  match digitValue? c with
  | some d => Char.ofNat (0x30 + d)
  | none => c

/-- Removes underscores, each of which must stand between two digits. -/
def ungroup? : List Char → Option (List Char)
  | [] => some []
  | '_' :: _ => none
  | c :: '_' :: d :: rest =>
    if isPlainDigit c && isPlainDigit d then (ungroup? (d :: rest)).map (c :: ·) else none
  | c :: rest => (ungroup? rest).map (c :: ·)

def digitsValue (ds : List Char) : Nat := ds.foldl (fun n d => 10 * n + (d.toNat - 0x30)) 0

def readSign : List Char → Bool × List Char
  | '-' :: rest => (true, rest)
  | '+' :: rest => (false, rest)
  | rest => (false, rest)

def readDigits? (cs : List Char) : Option Nat :=
  if cs ≠ [] && cs.all isPlainDigit then some (digitsValue cs) else none

def readExponent? : List Char → Option Int
  | [] => some 0
  | c :: rest =>
    if c = 'e' ∨ c = 'E' then
      let (negative, ds) := readSign rest
      (readDigits? ds).map fun n => if negative then -n else n
    else none

def readFraction : List Char → List Char × List Char
  | '.' :: rest => (rest.takeWhile isPlainDigit, rest.dropWhile isPlainDigit)
  | rest => ([], rest)

def readDecimal? (cs : List Char) : Option Decimal :=
  let whole := cs.takeWhile isPlainDigit
  let (fraction, rest) := readFraction (cs.dropWhile isPlainDigit)
  if whole = [] ∧ fraction = [] then none
  else (readExponent? rest).map fun e => ⟨digitsValue (whole ++ fraction), e - fraction.length⟩

def infinity : Float := 1.0 / 0.0
def noNumber : Float := 0.0 / 0.0

def readWord? (cs : List Char) : Option Float :=
  match String.ofList (cs.map Char.toLower) with
  | "inf" | "infinity" => some infinity
  | "nan" => some noNumber
  | _ => none

def readUnsigned? (cs : List Char) : Option Float :=
  match readDecimal? cs with
  | some d => some d.toFloat
  | none => readWord? cs

def typedForm? (s : String) : Option (List Char) :=
  ungroup? ((trimChars isMargin s.toList).map plainDigit)

def readFloat? (s : String) : Option Float :=
  (typedForm? s).bind fun cs =>
    let (negative, rest) := readSign cs
    (readUnsigned? rest).map fun x => if negative then -x else x

/-- Whole numbers of more digits are not read. -/
def mostDigits : Nat := 4300

/-- The integer that a typed number stands for, which then has neither point nor exponent. -/
def readInt? (s : String) : Option Int :=
  (typedForm? s).bind fun cs =>
    let (negative, rest) := readSign cs
    if mostDigits < rest.length then none
    else (readDigits? rest).map fun n => if negative then -(n : Int) else n

end Joinery.Number
