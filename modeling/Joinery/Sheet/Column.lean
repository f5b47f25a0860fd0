import Joinery.Number.Exact
import Joinery.Number.Literal
import Joinery.Number.Written
import Joinery.Sheet

/-!
Columns of a sheet. All cells of a column that have a value decide together what the column holds, and
that decides how a single cell is shown and which number it stands for.

Seventeen digits of a number in a cell count, and its power of ten is applied to what they make in one
step, or in two below the normal doubles. So a long number may miss the nearest double, and one that is
too large is infinite.
-/
namespace Joinery.Sheet
open Number

def isCellBlank (c : Char) : Bool :=
  c == ' ' || c == '\t' || c == '\n' || c == '\x0b' || c == '\x0c' || c == '\r'

inductive Misfit where
  | beyond
  | notWhole
  deriving DecidableEq, Repr

def wholeWithin (least most : Int) (cell : String) : Except Misfit Int :=
  let (negative, cs) := readSign (cell.toList.dropWhile isCellBlank)
  let digits := cs.takeWhile isPlainDigit
  let n : Int := digitsValue digits
  let n := if negative then -n else n
  if digits = [] then .error .notWhole
  else if n < least || most < n then .error .beyond
  else if (cs.drop digits.length).all isCellBlank then .ok n
  else .error .notWhole

def isSignedBelow (cell : String) : Bool := (readSign (cell.toList.dropWhile isCellBlank)).1

def countedDigits : Nat := 17

/-- Powers of ten wrap around at 32 bits. -/
def powerBits : Nat := 32

def powerOfTen (n : Nat) : Float := .ofScientific 1 false n

def foldDigits (ds : List Char) : Float :=
  ds.foldl (fun x d => x * 10 + (d.toNat - 0x30).toFloat) 0

def scale (x : Float) (power : Int) : Float :=
  let power := power.bmod (2 ^ powerBits)
  if 308 < power then
    if x == 0 then 0 else if x < 0 then -infinity else infinity
  else if 0 < power then x * powerOfTen power.toNat
  else if power < -616 then 0
  else if power < -308 then x / powerOfTen (-308 - power).toNat / powerOfTen 308
  else x / powerOfTen (-power).toNat

def readPower? : List Char → Option (Int × List Char)
  | [] => some (0, [])
  | c :: rest =>
    if c = 'e' ∨ c = 'E' then
      let (negative, cs) := readSign rest
      let digits := (cs.takeWhile isPlainDigit).take countedDigits
      let n : Int := digitsValue digits
      if digits = [] then none else some (if negative then -n else n, cs.drop digits.length)
    else some (0, c :: rest)

def readDecimal? (cell : String) : Option Float :=
  let (negative, cs) := readSign (cell.toList.dropWhile isCellBlank)
  let whole := cs.takeWhile isPlainDigit
  let (fraction, rest) := readFraction (cs.drop whole.length)
  let counted := (whole ++ fraction).take countedDigits
  let x := if negative then -foldDigits counted else foldDigits counted
  if counted = [] then none
  else
    match readPower? rest with
    | some (power, rest) =>
      if rest.all isCellBlank then some (scale x (power + whole.length - counted.length)) else none
    | none => none

/-- The words for infinity stand without blanks, in letters of any case. -/
def readInfinity? (cell : String) : Option Float :=
  match String.ofList (cell.toList.map Char.toLower) with
  | "inf" | "+inf" | "infinity" | "+infinity" => some infinity
  | "-inf" | "-infinity" => some (-infinity)
  | _ => none

def readReal? (cell : String) : Option Float := (readDecimal? cell).or (readInfinity? cell)

inductive ColumnKind where
  | whole
  | real
  | flags
  | text
  deriving DecidableEq, Repr

def readFlag? (cell : String) : Option Bool :=
  match String.ofList (cell.toList.map Char.toLower) with
  | "true" => some true
  | "false" => some false
  | _ => none

def wideBits : Nat := 64

def leastSigned : Int := -2 ^ (wideBits - 1)
def mostSigned : Int := 2 ^ (wideBits - 1) - 1
def mostUnsigned : Int := 2 ^ wideBits - 1

namespace Column

def given (c : Column) : List String := c.filterMap id

def hasGap (c : Column) : Bool := c.any Option.isNone

def loose (c : Column) : ColumnKind :=
  if c.given.all fun cell => (readReal? cell).isSome then .real
  else if c.given.all fun cell => (readFlag? cell).isSome then .flags
  else .text

/-- Whole numbers past the signed bounds need cells that are all given and none with a minus sign. -/
def unsigned (c : Column) : ColumnKind :=
  match (c.given.filter fun cell => !isSignedBelow cell).mapM (wholeWithin 0 mostUnsigned) with
  | .error .notWhole => c.loose
  | .error .beyond => .text
  | .ok _ => if c.hasGap || c.given.any isSignedBelow then .text else .whole

/-- The first cell that is no whole number within the signed bounds decides how to go on. -/
def kind (c : Column) : ColumnKind :=
  match c.given.mapM (wholeWithin leastSigned mostSigned) with
  | .ok _ => .whole
  | .error .beyond => c.unsigned
  | .error .notWhole => c.loose

end Column

def wholeOf (cell : String) : Int := (wholeWithin leastSigned mostUnsigned cell).toOption.getD 0

/-- Beside missing cells whole numbers are doubles, and what rounds to the least one stands for a missing
cell. -/
def wholeText (gap : Bool) (n : Int) : String :=
  if gap then
    let x := nearest n 0
    if x == nearest leastSigned 0 then "" else inFull x
  else toString n

def shown (kind : ColumnKind) (gap : Bool) : Option String → String
  | none => ""
  | some cell =>
    match kind with
    | .whole => wholeText gap (wholeOf cell)
    | .real => inFull ((readReal? cell).getD 0)
    | .flags => if (readFlag? cell).getD false then "True" else "False"
    | .text => cell

def Column.texts (c : Column) : List String :=
  let kind := c.kind
  let gap := c.hasGap
  c.map (shown kind gap)

def isLongWhole (cell : String) : Bool :=
  cell.toList.all (fun c => isCellBlank c || isPlainDigit c || c == '+' || c == '-') &&
    mostDigits < (cell.toList.filter isPlainDigit).length

/-- The number that a cell stands for, flags being one and zero. Among texts a cell that is a number
counts, unless it is a whole one of too many digits. -/
def amount? (kind : ColumnKind) (cell : String) : Option Float :=
  match kind with
  | .whole => some (nearest (wholeOf cell) 0)
  | .real => readReal? cell
  | .flags => (readFlag? cell).map fun b => if b then 1 else 0
  | .text => if isLongWhole cell then none else readReal? cell

def Column.amounts (c : Column) : List (Option Float) :=
  let kind := c.kind
  c.map fun cell => cell.bind (amount? kind)

end Joinery.Sheet
