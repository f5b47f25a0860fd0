import Joinery.Fault
import Joinery.Keyed
import Joinery.Number.Literal

/-!
JSON texts read into loose values. Besides the standard's forms the words `NaN`, `Infinity` and
`-Infinity` are numbers, and of a repeated name the last value counts. A number without fraction and
exponent is whole. Whole numbers of very many digits and very deeply nested values are refused, each where
it begins. Every call reads at least one character or ends, so the length of the text bounds the depth of
calls.
-/
namespace Joinery.Json
open Number

inductive Refusal where
  | malformed
  | tooManyDigits (count : Nat)
  | tooDeep
  deriving DecidableEq, Repr

def Refusal.ofOption : Option α → Except Refusal α
  | some a => .ok a
  | none => .error .malformed

def isSpace (c : Char) : Bool := c == ' ' || c == '\t' || c == '\n' || c == '\r'

def skipSpace (cs : List Char) : List Char := cs.dropWhile isSpace

def hexValue? (c : Char) : Option Nat :=
  if '0' ≤ c ∧ c ≤ '9' then some (c.toNat - 0x30)
  else if 'a' ≤ c ∧ c ≤ 'f' then some (c.toNat - 0x61 + 10)
  else if 'A' ≤ c ∧ c ≤ 'F' then some (c.toNat - 0x41 + 10)
  else none

def readUnit? : List Char → Option (Nat × List Char)
  | a :: b :: c :: d :: rest => do
    let a ← hexValue? a
    let b ← hexValue? b
    let c ← hexValue? c
    let d ← hexValue? d
    some (((a * 16 + b) * 16 + c) * 16 + d, rest)
  | _ => none

def isHighHalf (n : Nat) : Bool := 0xD800 ≤ n && n ≤ 0xDBFF
def isLowHalf (n : Nat) : Bool := 0xDC00 ≤ n && n ≤ 0xDFFF

/-- No character is half of a pair; the replacement character stands for a half on its own. -/
def charOfUnit (n : Nat) : Char :=
  if isHighHalf n || isLowHalf n then '\uFFFD' else Char.ofNat n

def readLowHalf? : List Char → Option (Nat × List Char)
  | '\\' :: 'u' :: rest =>
    (readUnit? rest).filter fun (low, _) => isLowHalf low
  | _ => none

def readEscapedUnit? (cs : List Char) : Option (Char × List Char) :=
  (readUnit? cs).map fun (n, rest) =>
    if isHighHalf n then
      match readLowHalf? rest with
      | some (low, rest) =>
        (Char.ofNat (0x10000 + (n - 0xD800) * 0x400 + (low - 0xDC00)), rest)
      | none => (charOfUnit n, rest)
    else (charOfUnit n, rest)

def readEscape? : List Char → Option (Char × List Char)
  | '"' :: rest => some ('"', rest)
  | '\\' :: rest => some ('\\', rest)
  | '/' :: rest => some ('/', rest)
  | 'b' :: rest => some ('\x08', rest)
  | 'f' :: rest => some ('\x0c', rest)
  | 'n' :: rest => some ('\n', rest)
  | 'r' :: rest => some ('\r', rest)
  | 't' :: rest => some ('\t', rest)
  | 'u' :: rest => readEscapedUnit? rest
  | _ => none

/-- The rest of a string behind its opening quote; `done` holds what was read, the last first. -/
def readStringFrom : Nat → List Char → List Char → Option (String × List Char)
  | 0, _, _ => none
  | _, _, [] => none
  | _ + 1, done, '"' :: rest => some (.ofList done.reverse, rest)
  | fuel + 1, done, '\\' :: rest =>
    match readEscape? rest with
    | some (c, rest) => readStringFrom fuel (c :: done) rest
    | none => none
  | fuel + 1, done, c :: rest =>
    if c.toNat < 0x20 then none else readStringFrom fuel (c :: done) rest

def takeDigits (cs : List Char) : List Char × List Char :=
  (cs.takeWhile isPlainDigit, cs.dropWhile isPlainDigit)

/-- The digits before the point: a zero alone, or no zero in front. -/
def readWhole? : List Char → Option (List Char × List Char)
  | '0' :: rest => some (['0'], rest)
  | c :: rest => if isPlainDigit c then some (takeDigits (c :: rest)) else none
  | [] => none

def readFractionDigits (cs : List Char) : List Char × List Char :=
  match cs with
  | '.' :: rest =>
    match takeDigits rest with
    | ([], _) => ([], cs)
    | found => found
  | _ => ([], cs)

def readExponentPart (cs : List Char) : Option Int × List Char :=
  match cs with
  | e :: rest =>
    if e = 'e' ∨ e = 'E' then
      let (negative, digits) := readSign rest
      match takeDigits digits with
      | ([], _) => (none, cs)
      | (ds, rest) =>
        let n : Int := digitsValue ds
        (some (if negative then -n else n), rest)
    else (none, cs)
  | [] => (none, cs)

def signed (negative : Bool) (x : Float) : Float := if negative then -x else x

def readNumber (negative : Bool) (cs : List Char) : Except Refusal (Numeral × List Char) :=
  (Refusal.ofOption (readWhole? cs)).bind fun (whole, rest) =>
    let (fraction, rest) := readFractionDigits rest
    let (exponent, rest) := readExponentPart rest
    if fraction = [] ∧ exponent = none then
      let n : Int := digitsValue whole
      if mostDigits < whole.length then .error (.tooManyDigits whole.length)
      else .ok (.whole (if negative then -n else n), rest)
    else
      let d : Decimal := ⟨digitsValue (whole ++ fraction), exponent.getD 0 - fraction.length⟩
      .ok (.real (signed negative d.toFloat), rest)

def after? (word : String) (cs : List Char) : Option (List Char) :=
  if word.toList.isPrefixOf cs then some (cs.drop word.length) else none

def readWord? (cs : List Char) : Option (Datum × List Char) :=
  [("null", .null), ("true", .bool true), ("false", .bool false), ("NaN", .real noNumber),
    ("Infinity", .real infinity), ("-Infinity", .real (-infinity))].findSome?
      fun (word, d) => (after? word cs).map (d, ·)

def readScalar (cs : List Char) : Except Refusal (Datum × List Char) :=
  match readWord? cs with
  | some found => .ok found
  | none =>
    match cs with
    | '-' :: rest => (readNumber true rest).map fun (n, rest) => (.number n, rest)
    | _ => (readNumber false cs).map fun (n, rest) => (.number n, rest)

def mostLevels : Nat := 990

mutual

/-- The value at the front of the text, in which lists and objects may go `levels` deep. -/
def readValue : Nat → Nat → List Char → Except Refusal (Datum × List Char)
  | 0, _, _ => .error .malformed
  | _ + 1, _, '"' :: rest =>
    Refusal.ofOption
      ((readStringFrom (rest.length + 1) [] rest).map fun (s, rest) => (.text s, rest))
  | _ + 1, 0, '[' :: _ | _ + 1, 0, '{' :: _ => .error .tooDeep
  | fuel + 1, levels + 1, '[' :: rest =>
    match skipSpace rest with
    | ']' :: rest => .ok (.list [], rest)
    | rest => readItems fuel levels [] rest
  | fuel + 1, levels + 1, '{' :: rest =>
    match skipSpace rest with
    | '}' :: rest => .ok (.object [], rest)
    | rest => readFields fuel levels [] rest
  | _ + 1, _, cs => readScalar cs

def readItems : Nat → Nat → List Datum → List Char → Except Refusal (Datum × List Char)
  | 0, _, _, _ => .error .malformed
  | fuel + 1, levels, done, cs =>
    match readValue fuel levels cs with
    | .error refusal => .error refusal
    | .ok (d, rest) =>
      match skipSpace rest with
      | ',' :: rest => readItems fuel levels (d :: done) (skipSpace rest)
      | ']' :: rest => .ok (.list (d :: done).reverse, rest)
      | _ => .error .malformed

def readFields :
    Nat → Nat → List (String × Datum) → List Char → Except Refusal (Datum × List Char)
  | 0, _, _, _ => .error .malformed
  | fuel + 1, levels, done, '"' :: cs =>
    match readStringFrom (cs.length + 1) [] cs with
    | none => .error .malformed
    | some (name, rest) =>
      match skipSpace rest with
      | ':' :: rest =>
        match readValue fuel levels (skipSpace rest) with
        | .error refusal => .error refusal
        | .ok (d, rest) =>
          match skipSpace rest with
          | ',' :: rest => readFields fuel levels ((name, d) :: done) (skipSpace rest)
          | '}' :: rest => .ok (.object (Keyed.ofPairs ((name, d) :: done).reverse), rest)
          | _ => .error .malformed
      | _ => .error .malformed
  | _ + 1, _, _, _ => .error .malformed

end

def readWhole (text : String) : Except Refusal Datum :=
  match readValue (2 * text.length + 2) mostLevels (skipSpace text.toList) with
  | .ok (d, rest) => if (skipSpace rest).isEmpty then .ok d else .error .malformed
  | .error refusal => .error refusal

def read (malformed : Fault) (text : String) : Outcome Datum :=
  (readWhole text).mapError fun
    | .malformed => malformed
    | .tooManyDigits count => .tooManyDigits count
    | .tooDeep => .nestedTooDeep

end Joinery.Json
