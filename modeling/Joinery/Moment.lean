import Joinery.Moment.Calendar
import Joinery.Number.Literal

/-!
Moments: a day, a time of day and, if it is known, the distance from universal time. Their written
form is that of ISO 8601; more forms are read than are written.
-/
namespace Joinery
open Number

def microsPerSecond : Int := 1000000

structure Moment where
  date : Day
  hour : Nat
  minute : Nat
  second : Nat
  micro : Nat
  /-- Microseconds ahead of universal time. -/
  ahead : Option Int
  deriving DecidableEq, Repr

namespace Moment

/-- Microseconds since the calendar began, by the clock that shows the moment. -/
def shownMicros (m : Moment) : Int :=
  (((m.date.number * 24 + m.hour) * 60 + m.minute) * 60 + m.second : Nat) * microsPerSecond + m.micro

/-- Moments agree if they are the same instant. One whose distance from universal time is not known
agrees only with its like. -/
def agrees (m n : Moment) : Bool :=
  m.ahead.isSome == n.ahead.isSome &&
    m.shownMicros - m.ahead.getD 0 == n.shownMicros - n.ahead.getD 0

instance : BEq Moment := ⟨agrees⟩

def padded (width n : Nat) : String :=
  let ds := digitChars n
  .ofList (List.replicate (width - ds.length) '0' ++ ds)

def fractionText (micro : Nat) : String := if micro = 0 then "" else "." ++ padded 6 micro

def aheadText : Option Int → String
  | none => ""
  | some ahead =>
    let seconds := ahead.natAbs / 1000000
    let micro := ahead.natAbs % 1000000
    let minutes := (if ahead < 0 then "-" else "+") ++ padded 2 (seconds / 3600) ++ ":" ++
      padded 2 (seconds / 60 % 60)
    if seconds % 60 = 0 ∧ micro = 0 then minutes
    else minutes ++ ":" ++ padded 2 (seconds % 60) ++ fractionText micro

def text (m : Moment) : String :=
  padded 4 m.date.year ++ "-" ++ padded 2 m.date.month ++ "-" ++ padded 2 m.date.day ++ "T" ++
    padded 2 m.hour ++ ":" ++ padded 2 m.minute ++ ":" ++ padded 2 m.second ++
    fractionText m.micro ++ aheadText m.ahead

def takeNumber? (count : Nat) (cs : List Char) : Option (Nat × List Char) :=
  let ds := cs.take count
  if ds.length = count ∧ ds.all isPlainDigit then some (digitsValue ds, cs.drop count) else none

/-- Where the date ends, judged by its fifth character and what stands around it. -/
def dateLength (cs : List Char) : Nat :=
  if cs.length = 7 then 7
  else if cs[4]? = some '-' then
    if cs[5]? = some 'W' then
      if cs[8]? = some '-' ∧ !(cs[10]?.any isPlainDigit) then 10 else 8
    else 10
  else if cs[4]? = some 'W' then
    let stop := 7 + ((cs.drop 7).takeWhile isPlainDigit).length
    if stop < 9 then stop else if stop % 2 = 0 then 7 else 8
  else 8

def skipHyphen? (needed : Bool) (cs : List Char) : Option (List Char) :=
  if needed then
    match cs with
    | '-' :: rest => some rest
    | _ => none
  else some cs

/-- A date by week and weekday; a week alone stands for its Monday. -/
def readWeek? (hyphens : Bool) (year : Nat) (cs : List Char) : Option Day := do
  let (week, rest) ← takeNumber? 2 cs
  if rest.isEmpty then Day.ofWeek? year week 1
  else
    let rest ← skipHyphen? hyphens rest
    let (weekday, _) ← takeNumber? 1 rest
    Day.ofWeek? year week weekday

def readDay? (cs : List Char) : Option Day := do
  let (year, rest) ← takeNumber? 4 cs
  let hyphens := rest.head? = some '-'
  let rest ← skipHyphen? hyphens rest
  match rest with
  | 'W' :: rest => readWeek? hyphens year rest
  | _ =>
    let (month, rest) ← takeNumber? 2 rest
    let rest ← skipHyphen? hyphens rest
    let (day, _) ← takeNumber? 2 rest
    some ⟨year, month, day⟩

/-- A time of day or a distance, and whether it stopped short of the end of the text. -/
structure Clock where
  hour : Nat
  minute : Nat
  second : Nat
  micro : Nat
  short : Bool

/-- A fraction of a second, of which six digits count. -/
def readFraction? (cs : List Char) (more : Bool) : Option (Nat × Bool) :=
  let counted := min 6 cs.length
  (takeNumber? counted cs).map fun (n, rest) =>
    (n * 10 ^ (6 - counted), more || !(rest.dropWhile isPlainDigit).isEmpty)

/-- The hour, the minute and the second as far as they are given; `left` of them are still to come.
A plain character alone at the end is passed over and reported. -/
def readParts? (more : Bool) : Nat → Option Bool → List Nat → List Char → Option (List Nat × Nat × Bool)
  | 0, _, done, cs => (readFraction? cs more).map fun (micro, short) => (done, micro, short)
  | left + 1, colons, done, cs => do
    let (n, rest) ← takeNumber? 2 cs
    let done := done ++ [n]
    match rest with
    | [] => some (done, 0, more)
    | [c] => if c.toNat < 0x80 then some (done, 0, true) else none
    | c :: after =>
      let colons := colons.getD (c == ':')
      if colons && c == ':' then readParts? more left (some colons) done after
      else if c == '.' || c == ',' then
        (readFraction? after more).map fun (micro, short) => (done, micro, short)
      else if !colons then readParts? more left (some colons) done rest
      else none

def readClock? (cs : List Char) (more : Bool) : Option Clock :=
  (readParts? more 3 none [] cs).map fun (parts, micro, short) =>
    ⟨parts.getD 0 0, parts.getD 1 0, parts.getD 2 0, micro, short⟩

def startsZone (c : Char) : Bool := c == '+' || c == '-' || c == 'Z'

/-- The distance that a zone states. A distance of no whole second is none. -/
def readZone? : List Char → Option Int
  | ['Z'] => some 0
  | sign :: rest =>
    if sign = 'Z' then none
    else
      match readClock? rest false with
      | some ⟨hour, minute, second, micro, false⟩ =>
        let seconds : Int := (hour * 3600 + minute * 60 + second : Nat)
        let size := if seconds = 0 then 0 else seconds * microsPerSecond + micro
        some (if sign = '-' then -size else size)
      | _ => none
  | [] => none

def readTime? (cs : List Char) : Option (Clock × Option Int) :=
  let zone := cs.dropWhile fun c => !startsZone c
  match readClock? (cs.takeWhile fun c => !startsZone c) (!zone.isEmpty) with
  | none => none
  | some clock =>
    if zone.isEmpty then if clock.short then none else some (clock, none)
    else (readZone? zone).map fun ahead => (clock, some ahead)

def isValid (m : Moment) : Bool :=
  m.date.isValid && m.hour < 24 && m.minute < 60 && m.second < 60 &&
    m.ahead.all fun ahead => ahead.natAbs < 86400 * 1000000

def midnight : Clock := ⟨0, 0, 0, 0, false⟩

/-- The time behind a date. Any one character may part the two. -/
def readRest? : List Char → Option (Clock × Option Int)
  | [] => some (midnight, none)
  | _ :: rest => readTime? rest

def read? (s : String) : Option Moment := do
  let cs := s.toList
  if cs.length < 7 then none
  else
    let length := dateLength cs
    let date ← readDay? (cs.take length)
    let (clock, ahead) ← readRest? (cs.drop length)
    let m : Moment := ⟨date, clock.hour, clock.minute, clock.second, clock.micro, ahead⟩
    if m.isValid then some m else none

end Moment
end Joinery
