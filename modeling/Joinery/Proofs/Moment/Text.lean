import Joinery.Moment
import Joinery.Proofs.Text.Runs

/-!
Moments written and read back. What is written is read as the same moment, except that a distance
from universal time of less than a second is read as none.
-/
namespace Joinery
open Number

structure Moment.Valid (m : Moment) : Prop where
  fields : m.isValid = true
  micro : m.micro < 1000000

namespace Moment

def paddedChars (width n : Nat) : List Char :=
  List.replicate (width - (digitChars n).length) '0' ++ digitChars n

theorem padded_toList (width n : Nat) : (padded width n).toList = paddedChars width n := by
  simp only [padded, paddedChars, String.toList_ofList]

theorem isPlainDigit_of_isDigit {c : Char} (digit : c.isDigit = true) : isPlainDigit c = true := by
  simp only [Char.isDigit, Bool.and_eq_true, decide_eq_true_eq] at digit
  simp only [isPlainDigit, Bool.and_eq_true, decide_eq_true_eq]
  exact ⟨digit.1, digit.2⟩

theorem plain_of_mem_padded {width n : Nat} {c : Char} (member : c ∈ paddedChars width n) :
    isPlainDigit c = true := by
  rcases List.mem_append.mp member with zero | digit
  · rw [(List.mem_replicate.mp zero).2]
    decide
  · exact isPlainDigit_of_isDigit (Nat.isDigit_of_mem_toDigits (by decide) (by decide) digit)

theorem padded_length {width n : Nat} (positive : 0 < width) (fits : n < 10 ^ width) :
    (paddedChars width n).length = width := by
  have digits : (digitChars n).length ≤ width :=
    (Nat.length_toDigits_le_iff (by decide) positive).mpr fits
  simp only [paddedChars, List.length_append, List.length_replicate]
  omega

theorem digitsValue_padded (width n : Nat) : digitsValue (paddedChars width n) = n := by
  change Nat.ofDigitChars 10 (paddedChars width n) 0 = n
  rw [paddedChars, Nat.ofDigitChars_append, Nat.ofDigitChars_replicate_zero, Nat.mul_zero]
  exact Nat.ofDigitChars_ten_toDigits

theorem takeNumber?_padded {width n : Nat} (positive : 0 < width) (fits : n < 10 ^ width)
    (rest : List Char) : takeNumber? width (paddedChars width n ++ rest) = some (n, rest) := by
  have length := padded_length positive fits
  have taken : (paddedChars width n ++ rest).take width = paddedChars width n :=
    List.take_left' length
  have dropped : (paddedChars width n ++ rest).drop width = rest := List.drop_left' length
  have plain : (paddedChars width n).all isPlainDigit = true :=
    List.all_eq_true.mpr fun c member => plain_of_mem_padded member
  simp only [takeNumber?, taken, dropped]
  rw [if_pos ⟨length, plain⟩, digitsValue_padded]

/-! The parts of a clock are read one after the other, each with the colon or the point behind it.
-/

theorem readParts?_colon {more : Bool} {left n : Nat} {colons : Option Bool} {done : List Nat}
    {after : List Char} (fits : n < 10 ^ 2) (some : after ≠ []) (start : colons.getD true = true) :
    readParts? more (left + 1) colons done (paddedChars 2 n ++ ':' :: after) =
      readParts? more left (.some true) (done ++ [n]) after := by
  obtain ⟨c, rest, rfl⟩ := List.exists_cons_of_ne_nil some
  rw [readParts?, takeNumber?_padded (by decide) fits]
  simp [start]

theorem readParts?_end {more : Bool} {left n : Nat} {colons : Option Bool} {done : List Nat}
    (fits : n < 10 ^ 2) :
    readParts? more (left + 1) colons done (paddedChars 2 n) = some (done ++ [n], 0, more) := by
  have read := takeNumber?_padded (by decide) fits []
  rw [List.append_nil] at read
  rw [readParts?, read]
  rfl

theorem readParts?_point {more : Bool} {left n micro : Nat} {done : List Nat}
    (fits : n < 10 ^ 2) (fitsMicro : micro < 10 ^ 6) :
    readParts? more (left + 1) (some true) done (paddedChars 2 n ++ '.' :: paddedChars 6 micro) =
      some (done ++ [n], micro, more) := by
  have read := takeNumber?_padded (by decide) fitsMicro []
  have length : (paddedChars 6 micro).length = 6 := padded_length (by decide) fitsMicro
  have fraction : readFraction? (paddedChars 6 micro) more = some (micro, more) := by
    rw [List.append_nil] at read
    simp [readFraction?, length, read]
  obtain ⟨c, d, rest, digits⟩ : ∃ c d rest, paddedChars 6 micro = c :: d :: rest := by
    match paddedChars 6 micro, length with
    | c :: d :: rest, _ => exact ⟨c, d, rest, rfl⟩
  rw [readParts?, takeNumber?_padded (by decide) fits]
  rw [digits] at fraction ⊢
  simp [fraction]

def fractionChars (micro : Nat) : List Char :=
  if micro = 0 then [] else '.' :: paddedChars 6 micro

def clockChars (hour minute second micro : Nat) : List Char :=
  paddedChars 2 hour ++ ':' :: (paddedChars 2 minute ++
    ':' :: (paddedChars 2 second ++ fractionChars micro))

theorem padded_ne_nil (width n : Nat) : paddedChars width n ≠ [] := by
  simp [paddedChars, digitChars, Nat.toDigits_ne_nil]

theorem readClock?_clockChars {hour minute second micro : Nat} (more : Bool) (hours : hour < 10 ^ 2)
    (minutes : minute < 10 ^ 2) (seconds : second < 10 ^ 2) (micros : micro < 10 ^ 6) :
    readClock? (clockChars hour minute second micro) more =
      some ⟨hour, minute, second, micro, more⟩ := by
  rw [readClock?, clockChars, readParts?_colon hours (by simp) rfl,
    readParts?_colon minutes (by simp [padded_ne_nil]) rfl, fractionChars]
  split
  · rename_i none
    rw [List.append_nil, readParts?_end seconds, none]
    rfl
  · rw [readParts?_point seconds micros]
    rfl

theorem readClock?_short {hour minute : Nat} (hours : hour < 10 ^ 2) (minutes : minute < 10 ^ 2) :
    readClock? (paddedChars 2 hour ++ ':' :: paddedChars 2 minute) false =
      some ⟨hour, minute, 0, 0, false⟩ := by
  rw [readClock?, readParts?_colon hours (padded_ne_nil 2 minute) rfl, readParts?_end minutes]
  rfl

def settleAhead (ahead : Int) : Int := if ahead.natAbs < 1000000 then 0 else ahead

def settle (m : Moment) : Moment := { m with ahead := m.ahead.map settleAhead }

def signChar (ahead : Int) : Char := if ahead < 0 then '-' else '+'

def distanceChars (ahead : Int) : List Char :=
  let seconds := ahead.natAbs / 1000000
  let micro := ahead.natAbs % 1000000
  if seconds % 60 = 0 ∧ micro = 0 then
    paddedChars 2 (seconds / 3600) ++ ':' :: paddedChars 2 (seconds / 60 % 60)
  else clockChars (seconds / 3600) (seconds / 60 % 60) (seconds % 60) micro

theorem fractionText_toList (micro : Nat) : (fractionText micro).toList = fractionChars micro := by
  unfold fractionText fractionChars
  split
  · rfl
  · rw [String.toList_append, padded_toList]
    rfl

theorem aheadText_toList (ahead : Int) :
    (aheadText (some ahead)).toList = signChar ahead :: distanceChars ahead := by
  have sign : (if ahead < 0 then "-" else "+").toList = [signChar ahead] := by
    unfold signChar
    split <;> rfl
  simp only [aheadText, distanceChars, clockChars]
  split <;> simp [sign, padded_toList, fractionText_toList]

theorem readClock?_distance {ahead : Int} (day : ahead.natAbs < 86400 * 1000000) :
    readClock? (distanceChars ahead) false =
      some ⟨ahead.natAbs / 1000000 / 3600, ahead.natAbs / 1000000 / 60 % 60,
        ahead.natAbs / 1000000 % 60, ahead.natAbs % 1000000, false⟩ := by
  simp only [distanceChars]
  split
  · rename_i short
    rw [readClock?_short (by omega) (by omega), short.1, short.2]
  · exact readClock?_clockChars false (by omega) (by omega) (by omega) (by omega)

theorem readZone?_distance {ahead : Int} (day : ahead.natAbs < 86400 * 1000000) :
    readZone? (signChar ahead :: distanceChars ahead) = some (settleAhead ahead) := by
  have notZulu : signChar ahead ≠ 'Z' := by
    unfold signChar
    split <;> decide
  have negative : signChar ahead = '-' ↔ ahead < 0 := by
    unfold signChar
    split
    · simp_all
    · simp_all
  have seconds : ahead.natAbs / 1000000 / 3600 * 3600 + ahead.natAbs / 1000000 / 60 % 60 * 60 +
      ahead.natAbs / 1000000 % 60 = ahead.natAbs / 1000000 := by omega
  rw [readZone?, if_neg notZulu, readClock?_distance day]
  · simp only [negative, microsPerSecond, settleAhead, Option.some.injEq, seconds]
    split <;> split <;> split <;> omega
  · intro zulu
    exact absurd zulu notZulu

theorem not_startsZone_of_plain {c : Char} (plain : isPlainDigit c = true) :
    startsZone c = false := by
  simp only [isPlainDigit, Bool.and_eq_true, decide_eq_true_eq] at plain
  have low : 48 ≤ c.toNat := plain.1
  have high : c.toNat ≤ 57 := plain.2
  have plus : c ≠ '+' := by
    rintro rfl
    exact absurd low (by decide)
  have minus : c ≠ '-' := by
    rintro rfl
    exact absurd low (by decide)
  have zulu : c ≠ 'Z' := by
    rintro rfl
    exact absurd high (by decide)
  simp [startsZone, plus, minus, zulu]

theorem not_startsZone_of_clock {hour minute second micro : Nat} {c : Char}
    (member : c ∈ clockChars hour minute second micro) : startsZone c = false := by
  have digits (width n : Nat) (digit : c ∈ paddedChars width n) : startsZone c = false :=
    not_startsZone_of_plain (plain_of_mem_padded digit)
  simp only [clockChars, fractionChars, List.mem_append, List.mem_cons] at member
  rcases member with hours | rfl | minutes | rfl | seconds | fraction
  · exact digits 2 hour hours
  · rfl
  · exact digits 2 minute minutes
  · rfl
  · exact digits 2 second seconds
  · split at fraction
    · cases fraction
    · rcases List.mem_cons.mp fraction with rfl | micros
      · rfl
      · exact digits 6 micro micros

theorem readTime?_written {hour minute second micro : Nat} {zone : List Char}
    (starts : ∀ c ∈ zone.head?, startsZone c = true) (hours : hour < 10 ^ 2) (minutes : minute < 10 ^ 2)
    (seconds : second < 10 ^ 2) (micros : micro < 10 ^ 6) :
    readTime? (clockChars hour minute second micro ++ zone) =
      if zone.isEmpty then some (⟨hour, minute, second, micro, false⟩, none)
      else (readZone? zone).map fun ahead => (⟨hour, minute, second, micro, true⟩, some ahead) := by
  have before : ∀ c ∈ clockChars hour minute second micro, (!startsZone c) = true := by
    intro c member
    simp [not_startsZone_of_clock member]
  have behind : zone.takeWhile (fun c => !startsZone c) = [] ∧
      zone.dropWhile (fun c => !startsZone c) = zone := by
    cases zone with
    | nil => exact ⟨rfl, rfl⟩
    | cons c rest =>
      have start := starts c rfl
      simp [start]
  have taken : (clockChars hour minute second micro ++ zone).takeWhile (fun c => !startsZone c) =
      clockChars hour minute second micro := by
    rw [List.takeWhile_append_of_pos before, behind.1, List.append_nil]
  have dropped : (clockChars hour minute second micro ++ zone).dropWhile (fun c => !startsZone c) =
      zone := by
    rw [List.dropWhile_append_of_pos before, behind.2]
  simp only [readTime?, taken, dropped, readClock?_clockChars _ hours minutes seconds micros]
  cases zone.isEmpty <;> simp

def dayChars (d : Day) : List Char :=
  paddedChars 4 d.year ++ '-' :: (paddedChars 2 d.month ++ '-' :: paddedChars 2 d.day)

def zoneChars : Option Int → List Char
  | none => []
  | some ahead => signChar ahead :: distanceChars ahead

theorem text_toList (m : Moment) :
    m.text.toList =
      dayChars m.date ++ 'T' :: (clockChars m.hour m.minute m.second m.micro ++ zoneChars m.ahead) := by
  have zone : (aheadText m.ahead).toList = zoneChars m.ahead := by
    cases m.ahead with
    | none => rfl
    | some ahead => exact aheadText_toList ahead
  simp [text, zone, dayChars, clockChars, padded_toList, fractionText_toList]

theorem monthLength_le (year month : Nat) : Day.monthLength year month ≤ 31 := by
  unfold Day.monthLength
  split
  · split <;> decide
  all_goals decide

theorem Valid.ranges {m : Moment} (valid : m.Valid) :
    (m.date.year < 10 ^ 4 ∧ m.date.month < 10 ^ 2 ∧ m.date.day < 10 ^ 2) ∧
      (m.hour < 10 ^ 2 ∧ m.minute < 10 ^ 2 ∧ m.second < 10 ^ 2) ∧
      ∀ ahead ∈ m.ahead, ahead.natAbs < 86400 * 1000000 := by
  have fields := valid.fields
  simp only [isValid, Day.isValid, Bool.and_eq_true, decide_eq_true_eq] at fields
  obtain ⟨⟨⟨⟨date, hour⟩, minute⟩, second⟩, zone⟩ := fields
  have days := monthLength_le m.date.year m.date.month
  refine ⟨by omega, by omega, ?_⟩
  intro ahead own
  rw [Option.mem_def.mp own] at zone
  simpa using zone

theorem readDay?_dayChars {d : Day} (year : d.year < 10 ^ 4) (month : d.month < 10 ^ 2)
    (day : d.day < 10 ^ 2) : readDay? (dayChars d) = some d := by
  have last := takeNumber?_padded (by decide) day []
  rw [List.append_nil] at last
  have notWeek (rest : List Char) :
      paddedChars 2 d.month ++ '-' :: paddedChars 2 d.day ≠ 'W' :: rest := by
    obtain ⟨c, digits, shape⟩ := List.exists_cons_of_ne_nil (padded_ne_nil 2 d.month)
    have digit : isPlainDigit c = true := plain_of_mem_padded (by rw [shape]; simp)
    intro same
    rw [shape] at same
    obtain ⟨rfl, -⟩ := List.cons.inj same
    exact absurd digit (by decide)
  rw [readDay?, dayChars, takeNumber?_padded (by decide) year]
  simp only [bind, Option.bind, List.head?_cons, skipHyphen?, decide_true, ↓reduceIte]
  rw [takeNumber?_padded (by decide) month]
  simp only [last]

theorem settle_isValid {m : Moment} (valid : m.isValid = true) : m.settle.isValid = true := by
  simp only [isValid, settle, Bool.and_eq_true] at valid ⊢
  refine ⟨valid.1, ?_⟩
  cases zone : m.ahead with
  | none => rfl
  | some ahead =>
    rw [zone] at valid
    have day : ahead.natAbs < 86400 * 1000000 := by simpa using valid.2
    have settled : (settleAhead ahead).natAbs < 86400 * 1000000 := by
      unfold settleAhead
      split <;> omega
    simpa using settled

theorem dayChars_length {d : Day} (year : d.year < 10 ^ 4) (month : d.month < 10 ^ 2)
    (day : d.day < 10 ^ 2) : (dayChars d).length = 10 := by
  have years := padded_length (by decide) year
  have months := padded_length (by decide) month
  have days := padded_length (by decide) day
  simp only [dayChars, List.length_append, List.length_cons, years, months, days]

theorem dateLength_dayChars {d : Day} (year : d.year < 10 ^ 4) (rest : List Char)
    (long : 7 < (dayChars d ++ 'T' :: rest).length) :
    dateLength (dayChars d ++ 'T' :: rest) = 10 := by
  have length : (paddedChars 4 d.year).length = 4 := padded_length (by decide) year
  have fifth : (dayChars d ++ 'T' :: rest)[4]? = some '-' := by
    rw [dayChars, List.append_assoc, List.getElem?_append_right (by omega), length]
    rfl
  have sixth : (dayChars d ++ 'T' :: rest)[5]? ≠ some 'W' := by
    obtain ⟨c, digits, shape⟩ := List.exists_cons_of_ne_nil (padded_ne_nil 2 d.month)
    have digit : isPlainDigit c = true := plain_of_mem_padded (by rw [shape]; simp)
    rw [dayChars, List.append_assoc, List.getElem?_append_right (by omega), length, shape]
    intro week
    obtain rfl : c = 'W' := Option.some.inj week
    exact absurd digit (by decide)
  rw [dateLength, if_neg (by omega), if_pos fifth, if_neg sixth]

theorem readTime?_text {m : Moment} (valid : m.Valid) :
    readTime? (clockChars m.hour m.minute m.second m.micro ++ zoneChars m.ahead) =
      some (⟨m.hour, m.minute, m.second, m.micro, m.ahead.isSome⟩, m.settle.ahead) := by
  obtain ⟨-, ⟨hour, minute, second⟩, zone⟩ := valid.ranges
  have starts : ∀ c ∈ (zoneChars m.ahead).head?, startsZone c = true := by
    intro c member
    cases own : m.ahead with
    | none => simp [own, zoneChars] at member
    | some ahead =>
      obtain rfl : signChar ahead = c := by simpa [own, zoneChars] using member
      unfold signChar
      split <;> rfl
  rw [readTime?_written starts hour minute second valid.micro]
  cases own : m.ahead with
  | none => simp [zoneChars, settle, own]
  | some ahead => simp [zoneChars, settle, own, readZone?_distance (zone ahead own)]

theorem read?_text {m : Moment} (valid : m.Valid) : read? m.text = some m.settle := by
  obtain ⟨⟨year, month, day⟩, -, -⟩ := valid.ranges
  have length := dayChars_length year month day
  have shape := text_toList m
  generalize clock : clockChars m.hour m.minute m.second m.micro ++ zoneChars m.ahead = rest at shape
  have time := readTime?_text valid
  rw [clock] at time
  have long : m.text.toList.length = 11 + rest.length := by
    rw [shape, List.length_append, length, List.length_cons]
    omega
  have date : dateLength m.text.toList = 10 := by
    rw [shape]
    exact dateLength_dayChars year rest (by rw [← shape]; omega)
  have taken : m.text.toList.take 10 = dayChars m.date := by
    rw [shape]
    exact List.take_left' length
  have dropped : m.text.toList.drop 10 = 'T' :: rest := by
    rw [shape]
    exact List.drop_left' length
  simp only [read?, date, taken, dropped, readDay?_dayChars year month day, readRest?, time, bind,
    Option.bind]
  rw [if_neg (by omega)]
  exact if_pos (settle_isValid valid.fields)

/-! A written moment starts and ends with a digit, so that trimming leaves it as it is. -/

def EndsPadded (cs : List Char) : Prop := ∃ before width n, cs = before ++ paddedChars width n

theorem EndsPadded.behind {cs : List Char} (ends : EndsPadded cs) (before : List Char) :
    EndsPadded (before ++ cs) := by
  obtain ⟨middle, width, n, rfl⟩ := ends
  exact ⟨before ++ middle, width, n, by rw [List.append_assoc]⟩

theorem padded_endsPadded (width n : Nat) : EndsPadded (paddedChars width n) := ⟨[], width, n, rfl⟩

theorem clock_endsPadded (hour minute second micro : Nat) :
    EndsPadded (clockChars hour minute second micro) := by
  have seconds : EndsPadded (paddedChars 2 second ++ fractionChars micro) := by
    unfold fractionChars
    split
    · rw [List.append_nil]
      exact padded_endsPadded 2 second
    · exact ((padded_endsPadded 6 micro).behind ['.']).behind _
  exact (((seconds.behind [':']).behind _).behind [':']).behind _

theorem text_endsPadded (m : Moment) : EndsPadded m.text.toList := by
  rw [text_toList, List.append_cons]
  refine EndsPadded.behind ?_ _
  cases m.ahead with
  | none =>
    rw [zoneChars, List.append_nil]
    exact clock_endsPadded _ _ _ _
  | some ahead =>
    refine EndsPadded.behind ?_ _
    refine EndsPadded.behind ?_ [signChar ahead]
    dsimp only
    split
    · exact ((padded_endsPadded 2 _).behind [':']).behind _
    · exact clock_endsPadded _ _ _ _

theorem not_blank_of_plain {c : Char} (plain : isPlainDigit c = true) : Text.isBlank c = false := by
  simp only [isPlainDigit, Bool.and_eq_true, decide_eq_true_eq] at plain
  have low : 48 ≤ c.toNat := plain.1
  have high : c.toNat ≤ 57 := plain.2
  simp [Text.isBlank, Text.within, Text.blankSpans, Text.Span.covers]
  omega

theorem text_last_plain {m : Moment} {c : Char} (last : c ∈ m.text.toList.getLast?) :
    isPlainDigit c = true := by
  obtain ⟨before, width, n, shape⟩ := text_endsPadded m
  have some := List.getLast?_eq_some_getLast (padded_ne_nil width n)
  rw [shape, List.getLast?_append, some] at last
  exact plain_of_mem_padded (List.mem_of_getLast? (some.trans last))

theorem text_head_plain {m : Moment} {c : Char} (head : c ∈ m.text.toList.head?) :
    isPlainDigit c = true := by
  have some := List.head?_eq_some_head (padded_ne_nil 4 m.date.year)
  rw [text_toList, dayChars, List.append_assoc, List.head?_append, some] at head
  exact plain_of_mem_padded (List.mem_of_head? (some.trans head))

theorem trim_text (m : Moment) : Text.trim m.text = m.text :=
  Text.trim_of_ends (fun _ head => not_blank_of_plain (text_head_plain head))
    fun _ last => not_blank_of_plain (text_last_plain last)

end Moment
end Joinery
