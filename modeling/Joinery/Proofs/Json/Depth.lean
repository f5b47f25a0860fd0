import Joinery.Json.Reader
import Mathlib

/-!
How deep a refused JSON text goes. Every part of the reader hands on an end of the text that it was
given, so the brackets that are open where the reader stops all stand in the text.
-/
namespace Joinery.Json
open Number

def isOpening (c : Char) : Bool := c == '[' || c == '{'

def openings (cs : List Char) : Nat := cs.countP isOpening

theorem openings_le {rest cs : List Char} (ends : rest <:+ cs) : openings rest ≤ openings cs :=
  ends.sublist.countP_le

/-! Each part of the reader leaves an end of its text. -/

theorem skipSpace_suffix (cs : List Char) : skipSpace cs <:+ cs := List.dropWhile_suffix _

theorem suffix_of_skipSpace {c : Char} {cs rest : List Char} (next : skipSpace cs = c :: rest) :
    rest <:+ cs := by
  have ends := skipSpace_suffix cs
  rw [next] at ends
  exact (List.suffix_cons c rest).trans ends

theorem readUnit?_suffix {cs rest : List Char} {n : Nat} (read : readUnit? cs = some (n, rest)) :
    rest <:+ cs := by
  unfold readUnit? at read
  split at read
  · rename_i a b c d after
    simp only [Option.bind_eq_bind, Option.bind_eq_some_iff, Option.some.injEq, Prod.mk.injEq] at read
    obtain ⟨_, -, _, -, _, -, _, -, -, rfl⟩ := read
    exact ⟨[a, b, c, d], rfl⟩
  · cases read

theorem readLowHalf?_suffix {cs rest : List Char} {n : Nat}
    (read : readLowHalf? cs = some (n, rest)) : rest <:+ cs := by
  unfold readLowHalf? at read
  split at read
  · rename_i after
    obtain ⟨unit, -⟩ := Option.filter_eq_some_iff.mp read
    exact (readUnit?_suffix unit).trans ⟨['\\', 'u'], rfl⟩
  · cases read

theorem readEscapedUnit?_suffix {cs rest : List Char} {c : Char}
    (read : readEscapedUnit? cs = some (c, rest)) : rest <:+ cs := by
  unfold readEscapedUnit? at read
  obtain ⟨⟨n, after⟩, unit, same⟩ := Option.map_eq_some_iff.mp read
  have ends := readUnit?_suffix unit
  dsimp only at same
  split at same
  · split at same
    · rename_i low
      obtain ⟨-, rfl⟩ := Prod.mk.inj same
      exact (readLowHalf?_suffix low).trans ends
    · obtain ⟨-, rfl⟩ := Prod.mk.inj same
      exact ends
  · obtain ⟨-, rfl⟩ := Prod.mk.inj same
    exact ends

theorem readEscape?_suffix {cs rest : List Char} {c : Char} (read : readEscape? cs = some (c, rest)) :
    rest <:+ cs := by
  unfold readEscape? at read
  split at read
  case h_9 after => exact (readEscapedUnit?_suffix read).trans (List.suffix_cons _ _)
  case h_10 => cases read
  all_goals
    cases read
    exact List.suffix_cons _ _

theorem readStringFrom_suffix {fuel : Nat} {done cs rest : List Char} {s : String}
    (read : readStringFrom fuel done cs = some (s, rest)) : rest <:+ cs := by
  fun_induction readStringFrom fuel done cs with
  | case1 | case2 | case5 | case6 => cases read
  | case3 =>
    cases read
    exact List.suffix_cons _ _
  | case4 fuel done escaped c after escape ih =>
    exact ((ih read).trans (readEscape?_suffix escape)).trans (List.suffix_cons _ _)
  | case7 fuel done c after _ _ _ ih => exact (ih read).trans (List.suffix_cons _ _)

theorem readWhole?_suffix {cs whole rest : List Char} (read : readWhole? cs = some (whole, rest)) :
    rest <:+ cs := by
  unfold readWhole? at read
  split at read
  · cases read
    exact List.suffix_cons _ _
  · split at read
    · cases read
      exact List.dropWhile_suffix _
    · cases read
  · cases read

theorem readFractionDigits_suffix (cs : List Char) : (readFractionDigits cs).2 <:+ cs := by
  unfold readFractionDigits
  split
  · split
    · exact List.suffix_rfl
    · exact (List.dropWhile_suffix _).trans (List.suffix_cons _ _)
  · exact List.suffix_rfl

theorem readSign_suffix (cs : List Char) : (readSign cs).2 <:+ cs := by
  unfold readSign
  split
  · exact List.suffix_cons _ _
  · exact List.suffix_cons _ _
  · exact List.suffix_rfl

theorem readExponentPart_suffix (cs : List Char) : (readExponentPart cs).2 <:+ cs := by
  unfold readExponentPart
  split
  · split
    · dsimp only
      split
      · exact List.suffix_rfl
      · rename_i digits
        obtain ⟨-, rfl⟩ := Prod.mk.inj digits
        exact ((List.dropWhile_suffix _).trans (readSign_suffix _)).trans (List.suffix_cons _ _)
    · exact List.suffix_rfl
  · exact List.suffix_rfl

theorem readNumber_suffix {negative : Bool} {cs rest : List Char} {n : Numeral}
    (read : readNumber negative cs = .ok (n, rest)) : rest <:+ cs := by
  unfold readNumber at read
  cases whole : readWhole? cs with
  | none =>
    rw [whole] at read
    cases read
  | some found =>
    obtain ⟨ds, after⟩ := found
    rw [whole] at read
    have ends := ((readExponentPart_suffix (readFractionDigits after).2).trans
      (readFractionDigits_suffix after)).trans (readWhole?_suffix whole)
    simp only [Refusal.ofOption, Except.bind] at read
    split at read
    · split at read
      · cases read
      · cases read
        exact ends
    · cases read
      exact ends

theorem readWord?_suffix {cs rest : List Char} {d : Datum} (read : readWord? cs = some (d, rest)) :
    rest <:+ cs := by
  unfold readWord? at read
  obtain ⟨⟨word, e⟩, -, found⟩ := List.exists_of_findSome?_eq_some read
  obtain ⟨after, cut, same⟩ := Option.map_eq_some_iff.mp found
  cases same
  unfold after? at cut
  split at cut
  · cases cut
    exact List.drop_suffix _ _
  · cases cut

/-- A value that is read leaves an end of its text, and a text that is too deep for the reader has
more opening brackets than the reader had levels. -/
def Stays (levels : Nat) (cs : List Char) : Except Refusal (Datum × List Char) → Prop
  | .ok (_, rest) => rest <:+ cs
  | .error .tooDeep => levels < openings cs
  | .error _ => True

namespace Stays
variable {levels : Nat} {cs rest : List Char} {outcome : Except Refusal (Datum × List Char)}

theorem of_suffix (ends : rest <:+ cs) (stays : Stays levels rest outcome) :
    Stays levels cs outcome := by
  match outcome with
  | .ok _ => exact stays.trans ends
  | .error .tooDeep => exact Nat.lt_of_lt_of_le stays (openings_le ends)
  | .error .malformed | .error (.tooManyDigits _) => trivial

theorem behind {c : Char} (opens : isOpening c = true) (stays : Stays levels rest outcome) :
    Stays (levels + 1) (c :: rest) outcome := by
  match outcome with
  | .ok _ => exact stays.trans (List.suffix_cons c rest)
  | .error .tooDeep =>
    have inner : levels < openings rest := stays
    change levels + 1 < openings (c :: rest)
    rw [openings, List.countP_cons_of_pos opens]
    exact Nat.succ_lt_succ inner
  | .error .malformed | .error (.tooManyDigits _) => trivial

end Stays

theorem readNumber_stays (levels : Nat) (negative : Bool) (cs : List Char) :
    Stays levels cs ((readNumber negative cs).map fun (n, rest) => (.number n, rest)) := by
  match read : readNumber negative cs with
  | .ok (n, rest) => exact readNumber_suffix read
  | .error .malformed | .error (.tooManyDigits _) => trivial
  | .error .tooDeep =>
    unfold readNumber Refusal.ofOption at read
    split at read
    · simp only [Except.bind] at read
      split at read
      · split at read <;> cases read
      · cases read
    · cases read

theorem readScalar_stays (levels : Nat) (cs : List Char) : Stays levels cs (readScalar cs) := by
  unfold readScalar
  split
  · exact readWord?_suffix (by assumption)
  · split
    · exact Stays.of_suffix (List.suffix_cons _ _) (readNumber_stays levels true _)
    · exact readNumber_stays levels false _

section
variable {fuel : Nat}

theorem readValue_stays
    (items : ∀ levels done cs, Stays levels cs (readItems fuel levels done cs))
    (fields : ∀ levels done cs, Stays levels cs (readFields fuel levels done cs))
    (levels : Nat) (cs : List Char) : Stays levels cs (readValue (fuel + 1) levels cs) := by
  unfold readValue
  split
  case h_1 => trivial
  case h_2 rest _ =>
    match read : readStringFrom (rest.length + 1) [] rest with
    | some (s, after) => exact (readStringFrom_suffix read).trans (List.suffix_cons _ _)
    | none => trivial
  case h_3 | h_4 =>
    apply List.countP_pos_iff.mpr
    exact ⟨_, List.mem_cons_self, rfl⟩
  case h_5 rest same =>
    obtain rfl := Nat.succ.inj same
    refine Stays.behind rfl ?_
    split
    · rename_i next
      exact suffix_of_skipSpace next
    · exact Stays.of_suffix (skipSpace_suffix rest) (items _ _ _)
  case h_6 rest same =>
    obtain rfl := Nat.succ.inj same
    refine Stays.behind rfl ?_
    split
    · rename_i next
      exact suffix_of_skipSpace next
    · exact Stays.of_suffix (skipSpace_suffix rest) (fields _ _ _)
  case h_7 => exact readScalar_stays _ _

theorem readItems_stays (values : ∀ levels cs, Stays levels cs (readValue fuel levels cs))
    (items : ∀ levels done cs, Stays levels cs (readItems fuel levels done cs))
    (levels : Nat) (done : List Datum) (cs : List Char) :
    Stays levels cs (readItems (fuel + 1) levels done cs) := by
  have first := values levels cs
  simp only [readItems]
  split
  · rename_i refusal stopped
    rw [stopped] at first
    exact first
  · rename_i d rest read
    rw [read] at first
    refine Stays.of_suffix first ?_
    split
    · rename_i next
      exact Stays.of_suffix ((skipSpace_suffix _).trans (suffix_of_skipSpace next)) (items _ _ _)
    · rename_i next
      exact suffix_of_skipSpace next
    · trivial

theorem readFields_stays (values : ∀ levels cs, Stays levels cs (readValue fuel levels cs))
    (fields : ∀ levels done cs, Stays levels cs (readFields fuel levels done cs))
    (levels : Nat) (done : List (String × Datum)) (cs : List Char) :
    Stays levels cs (readFields (fuel + 1) levels done cs) := by
  unfold readFields
  split
  case h_1 => trivial
  case h_3 => trivial
  case h_2 levels _ _ _ _ _ _ cs same =>
    obtain rfl := Nat.succ.inj same
    refine Stays.of_suffix (List.suffix_cons _ _) ?_
    split
    · trivial
    · rename_i named
      refine Stays.of_suffix (readStringFrom_suffix named) ?_
      split
      · rename_i rest next
        refine Stays.of_suffix (suffix_of_skipSpace next) ?_
        have value := Stays.of_suffix (skipSpace_suffix rest) (values levels (skipSpace rest))
        split
        · rename_i stopped
          rw [stopped] at value
          exact value
        · rename_i read
          rw [read] at value
          refine Stays.of_suffix value ?_
          split
          · rename_i next
            exact Stays.of_suffix ((skipSpace_suffix _).trans (suffix_of_skipSpace next))
              (fields _ _ _)
          · rename_i next
            exact suffix_of_skipSpace next
          · trivial
      · trivial

end

theorem reader_stays (fuel : Nat) :
    (∀ levels cs, Stays levels cs (readValue fuel levels cs)) ∧
    (∀ levels done cs, Stays levels cs (readItems fuel levels done cs)) ∧
    ∀ levels done cs, Stays levels cs (readFields fuel levels done cs) := by
  induction fuel with
  | zero =>
    refine ⟨fun levels cs => ?_, fun levels done cs => ?_, fun levels done cs => ?_⟩
    · simp [readValue, Stays]
    · simp [readItems, Stays]
    · simp [readFields, Stays]
  | succ fuel ih =>
    obtain ⟨values, items, fields⟩ := ih
    exact ⟨readValue_stays items fields, readItems_stays values items,
      readFields_stays values fields⟩

/-- A text that is refused as too deep has more opening brackets than there may be levels. -/
theorem openings_of_tooDeep {text : String} (refused : readWhole text = .error .tooDeep) :
    mostLevels < openings text.toList := by
  have stays := (reader_stays (2 * text.length + 2)).1 mostLevels (skipSpace text.toList)
  unfold readWhole at refused
  split at refused
  · split at refused <;> cases refused
  · rename_i stopped
    cases refused
    rw [stopped] at stays
    exact Nat.lt_of_lt_of_le stays (openings_le (skipSpace_suffix _))

end Joinery.Json
