import Joinery.Formula.Shown
import Joinery.Proofs.Formula.Cut
import Joinery.Proofs.Number.Equality
import Joinery.Proofs.Number.Overflow

/-!
Replacing a name where it stands as a whole word. Text in which no word begins with a letter is copied,
and so is a word that is another one than the name. The text of a finite double is such a text: it has
digits, signs, a point and perhaps an exponent, whose letter stands behind a digit.
-/
namespace Joinery.Formula
open Text

/-- No word begins with a letter: where there is one, a word character stands before it. -/
def Quiet : Option Char → List Char → Prop
  | _, [] => True
  | before, c :: cs => (startsName c = false ∨ isWordAt before = true) ∧ Quiet (some c) cs

theorem isWordAt_some (c : Char) : isWordAt (some c) = isWordChar c := rfl

theorem getLast?_cons_or (c : Char) (cs : List Char) (before : Option Char) :
    (c :: cs).getLast?.or before = cs.getLast?.or (some c) := by
  cases cs <;> simp [List.getLast?_cons]

theorem getLast?_cons_eq (c : Char) (cs : List Char) :
    (c :: cs).getLast? = cs.getLast?.or (some c) := by
  rw [← getLast?_cons_or c cs none, Option.or_none]

theorem quiet_append {before : Option Char} {cs ds : List Char} :
    Quiet before (cs ++ ds) ↔ Quiet before cs ∧ Quiet (cs.getLast?.or before) ds := by
  induction cs generalizing before with
  | nil => simp [Quiet]
  | cons c cs ih => rw [List.cons_append, Quiet, Quiet, ih, getLast?_cons_or, and_assoc]

theorem quiet_of_no_letter {cs : List Char} (plain : ∀ c ∈ cs, startsName c = false)
    (before : Option Char) : Quiet before cs := by
  induction cs generalizing before with
  | nil => trivial
  | cons c cs ih =>
    obtain ⟨first, rest⟩ := List.forall_mem_cons.mp plain
    exact ⟨Or.inl first, ih rest _⟩

theorem quiet_of_word {cs : List Char} (word : ∀ c ∈ cs, isWordChar c = true) {before : Option Char}
    (inside : isWordAt before = true) : Quiet before cs := by
  induction cs generalizing before with
  | nil => trivial
  | cons c cs ih =>
    obtain ⟨first, rest⟩ := List.forall_mem_cons.mp word
    exact ⟨Or.inr inside, ih rest first⟩

/-! Names. -/

def StartsName (cs : List Char) : Prop := ∃ d ds, cs = d :: ds ∧ startsName d = true

theorem IsIdentifier.starts {cs : List Char} (identifier : IsIdentifier cs) : StartsName cs := by
  obtain ⟨first, _⟩ := identifier
  exact ⟨_, _, rfl, (startsName_iff _).mpr first⟩

theorem IsIdentifier.wordChars {cs : List Char} (identifier : IsIdentifier cs) :
    ∀ c ∈ cs, isWordChar c = true :=
  fun c member => word_of_continuesName (identifier.continues c member)

theorem starts_of_isName {name : String} (named : isName name = true) : StartsName name.toList := by
  rcases identifier_of_isName named with identifier | ⟨stem, rfl, identifier⟩
  · exact identifier.starts
  · obtain ⟨d, ds, same, letter⟩ := identifier.starts
    exact ⟨d, ds ++ "\n".toList, by rw [String.toList_append, same]; rfl, letter⟩

theorem word_of_inner {name : String} (named : isName name = true) {cs ds : List Char} {d e : Char}
    (same : name.toList = cs ++ d :: e :: ds) : isWordChar d = true := by
  rcases identifier_of_isName named with identifier | ⟨stem, rfl, identifier⟩
  · exact identifier.wordChars d (by simp [same])
  · refine identifier.wordChars d ?_
    have front : stem.toList = cs ++ d :: (e :: ds).dropLast := by
      have cut := congrArg List.dropLast same
      simpa [List.dropLast_append_of_ne_nil] using cut
    simp [front]

theorem word_of_last {name : String} (named : isName name = true) {cs : List Char} {d : Char}
    (same : name.toList = cs ++ [d]) : isWordChar d = true ∨ d = '\n' := by
  rcases identifier_of_isName named with identifier | ⟨stem, rfl, -⟩
  · exact Or.inl (identifier.wordChars d (by simp [same]))
  · have ends : stem.toList ++ ['\n'] = cs ++ [d] := by
      rw [← same, String.toList_append]
      rfl
    exact Or.inr (List.append_inj' ends rfl |>.2 |> List.singleton_inj.mp).symm

section
variable {name image : List Char} {before : Option Char}

theorem standsAt_quiet (starts : StartsName name) {c : Char}
    (quiet : startsName c = false ∨ isWordAt before = true) (cs : List Char) :
    standsAt name before (c :: cs) = false := by
  obtain ⟨n, ns, rfl, letter⟩ := starts
  by_cases same : n = c
  · subst same
    have inside : isWordAt before = true := by simpa [letter] using quiet
    have word : isWordChar n = true := word_of_continuesName (continuesName_of_startsName letter)
    have noEdge : isEdge before (some n) = false := by rw [isEdge, inside, isWordAt_some, word]; rfl
    simp [standsAt, noEdge]
  · have apart : (n == c) = false := beq_false_of_ne same
    simp [standsAt, List.isPrefixOf, apart]

theorem replaceWord_nil (starts : StartsName name) : replaceWord name image 0 before [] = [] := by
  obtain ⟨n, ns, rfl, -⟩ := starts
  simp [replaceWord, standsAt]

theorem replaceWord_copy {c : Char} {cs : List Char} (apart : standsAt name before (c :: cs) = false) :
    replaceWord name image 0 before (c :: cs) = c :: replaceWord name image 0 (some c) cs := by
  simp [replaceWord, apart]

theorem replaceWord_quiet (starts : StartsName name) {cs : List Char} (quiet : Quiet before cs)
    (rest : List Char) :
    replaceWord name image 0 before (cs ++ rest) =
      cs ++ replaceWord name image 0 (cs.getLast?.or before) rest := by
  induction cs generalizing before with
  | nil => rfl
  | cons c cs ih =>
    rw [List.cons_append, replaceWord_copy (standsAt_quiet starts quiet.1 _), ih quiet.2,
      getLast?_cons_or]
    rfl

theorem replaceWord_skip (cs rest : List Char) :
    replaceWord name image cs.length before (cs ++ rest) =
      replaceWord name image 0 (cs.getLast?.or before) rest := by
  induction cs generalizing before with
  | nil => rfl
  | cons c cs ih => rw [List.length_cons, List.cons_append, replaceWord, ih, getLast?_cons_or]

theorem replaceWord_self (identifier : IsIdentifier name) (outside : isWordAt before = false)
    {rest : List Char} (ends : isWordAt rest.head? = false) :
    replaceWord name image 0 before (name ++ rest) =
      image ++ replaceWord name image 0 name.getLast? rest := by
  obtain ⟨n, ns, rfl, letter⟩ := identifier.starts
  have stands : standsAt (n :: ns) before (n :: (ns ++ rest)) = true := by
    obtain ⟨l, last⟩ : ∃ l, (n :: ns).getLast? = some l := by simp [List.getLast?_cons]
    have first : isWordChar n = true := identifier.wordChars n List.mem_cons_self
    have final : isWordChar l = true := identifier.wordChars l (List.mem_of_getLast? last)
    have begins : isEdge before (some n) = true := by
      rw [isEdge, outside, isWordAt_some, first]
      rfl
    have finishes : isEdge (some l) rest.head? = true := by
      rw [isEdge, ends, isWordAt_some, final]
      rfl
    have front : (n :: ns).isPrefixOf (n :: (ns ++ rest)) = true := by simp
    have behind : (n :: (ns ++ rest)).drop (n :: ns).length = rest := by simp
    rw [standsAt, front, behind, last, List.head?_cons, begins, Option.some_or, finishes]
    rfl
  rw [List.cons_append, replaceWord, if_pos stands, getLast?_cons_eq]
  exact congrArg (image ++ ·) (replaceWord_skip ns rest)

end

/-- Text that ends a word, and does not begin another one behind a line end. -/
structure Ends (rest : List Char) : Prop where
  outside : isWordAt rest.head? = false
  line (after : List Char) : rest = '\n' :: after → isWordAt after.head? = false

theorem standsAt_other {name : String} (named : isName name = true) {word : List Char}
    (identifier : IsIdentifier word) (apart : word ≠ name.toList) {rest : List Char} (ends : Ends rest)
    (before : Option Char) : standsAt name.toList before (word ++ rest) = false := by
  rw [← Bool.not_eq_true]
  intro stands
  simp only [standsAt, Bool.and_eq_true, List.isPrefixOf_iff_prefix] at stands
  obtain ⟨⟨-, after, same⟩, finishes⟩ := stands
  rw [← same, List.drop_left] at finishes
  rcases List.append_eq_append_iff.mp same with ⟨more, longer, rfl⟩ | ⟨more, shorter, rfl⟩
  · -- The word goes on where the name ends.
    cases more with
    | nil => exact apart (by simpa using longer)
    | cons e more =>
      obtain ⟨d, ds, begun, -⟩ := starts_of_isName named
      obtain ⟨l, last⟩ : ∃ l, name.toList.getLast? = some l := by simp [begun, List.getLast?_cons]
      have inside : l ∈ word := by
        rw [longer]
        exact List.mem_append_left _ (List.mem_of_getLast? last)
      have next : e ∈ word := by simp [longer]
      rw [last, Option.some_or, List.cons_append, List.head?_cons, isEdge, isWordAt_some,
        isWordAt_some, identifier.wordChars l inside, identifier.wordChars e next] at finishes
      cases finishes
  · -- The name goes on where the word ends.
    have outside := ends.outside
    cases more with
    | nil => exact apart (by simpa using shorter.symm)
    | cons e more =>
      rw [List.cons_append, List.head?_cons, isWordAt_some] at outside
      cases more with
      | nil =>
        obtain rfl : e = '\n' := (word_of_last named shorter).resolve_left (by simp [outside])
        have last : name.toList.getLast? = some '\n' := by simp [shorter]
        rw [last, Option.some_or, isEdge, isWordAt_some, outside, ends.line after rfl] at finishes
        cases finishes
      | cons f more => simp [word_of_inner named shorter] at outside

theorem replaceWord_other {name : String} (named : isName name = true) {word : List Char}
    (identifier : IsIdentifier word) (apart : word ≠ name.toList) {rest : List Char} (ends : Ends rest)
    (image : List Char) (before : Option Char) :
    replaceWord name.toList image 0 before (word ++ rest) =
      word ++ replaceWord name.toList image 0 word.getLast? rest := by
  have elsewhere := standsAt_other named identifier apart ends before
  have chars := identifier.wordChars
  obtain ⟨d, ds, rfl, -⟩ := identifier.starts
  obtain ⟨first, later⟩ := List.forall_mem_cons.mp chars
  have quiet : Quiet (some d) ds := quiet_of_word later first
  rw [List.cons_append] at elsewhere ⊢
  rw [replaceWord_copy elsewhere, replaceWord_quiet (starts_of_isName named) quiet,
    getLast?_cons_eq]
  rfl

/-! The text of a finite double. -/

open Number

theorem not_startsName_of_isDigit {c : Char} (digit : c.isDigit = true) : startsName c = false := by
  simp only [Char.isDigit, Bool.and_eq_true, decide_eq_true_eq] at digit
  have high : c ≤ '9' := digit.2
  rw [← Bool.not_eq_true, startsName_iff]
  rintro (⟨low, -⟩ | ⟨low, -⟩ | rfl)
  · exact absurd (le_trans low high) (by decide)
  · exact absurd (le_trans low high) (by decide)
  · exact absurd high (by decide)

theorem word_of_isDigit {c : Char} (digit : c.isDigit = true) : isWordChar c = true := by
  refine word_of_continuesName ((continuesName_iff c).mpr (Or.inr ?_))
  simpa [Char.isDigit, IsPlainNumeral, Char.le_def] using digit

theorem isDigit_of_mem_digitChars {n : Nat} {c : Char} (member : c ∈ digitChars n) :
    c.isDigit = true :=
  Nat.isDigit_of_mem_toDigits (by decide) (by decide) member

def isPlain (c : Char) : Bool := c.isDigit || c == '-' || c == '+' || c == '.'

theorem not_startsName_of_isPlain {c : Char} (plain : isPlain c = true) : startsName c = false := by
  simp only [isPlain, Bool.or_eq_true, beq_iff_eq] at plain
  rcases plain with ((digit | rfl) | rfl) | rfl
  · exact not_startsName_of_isDigit digit
  all_goals decide

theorem quiet_of_plain {cs : List Char} (plain : ∀ c ∈ cs, isPlain c = true) (before : Option Char) :
    Quiet before cs :=
  quiet_of_no_letter (fun c member => not_startsName_of_isPlain (plain c member)) before

theorem quiet_exponent {before : Option Char} {mantissa rest : List Char} {d : Char}
    (plain : ∀ c ∈ mantissa, isPlain c = true) (last : mantissa.getLast? = some d)
    (digit : d.isDigit = true) (more : ∀ c ∈ rest, isPlain c = true) :
    Quiet before (mantissa ++ 'e' :: rest) := by
  refine quiet_append.mpr ⟨quiet_of_plain plain before, ?_, quiet_of_plain more _⟩
  rw [last]
  exact Or.inr (word_of_isDigit digit)

theorem plain_digitChars (n : Nat) : ∀ c ∈ digitChars n, isPlain c = true := by
  intro c member
  simp [isPlain, isDigit_of_mem_digitChars member]

theorem plain_zeros (n : Nat) : ∀ c ∈ List.replicate n '0', isPlain c = true := by
  intro c member
  rw [List.eq_of_mem_replicate member]
  rfl

theorem plain_append {cs ds : List Char} (first : ∀ c ∈ cs, isPlain c = true)
    (second : ∀ c ∈ ds, isPlain c = true) : ∀ c ∈ cs ++ ds, isPlain c = true :=
  List.forall_mem_append.mpr ⟨first, second⟩

theorem plain_cons {d : Char} {cs : List Char} (first : isPlain d = true)
    (rest : ∀ c ∈ cs, isPlain c = true) : ∀ c ∈ d :: cs, isPlain c = true :=
  List.forall_mem_cons.mpr ⟨first, rest⟩

theorem plain_exponentChars (n : Int) : ∀ c ∈ exponentChars n, isPlain c = true := by
  refine plain_cons ?_ (plain_append (plain_zeros _) (plain_digitChars _))
  split <;> rfl

theorem quiet_layout (style : Style) (n : Nat) (point : Int) (before : Option Char) :
    Quiet before (style.layout (digitChars n) point) := by
  have digits := plain_digitChars n
  unfold Style.layout
  dsimp only
  split
  · refine quiet_of_plain ?_ before
    split
    · exact plain_cons (by decide) (plain_cons (by decide) (plain_append (plain_zeros _) digits))
    · split
      · refine plain_append (plain_append digits (plain_zeros _)) ?_
        split
        · exact plain_cons (by decide) (plain_cons (by decide) (List.forall_mem_nil _))
        · exact List.forall_mem_nil _
      · exact plain_append (fun c member => digits c (List.mem_of_mem_take member))
          (plain_cons (by decide) fun c member => digits c (List.mem_of_mem_drop member))
  · cases shown : digitChars n with
    | nil => exact absurd shown Nat.toDigits_ne_nil
    | cons d rest =>
      have own : ∀ c ∈ d :: rest, c.isDigit = true := fun c member =>
        isDigit_of_mem_digitChars (shown ▸ member)
      have plain : ∀ c ∈ d :: rest, isPlain c = true := shown ▸ digits
      cases rest with
      | nil => exact quiet_exponent plain rfl (own d List.mem_cons_self) (plain_exponentChars _)
      | cons e rest =>
        obtain ⟨l, last⟩ : ∃ l, (e :: rest).getLast? = some l := by simp [List.getLast?_cons]
        have digit := own l (List.mem_cons_of_mem d (List.mem_of_getLast? last))
        obtain ⟨first, later⟩ := List.forall_mem_cons.mp plain
        refine quiet_exponent (plain_cons first (plain_cons rfl later)) ?_ digit
          (plain_exponentChars _)
        rw [List.getLast?_cons_cons, List.getLast?_cons_cons, last]

theorem quiet_inFull {x : Float} (finite : x.isFinite = true) (before : Option Char) :
    Quiet before (inFull x).toList := by
  have text : inFull x = .ofList (signChars x ++
      Style.layout ⟨16, true⟩ (shortestDigits x).1 (shortestDigits x).2) := by
    rw [inFull, Style.write, number_of_finite finite, not_isInf_of_finite finite]
    rfl
  rw [text, String.toList_ofList]
  refine quiet_append.mpr ⟨quiet_of_plain ?_ before, quiet_layout _ _ _ _⟩
  unfold signChars
  split
  · exact plain_cons (by decide) (List.forall_mem_nil _)
  · exact List.forall_mem_nil _

theorem plain_toString (n : Int) : ∀ c ∈ (toString n).toList, isPlain c = true := by
  cases n with
  | ofNat n =>
    have digits : (toString (Int.ofNat n)).toList = digitChars n := Nat.toList_repr
    exact digits ▸ plain_digitChars n
  | negSucc n =>
    have signed : (toString (Int.negSucc n)).toList = '-' :: digitChars (n + 1) := by
      have text : toString (Int.negSucc n) = "-" ++ Nat.repr (n + 1) := rfl
      rw [text, String.toList_append, Nat.toList_repr]
      rfl
    exact signed ▸ plain_cons (by decide) (plain_digitChars (n + 1))

theorem quiet_valueText {x : Float} (finite : x.isFinite = true) (before : Option Char) :
    Quiet before (valueText x).toList := by
  unfold valueText
  split
  · exact quiet_of_plain (plain_toString _) before
  · exact quiet_inFull finite before

end Joinery.Formula
