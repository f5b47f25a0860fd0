import Joinery.Text.Blank
import Joinery.Text.Runs
import Mathlib

/-!
Trimming and cutting. A trimmed text has no blank at either end, and whatever has none is left as it is.
A text is cut into runs wherever two characters meet that are not both of a class, so that its parts up to
there and from there have the runs that they have in the whole. Words are the runs of the class, and words
that are joined by a character outside it fall apart into themselves.
-/
namespace Joinery.Text

/-! Blanks at the ends. -/

theorem dropWhile_of_head {α : Type} {p : α → Bool} {xs : List α}
    (head : ∀ a ∈ xs.head?, p a = false) : xs.dropWhile p = xs := by
  cases xs with
  | nil => rfl
  | cons a rest => simp [head a rfl]

theorem head_of_dropWhile {α : Type} {p : α → Bool} {xs : List α} {a : α}
    (head : a ∈ (xs.dropWhile p).head?) : p a = false := by
  induction xs with
  | nil => cases head
  | cons x rest ih =>
    cases dropped : p x with
    | true =>
      simp only [List.dropWhile_cons, dropped, ↓reduceIte] at head
      exact ih head
    | false =>
      simp only [List.dropWhile_cons, dropped] at head
      obtain rfl : x = a := by simpa using head
      exact dropped

theorem trimChars_of_ends {drop : Char → Bool} {cs : List Char}
    (first : ∀ c ∈ cs.head?, drop c = false) (last : ∀ c ∈ cs.getLast?, drop c = false) :
    trimChars drop cs = cs := by
  have start : cs.dropWhile drop = cs := dropWhile_of_head first
  have stop : cs.reverse.dropWhile drop = cs.reverse := by
    apply dropWhile_of_head
    rw [List.head?_reverse]
    exact last
  rw [trimChars, start, stop, List.reverse_reverse]

theorem trimChars_again (drop : Char → Bool) (cs : List Char) :
    trimChars drop (trimChars drop cs) = trimChars drop cs := by
  refine trimChars_of_ends ?_ ?_
  · intro c head
    have start : trimChars drop cs <+: cs.dropWhile drop := by
      rw [trimChars, ← List.reverse_suffix, List.reverse_reverse]
      exact List.dropWhile_suffix drop
    obtain ⟨rest, same⟩ := start
    have headOfCut : c ∈ (cs.dropWhile drop).head? := by
      rw [← same, List.head?_append, Option.mem_def.mp head]
      rfl
    exact head_of_dropWhile headOfCut
  · intro c last
    rw [trimChars, List.getLast?_reverse] at last
    exact head_of_dropWhile last

theorem trim_trim (s : String) : trim (trim s) = trim s := by
  simp only [trim, String.toList_ofList, trimChars_again]

theorem trim_of_ends {s : String} (first : ∀ c ∈ s.toList.head?, isBlank c = false)
    (last : ∀ c ∈ s.toList.getLast?, isBlank c = false) : trim s = s := by
  rw [trim, trimChars_of_ends first last, String.ofList_toList]

/-! Runs and words. -/

/-- A word of a class: some characters, all of the class. -/
structure IsWord (p : Char → Bool) (word : List Char) : Prop where
  filled : word ≠ []
  all : ∀ c ∈ word, p c = true

theorem isWord_of_mem {p : Char → Bool} {cs word : List Char} (member : word ∈ words p cs) :
    IsWord p word := by
  obtain ⟨run, all⟩ := List.mem_filter.mp member
  exact ⟨List.ne_nil_of_mem_splitBy run, List.all_eq_true.mp all⟩

theorem mem_of_mem_words {p : Char → Bool} {cs word : List Char} {c : Char}
    (member : word ∈ words p cs) (inside : c ∈ word) : c ∈ cs := by
  have whole : (runs p cs).flatten = cs := List.flatten_splitBy _ cs
  rw [← whole]
  exact List.mem_flatten.mpr ⟨word, (List.mem_filter.mp member).1, inside⟩

section Cut
variable {p : Char → Bool} {word : List Char}

theorem runs_append {cs ds : List Char}
    (apart : ∀ c ∈ cs.getLast?, ∀ d ∈ ds.head?, p c = false ∨ p d = false) :
    runs p (cs ++ ds) = runs p cs ++ runs p ds := by
  refine List.splitBy_append fun c last d first => ?_
  rcases apart c last d first with outside | outside <;> simp [outside]

theorem runs_word (is : IsWord p word) : runs p word = [word] := by
  refine List.splitBy_of_isChain is.filled (List.Pairwise.isChain ?_)
  refine List.pairwise_of_forall_mem_list fun a first b second => ?_
  rw [is.all a first, is.all b second]
  rfl

theorem words_word (is : IsWord p word) : words p word = [word] := by
  have all : word.all p = true := List.all_eq_true.mpr is.all
  simp [words, runs_word is, all]

theorem runs_cons {c : Char} (outside : p c = false) (cs : List Char) :
    runs p (c :: cs) = [c] :: runs p cs := by
  have cut : runs p ([c] ++ cs) = runs p [c] ++ runs p cs :=
    runs_append fun d last _ _ => Or.inl (by simp_all)
  exact cut

theorem runs_append_cons (is : IsWord p word) {c : Char} (outside : p c = false) (cs : List Char) :
    runs p (word ++ c :: cs) = word :: [c] :: runs p cs := by
  have cut : runs p (word ++ c :: cs) = runs p word ++ runs p (c :: cs) :=
    runs_append fun _ _ d head => Or.inr (by simp_all)
  rw [cut, runs_word is, runs_cons outside]
  rfl

theorem words_append_cons (is : IsWord p word) {c : Char} (outside : p c = false) (cs : List Char) :
    words p (word ++ c :: cs) = word :: words p cs := by
  have all : word.all p = true := List.all_eq_true.mpr is.all
  simp [words, runs_append_cons is outside, all, outside]

theorem all_of_isChain {c d : Char} {cs : List Char}
    (chain : (c :: d :: cs).IsChain fun a b => (p a && p b) = true) :
    ∀ e ∈ c :: d :: cs, p e = true := by
  induction cs generalizing c d with
  | nil =>
    have both := (List.isChain_cons_cons.mp chain).1
    simpa using both
  | cons e cs ih =>
    obtain ⟨both, rest⟩ := List.isChain_cons_cons.mp chain
    exact List.forall_mem_cons.mpr ⟨(Bool.and_eq_true_iff.mp both).1, ih rest⟩

theorem run_cases {cs run : List Char} (member : run ∈ runs p cs) :
    IsWord p run ∨ ∃ c, run = [c] ∧ p c = false := by
  have filled := List.ne_nil_of_mem_splitBy member
  have chain := List.isChain_of_mem_splitBy member
  match run with
  | [] => exact absurd rfl filled
  | [c] =>
    cases inside : p c with
    | true => exact Or.inl ⟨filled, List.forall_mem_singleton.mpr inside⟩
    | false => exact Or.inr ⟨c, rfl, inside⟩
  | c :: d :: rest => exact Or.inl ⟨filled, all_of_isChain chain⟩

theorem runs_apart (cs : List Char) :
    (runs p cs).IsChain fun run next => IsWord p run → ∃ c ∈ next, p c = false := by
  refine (List.isChain_getLast_head_splitBy _ cs).imp ?_
  rintro run next ⟨filled, others, edge⟩ word
  rw [word.all _ (List.getLast_mem filled), Bool.true_and] at edge
  exact ⟨_, List.head_mem others, edge⟩

/-- Words that are joined by a character outside their class fall apart into themselves. -/
theorem words_intercalate {c : Char} (outside : p c = false) {parts : List (List Char)}
    (each : ∀ part ∈ parts, IsWord p part) : words p ([c].intercalate parts) = parts := by
  induction parts with
  | nil => rfl
  | cons first rest ih =>
    obtain ⟨is, others⟩ := List.forall_mem_cons.mp each
    cases rest with
    | nil =>
      have single : [c].intercalate [first] = first := by simp [List.intercalate]
      rw [single, words_word is]
    | cons second rest =>
      rw [List.intercalate_cons_cons, List.append_assoc, List.singleton_append,
        words_append_cons is outside, ih others]

end Cut

theorem mem_intercalate {c d : Char} {parts : List (List Char)}
    (member : d ∈ [c].intercalate parts) : d = c ∨ ∃ part ∈ parts, d ∈ part := by
  induction parts with
  | nil => cases member
  | cons first rest ih =>
    cases rest with
    | nil =>
      have single : [c].intercalate [first] = first := by simp [List.intercalate]
      exact Or.inr ⟨first, List.mem_cons_self, single ▸ member⟩
    | cons second rest =>
      rw [List.intercalate_cons_cons, List.append_assoc, List.singleton_append, List.mem_append,
        List.mem_cons] at member
      rcases member with inside | rfl | later
      · exact Or.inr ⟨first, List.mem_cons_self, inside⟩
      · exact Or.inl rfl
      · rcases ih later with own | ⟨part, among, inside⟩
        · exact Or.inl own
        · exact Or.inr ⟨part, List.mem_cons_of_mem first among, inside⟩

/-! Parts of a text. -/

section Parts
variable {p : Char → Bool} {cs ds gap : List Char}

theorem words_append (apart : ∀ c ∈ cs.getLast?, ∀ d ∈ ds.head?, p c = false ∨ p d = false) :
    words p (cs ++ ds) = words p cs ++ words p ds := by
  rw [words, runs_append apart, List.filter_append]
  rfl

theorem runs_flatten {rs : List (List Char)} (part : rs <:+: runs p cs) : runs p rs.flatten = rs := by
  refine List.splitBy_flatten ?_ ?_ ?_
  · exact fun empty => List.nil_notMem_splitBy _ cs (part.subset empty)
  · exact fun run member => List.isChain_of_mem_splitBy (part.subset member)
  · have chain := List.isChain_getLast_head_splitBy (fun a b => p a && p b) cs
    obtain ⟨before, after, cut⟩ := part
    rw [← runs, ← cut] at chain
    exact chain.left_of_append.right_of_append

/-- A word that is a run cannot be made longer: on neither side does it meet a character of its
class. -/
theorem word_maximal {run : List Char} {rs ss : List (List Char)}
    (cut : runs p cs = rs ++ run :: ss) (word : IsWord p run) :
    (∀ c ∈ rs.flatten.getLast?, p c = false) ∧ ∀ c ∈ ss.flatten.head?, p c = false := by
  have chain := List.isChain_getLast_head_splitBy (fun a b => p a && p b) cs
  rw [← runs, cut, List.isChain_append, List.isChain_cons] at chain
  obtain ⟨-, ⟨after, -⟩, before⟩ := chain
  constructor
  · intro c last
    rcases List.eq_nil_or_concat rs with rfl | ⟨init, previous, rfl⟩
    · cases last
    · obtain ⟨filled, _, edge⟩ := before previous (by simp) run rfl
      rw [word.all _ (List.head_mem _), Bool.and_true] at edge
      have same : (init.concat previous).flatten.getLast? = some (previous.getLast filled) := by
        simp [List.getLast?_append, List.getLast?_eq_some_getLast filled]
      obtain rfl := Option.some.inj (same.symm.trans last)
      exact edge
  · intro c first
    cases ss with
    | nil => cases first
    | cons next ss =>
      obtain ⟨_, filled, edge⟩ := after next rfl
      rw [word.all _ (List.getLast_mem _), Bool.true_and] at edge
      have same : (next :: ss).flatten.head? = some (next.head filled) := by
        simp [List.head?_append, List.head?_eq_some_head filled]
      obtain rfl := Option.some.inj (same.symm.trans first)
      exact edge

theorem words_outside (outside : ∀ c ∈ gap, p c = false) : words p gap = [] := by
  refine List.eq_nil_iff_forall_not_mem.mpr fun word member => ?_
  have is := isWord_of_mem member
  obtain ⟨c, rest, rfl⟩ := List.exists_cons_of_ne_nil is.filled
  have inside := is.all c List.mem_cons_self
  rw [outside c (mem_of_mem_words member List.mem_cons_self)] at inside
  cases inside

theorem words_after (outside : ∀ c ∈ gap, p c = false) (ds : List Char) :
    words p (gap ++ ds) = words p ds := by
  rw [words_append fun c last _ _ => Or.inl (outside c (List.mem_of_mem_getLast? last)),
    words_outside outside, List.nil_append]

theorem words_before (outside : ∀ c ∈ gap, p c = false) (cs : List Char) :
    words p (cs ++ gap) = words p cs := by
  rw [words_append fun _ _ d head => Or.inr (outside d (List.mem_of_mem_head? head)),
    words_outside outside, List.append_nil]

theorem words_between (some : gap ≠ []) (outside : ∀ c ∈ gap, p c = false) (cs ds : List Char) :
    words p (cs ++ gap ++ ds) = words p cs ++ words p ds := by
  rw [words_append, words_before outside]
  intro c last d _
  rw [List.getLast?_append_of_ne_nil _ some] at last
  exact Or.inl (outside c (List.mem_of_mem_getLast? last))

end Parts

/-! Words joined. -/

/-- Words that are joined by a character begin and end with characters of words, and of two characters
beside each other one at least is of a word. -/
structure Joined (p : Char → Bool) (cs : List Char) : Prop where
  first : ∀ c ∈ cs.head?, p c = true
  last : ∀ c ∈ cs.getLast?, p c = true
  inner : cs.IsChain fun a b => p a = true ∨ p b = true

theorem joined_word {p : Char → Bool} {word : List Char} (is : IsWord p word) : Joined p word where
  first c head := is.all c (List.mem_of_mem_head? head)
  last c last := is.all c (List.mem_of_mem_getLast? last)
  inner := List.Pairwise.isChain
    (List.pairwise_of_forall_mem_list fun a first _ _ => Or.inl (is.all a first))

theorem Joined.append {p : Char → Bool} {cs ds : List Char} (one : Joined p cs) (two : Joined p ds)
    (left : cs ≠ []) (right : ds ≠ []) (c : Char) : Joined p (cs ++ [c] ++ ds) where
  first d head := by
    rw [List.append_assoc, List.head?_append_of_ne_nil _ left] at head
    exact one.first d head
  last d last := by
    rw [List.getLast?_append_of_ne_nil _ right] at last
    exact two.last d last
  inner := by
    rw [List.append_assoc, List.singleton_append, List.isChain_append, List.isChain_cons]
    exact ⟨one.inner, ⟨fun d head => Or.inr (two.first d head), two.inner⟩,
      fun a last _ _ => Or.inl (one.last a last)⟩

theorem joined_intercalate {p : Char → Bool} (c : Char) {parts : List (List Char)}
    (each : ∀ part ∈ parts, IsWord p part) : Joined p ([c].intercalate parts) := by
  induction parts with
  | nil => exact ⟨nofun, nofun, .nil⟩
  | cons word rest ih =>
    obtain ⟨is, others⟩ := List.forall_mem_cons.mp each
    cases rest with
    | nil => simpa [List.intercalate] using joined_word is
    | cons next rest =>
      have filled : [c].intercalate (next :: rest) ≠ [] := by
        have first := (others next List.mem_cons_self).filled
        cases rest with
        | nil => simpa [List.intercalate] using first
        | cons _ _ => simp [List.intercalate_cons_cons]
      rw [List.intercalate_cons_cons]
      exact (joined_word is).append (ih others) is.filled filled c

end Joinery.Text
