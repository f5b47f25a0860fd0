import Joinery.Formula.Evaluation
import Joinery.Formula.Lint
import Joinery.Proofs.Formula.Grammar
import Joinery.Proofs.Text.Key

/-!
How a formula is cut. Word characters are characters of operands, blanks and symbols are neither, and a
text of operand characters is one token, also with a line end behind it. The tokens of a text are the
text without its blanks, cut at every symbol and at every blank and nowhere else, so that the blanks of
a formula matter only where they keep two operands apart.
-/
namespace Joinery.Text

theorem within_eq_true {spans : List Span} {c : Char} :
    within spans c = true ↔ ∃ s ∈ spans, s.1 ≤ c.toNat ∧ c.toNat ≤ s.2 := by
  simp [within, Span.covers]

theorem not_within_of_apart {these those : List Span}
    (apart : ∀ s ∈ these, ∀ t ∈ those, s.2 < t.1 ∨ t.2 < s.1) {c : Char}
    (inside : within these c = true) : within those c = false := by
  obtain ⟨s, here, low, high⟩ := within_eq_true.mp inside
  rw [← Bool.not_eq_true, within_eq_true]
  rintro ⟨t, there, low', high'⟩
  rcases apart s here t there with below | above <;> omega

theorem blank_not_word {c : Char} (blank : isBlank c = true) : isWordChar c = false :=
  not_within_of_apart (by decide +kernel) blank

end Joinery.Text

namespace Joinery.Formula
open Text

/-! Classes of characters. -/

theorem symbol_not_word {c : Char} {t : Token} (read : symbol? c = some t) : isWordChar c = false := by
  unfold symbol? at read
  split at read <;> first | decide +kernel | cases read

theorem operandChar_of_word {c : Char} (word : isWordChar c = true) : isOperandChar c = true := by
  rw [isOperandChar, Bool.and_eq_true, Bool.not_eq_true', Option.isNone_iff_eq_none]
  constructor
  · exact eq_false_of_ne_true fun blank => by simp [blank_not_word blank] at word
  · exact Option.eq_none_iff_forall_ne_some.mpr fun t read => by simp [symbol_not_word read] at word

theorem not_word_of_not_operandChar {c : Char} (outside : isOperandChar c = false) :
    isWordChar c = false :=
  eq_false_of_ne_true fun word => by simp [operandChar_of_word word] at outside

theorem continuesName_of_startsName {c : Char} (starts : startsName c = true) :
    continuesName c = true :=
  (continuesName_iff c).mpr (Or.inl ((startsName_iff c).mp starts))

theorem word_of_continuesName {c : Char} (continues : continuesName c = true) :
    isWordChar c = true := by
  have plain : ∀ s ∈ [(0x0030, 0x0039), (0x0041, 0x005A), (0x005F, 0x005F), (0x0061, 0x007A)],
      s ∈ wordSpans := by decide +kernel
  rw [isWordChar, within_eq_true]
  rcases (continuesName_iff c).mp continues with (⟨low, high⟩ | ⟨low, high⟩ | rfl) | ⟨low, high⟩
  · exact ⟨(0x0041, 0x005A), plain _ (by decide), low, high⟩
  · exact ⟨(0x0061, 0x007A), plain _ (by decide), low, high⟩
  · exact ⟨(0x005F, 0x005F), plain _ (by decide), by decide, by decide⟩
  · exact ⟨(0x0030, 0x0039), plain _ (by decide), low, high⟩

theorem lineEnd_not_operandChar : isOperandChar '\n' = false := by decide

/-! Identifiers. -/

theorem IsIdentifier.continues {cs : List Char} (identifier : IsIdentifier cs) :
    ∀ c ∈ cs, continuesName c = true := by
  obtain ⟨first, rest⟩ := identifier
  refine List.forall_mem_cons.mpr ⟨?_, fun c member => (continuesName_iff c).mpr (rest c member)⟩
  exact (continuesName_iff _).mpr (Or.inl first)

theorem IsIdentifier.word {cs : List Char} (identifier : IsIdentifier cs) :
    IsWord isOperandChar cs where
  filled := by
    obtain ⟨_, _⟩ := identifier
    exact List.cons_ne_nil _ _
  all c member := operandChar_of_word (word_of_continuesName (identifier.continues c member))

theorem identifier_of_isName {name : String} (named : isName name = true) :
    IsIdentifier name.toList ∨ ∃ stem, name = stem ++ "\n" ∧ IsIdentifier stem.toList := by
  rw [isName, isNameForm_iff, withoutLineEnd] at named
  split at named
  · rename_i last
    refine Or.inr ⟨.ofList name.toList.dropLast, ?_, by rwa [String.toList_ofList]⟩
    have split := List.dropLast_append_getLast? '\n' last
    apply String.toList_injective
    rw [String.toList_append, String.toList_ofList]
    exact split.symm
  · exact Or.inl named

theorem IsIdentifier.isName {text : String} (identifier : IsIdentifier text.toList) :
    Formula.isName text = true :=
  (isName_iff identifier.word.all).mpr identifier

theorem IsIdentifier.not_number {text : String} (identifier : IsIdentifier text.toList) :
    isNumber text = false :=
  eq_false_of_ne_true fun number =>
    identifier_not_numeral identifier ((isNumber_iff identifier.word.all).mp number)

/-! Texts of one token. -/

theorem ofRun?_word {run : List Char} (word : IsWord isOperandChar run) :
    Token.ofRun? run = some (.operand (.ofList run)) := if_pos (List.all_eq_true.mpr word.all)

theorem tokens_word {text : String} (word : IsWord isOperandChar text.toList) :
    tokens text = [.operand text] := by
  simp [tokens, runs_word word, ofRun?_word word]

theorem tokens_word_lineEnd {text : String} (word : IsWord isOperandChar text.toList) :
    tokens (text ++ "\n") = [.operand text] := by
  have split : (text ++ "\n").toList = text.toList ++ '\n' :: [] := String.toList_append
  have none : runs isOperandChar [] = [] := rfl
  have blank : Token.ofRun? ['\n'] = .none := by decide
  rw [tokens, split, runs_append_cons word lineEnd_not_operandChar, none, List.filterMap_cons,
    List.filterMap_cons_none blank]
  simp [ofRun?_word word]

/-! Symbols and blanks. -/

def symbols : List Char := ['+', '-', '*', '/', '^', '(', ')']

/-- Symbols and blanks end a run of other characters. -/
def Separates (c : Char) : Prop := isBlank c = true ∨ c ∈ symbols

theorem symbol_text {c : Char} {t : Token} (read : symbol? c = some t) :
    c ∈ symbols ∧ t.text = .singleton c := by
  unfold symbol? at read
  split at read <;> cases read <;> exact ⟨by simp [symbols], rfl⟩

theorem symbol?_ne_operand {c : Char} {text : String} : symbol? c ≠ some (.operand text) := by
  intro read
  unfold symbol? at read
  split at read <;> cases read

theorem symbol?_eq_none {c : Char} : symbol? c = none ↔ c ∉ symbols := by
  constructor
  · intro unread listed
    have each : symbols.all (fun d => (symbol? d).isSome) = true := by decide
    simpa [unread] using List.all_eq_true.mp each c listed
  · intro unlisted
    exact Option.eq_none_iff_forall_ne_some.mpr fun t read => unlisted (symbol_text read).1

theorem not_blank_of_symbol {c : Char} (listed : c ∈ symbols) : isBlank c = false := by
  have each : symbols.all (!isBlank ·) = true := by decide
  simpa using List.all_eq_true.mp each c listed

theorem isOperandChar_eq_false {c : Char} : isOperandChar c = false ↔ Separates c := by
  rw [isOperandChar, Bool.and_eq_false_iff, Bool.not_eq_false', ← Bool.not_eq_true,
    Option.isNone_iff_eq_none, symbol?_eq_none, not_not, Separates]

theorem not_blank_of_operandChar {c : Char} (inside : isOperandChar c = true) : isBlank c = false :=
  eq_false_of_ne_true fun blank => by simp [isOperandChar, blank] at inside

/-! Runs and the tokens that they are. -/

/-- What a run of a text is, with its token: a word of operand characters, a symbol or a blank. -/
inductive RunToken : List Char → Option Token → Prop
  | word {run : List Char} : IsWord isOperandChar run →
      RunToken run (some (.operand (.ofList run)))
  | symbol {c : Char} {t : Token} : symbol? c = some t → RunToken [c] (some t)
  | blank {c : Char} : isBlank c = true → RunToken [c] none

theorem ofRun?_single {c : Char} (outside : isOperandChar c = false) :
    Token.ofRun? [c] = symbol? c := by
  simp [Token.ofRun?, outside]

theorem runToken {cs run : List Char} (member : run ∈ runs isOperandChar cs) :
    RunToken run (Token.ofRun? run) := by
  rcases run_cases member with word | ⟨c, rfl, outside⟩
  · exact ofRun?_word word ▸ .word word
  · rw [ofRun?_single outside]
    cases read : symbol? c with
    | some t => exact .symbol read
    | none => exact .blank (by simpa [isOperandChar, read] using outside)

theorem RunToken.text {run : List Char} {token : Option Token} (is : RunToken run token) :
    (token.toList.flatMap fun t => t.text.toList) = run.filter (!isBlank ·) := by
  cases is with
  | word word =>
    have kept : run.filter (!isBlank ·) = run :=
      List.filter_eq_self.mpr fun c member => by simp [not_blank_of_operandChar (word.all c member)]
    simp [kept, Token.text]
  | symbol read =>
    obtain ⟨listed, text⟩ := symbol_text read
    simp [text, not_blank_of_symbol listed]
  | blank blank => simp [blank]

/-! Tokens of characters. -/

def tokensOf (cs : List Char) : List Token := (runs isOperandChar cs).filterMap Token.ofRun?

theorem tokens_eq (formula : String) : tokens formula = tokensOf formula.toList := rfl

theorem texts_tokensOf (cs : List Char) :
    ((tokensOf cs).flatMap fun t => t.text.toList) = cs.filter (!isBlank ·) := by
  have whole : (runs isOperandChar cs).flatten = cs := List.flatten_splitBy _ cs
  have each : ∀ run ∈ runs isOperandChar cs,
      ((Token.ofRun? run).toList.flatMap fun t => t.text.toList) = run.filter (!isBlank ·) :=
    fun run member => (runToken member).text
  rw [tokensOf]
  conv_rhs => rw [← whole]
  generalize runs isOperandChar cs = rs at each
  induction rs with
  | nil => rfl
  | cons run rs ih =>
    obtain ⟨first, rest⟩ := List.forall_mem_cons.mp each
    rw [List.flatten_cons, List.filter_append, ← ih rest, ← first]
    cases token : Token.ofRun? run <;> simp [token]

theorem tokensOf_append {cs ds : List Char}
    (apart : ∀ c ∈ cs.getLast?, ∀ d ∈ ds.head?, Separates c ∨ Separates d) :
    tokensOf (cs ++ ds) = tokensOf cs ++ tokensOf ds := by
  simp only [← isOperandChar_eq_false] at apart
  rw [tokensOf, runs_append apart, List.filterMap_append]
  rfl

theorem tokensOf_single {c : Char} (outside : isOperandChar c = false) :
    tokensOf [c] = (symbol? c).toList := by
  have none : runs isOperandChar [] = [] := rfl
  rw [tokensOf, runs_cons outside, none, List.filterMap_cons, ofRun?_single outside]
  cases symbol? c <;> rfl

theorem tokensOf_blank {gap : List Char} (blank : ∀ c ∈ gap, isBlank c = true) :
    tokensOf gap = [] := by
  induction gap with
  | nil => rfl
  | cons c gap ih =>
    obtain ⟨first, rest⟩ := List.forall_mem_cons.mp blank
    have outside : isOperandChar c = false := isOperandChar_eq_false.mpr (Or.inl first)
    have unread : symbol? c = none := symbol?_eq_none.mpr fun listed => by
      simp [not_blank_of_symbol listed] at first
    rw [tokensOf, runs_cons outside, List.filterMap_cons, ofRun?_single outside, unread]
    exact ih rest

theorem tokensOf_text {cs : List Char} {t : Token} (member : t ∈ tokensOf cs) :
    tokensOf t.text.toList = [t] := by
  obtain ⟨run, cut, token⟩ := List.mem_filterMap.mp member
  have is := runToken cut
  rw [token] at is
  cases is with
  | word word =>
    rw [tokensOf, Token.text, String.toList_ofList, runs_word word, List.filterMap_cons_some token]
    rfl
  | symbol read =>
    obtain ⟨listed, text⟩ := symbol_text read
    rw [text, String.toList_singleton, tokensOf_single (isOperandChar_eq_false.mpr (Or.inr listed)),
      read]
    rfl

/-! Blanks between tokens. -/

theorem tokensOf_between {gap : List Char} (some : gap ≠ []) (blank : ∀ c ∈ gap, isBlank c = true)
    (cs ds : List Char) : tokensOf (cs ++ gap ++ ds) = tokensOf cs ++ tokensOf ds := by
  have first : tokensOf (cs ++ gap) = tokensOf cs ++ tokensOf gap :=
    tokensOf_append fun _ _ d head => Or.inr (Or.inl (blank d (List.mem_of_mem_head? head)))
  have second : tokensOf (cs ++ gap ++ ds) = tokensOf (cs ++ gap) ++ tokensOf ds := by
    refine tokensOf_append fun c last _ _ => Or.inl (Or.inl (blank c ?_))
    rw [List.getLast?_append_of_ne_nil _ some] at last
    exact List.mem_of_mem_getLast? last
  rw [second, first, tokensOf_blank blank, List.append_nil]

theorem tokensOf_gap {cs gap ds : List Char} (blank : ∀ c ∈ gap, isBlank c = true)
    (apart : ∀ c ∈ cs.getLast?, ∀ d ∈ ds.head?, Separates c ∨ Separates d) :
    tokensOf (cs ++ gap ++ ds) = tokensOf (cs ++ ds) := by
  by_cases some : gap = []
  · rw [some, List.append_nil]
  · rw [tokensOf_between some blank, tokensOf_append apart]

theorem tokensOf_intercalate {gap : List Char} (some : gap ≠ [])
    (blank : ∀ c ∈ gap, isBlank c = true) {ts : List Token}
    (each : ∀ t ∈ ts, tokensOf t.text.toList = [t]) :
    tokensOf (gap.intercalate (ts.map fun t => t.text.toList)) = ts := by
  induction ts with
  | nil => rfl
  | cons t ts ih =>
    obtain ⟨own, others⟩ := List.forall_mem_cons.mp each
    cases ts with
    | nil => simpa [List.intercalate] using own
    | cons u ts =>
      have later := ih others
      rw [List.map_cons] at later
      rw [List.map_cons, List.map_cons, List.intercalate_cons_cons, tokensOf_between some blank, own,
        later]
      rfl

/-! Runs at their places. -/

/-- Every operand is a run at some place of its text, with the other tokens on either side. A separator
or an end of the text is beside it, so that the run cannot be made longer. -/
theorem tokensOf_place {cs : List Char} {before after : List Token} {run : String}
    (place : tokensOf cs = before ++ .operand run :: after) :
    ∃ front back : List Char, cs = front ++ run.toList ++ back ∧
      tokensOf front = before ∧ tokensOf back = after ∧
      (∀ c ∈ front.getLast?, Separates c) ∧ ∀ c ∈ back.head?, Separates c := by
  obtain ⟨earlier, rest, cut, first, second⟩ := List.filterMap_eq_append_iff.mp place
  obtain ⟨gaps, r, later, rfl, none, token, third⟩ := List.filterMap_eq_cons_iff.mp second
  have whole : (runs isOperandChar cs).flatten = cs := List.flatten_splitBy _ cs
  have split : runs isOperandChar cs = (earlier ++ gaps) ++ r :: later := by simp [cut]
  have member : r ∈ runs isOperandChar cs := by simp [cut]
  have is := runToken member
  rw [token] at is
  cases is with
  | symbol read => exact absurd read symbol?_ne_operand
  | word word =>
    obtain ⟨outsideBefore, outsideAfter⟩ := word_maximal split word
    refine ⟨(earlier ++ gaps).flatten, later.flatten, ?_, ?_, ?_, ?_, ?_⟩
    · rw [String.toList_ofList, ← whole, split]
      simp
    · have part : earlier ++ gaps <:+: runs isOperandChar cs := ⟨[], r :: later, by simp [split]⟩
      rw [tokensOf, runs_flatten part, List.filterMap_append, first,
        List.filterMap_eq_nil_iff.mpr none, List.append_nil]
    · have part : later <:+: runs isOperandChar cs := ⟨earlier ++ gaps ++ [r], [], by simp [split]⟩
      rw [tokensOf, runs_flatten part, third]
    · exact fun c last => isOperandChar_eq_false.mp (outsideBefore c last)
    · exact fun c head => isOperandChar_eq_false.mp (outsideAfter c head)

theorem token_cases {cs : List Char} {t : Token} (member : t ∈ tokensOf cs) :
    (∃ c ∈ symbols, symbol? c = some t ∧ t.text = .singleton c) ∨
      ∃ run, t = .operand run ∧ run ≠ "" ∧ ∀ c ∈ run.toList, ¬ Separates c := by
  obtain ⟨run, cut, token⟩ := List.mem_filterMap.mp member
  have is := runToken cut
  rw [token] at is
  cases is with
  | symbol read =>
    obtain ⟨listed, text⟩ := symbol_text read
    exact Or.inl ⟨_, listed, read, text⟩
  | word word =>
    refine Or.inr ⟨_, rfl, ?_, ?_⟩
    · exact fun empty => word.filled (by simpa using congrArg String.toList empty)
    · intro c inside separates
      rw [String.toList_ofList] at inside
      have other := word.all c inside
      simp [isOperandChar_eq_false.mpr separates] at other

/-! Formulas in different texts. -/

/-- Two texts that are one formula to everything that reads formulas. -/
structure SameFormula (one two : String) : Prop where
  tokens : tokens one = tokens two
  evaluation (env : Environment) : evaluate one env = evaluate two env
  issues (known : Option (List String)) : lint known one = lint known two
  names : names one = names two

theorem sameFormula_of_tokens {one two : String} (same : tokens one = tokens two) :
    SameFormula one two where
  tokens := same
  evaluation env := by rw [evaluate, evaluate, same]
  issues known := by rw [lint, lint, same]
  names := by rw [names, names, same]

/-- The tokens of a formula are its text without blanks, cut into symbols and into the longest runs of
other characters. A formula stays the same when its tokens are joined by blanks, and when blanks are put
in anywhere but inside a run. -/
theorem tokens_partition_text (formula : String) :
    String.join ((tokens formula).map Token.text) =
      .ofList (formula.toList.filter (!isBlank ·)) ∧
    (∀ t ∈ tokens formula, (∃ c ∈ symbols, symbol? c = some t ∧ t.text = .singleton c) ∨
      ∃ run, t = .operand run ∧ run ≠ "" ∧ ∀ c ∈ run.toList, ¬ Separates c) ∧
    (∀ before run after, tokens formula = before ++ .operand run :: after →
      ∃ front back : String, formula = front ++ run ++ back ∧
        tokens front = before ∧ tokens back = after ∧
        (∀ c ∈ front.toList.getLast?, Separates c) ∧ ∀ c ∈ back.toList.head?, Separates c) ∧
    (∀ gap : String, gap ≠ "" → (∀ c ∈ gap.toList, isBlank c = true) →
      SameFormula (gap.intercalate ((tokens formula).map Token.text)) formula) ∧
    ∀ front gap back : String, formula = front ++ back → (∀ c ∈ gap.toList, isBlank c = true) →
      (∀ c ∈ front.toList.getLast?, ∀ d ∈ back.toList.head?, Separates c ∨ Separates d) →
      SameFormula (front ++ gap ++ back) formula := by
  refine ⟨?_, fun t => token_cases, ?_, ?_, ?_⟩
  · apply String.toList_injective
    rw [String.toList_join, List.flatMap_map, String.toList_ofList, tokens_eq, texts_tokensOf]
  · intro before run after place
    obtain ⟨front, back, text, first, second, edges⟩ := tokensOf_place place
    refine ⟨.ofList front, .ofList back, ?_, ?_, ?_, ?_⟩
    · apply String.toList_injective
      simpa using text
    · rw [tokens_eq, String.toList_ofList, first]
    · rw [tokens_eq, String.toList_ofList, second]
    · simpa only [String.toList_ofList] using edges
  · intro gap some blank
    apply sameFormula_of_tokens
    have filled : gap.toList ≠ [] := fun empty => some (String.toList_injective empty)
    rw [tokens_eq, String.toList_intercalate, List.map_map]
    exact tokensOf_intercalate filled blank fun t member => tokensOf_text member
  · rintro front gap back rfl blank apart
    apply sameFormula_of_tokens
    rw [tokens_eq, tokens_eq, String.toList_append, String.toList_append, String.toList_append,
      tokensOf_gap blank apart]

theorem tokens_partition_text_width :
    (∃ front back : String, "(width)*2.5" = front ++ "width" ++ back ∧ tokens front = [.opening] ∧
      tokens back = [.closing, .operator .mul, .operand "2.5"] ∧
      (∀ c ∈ front.toList.getLast?, Separates c) ∧ ∀ c ∈ back.toList.head?, Separates c) ∧
    SameFormula "( \twidth \t) \t* \t2.5" "(width)*2.5" ∧
    SameFormula "(width)\n *2.5" "(width)*2.5" := by
  obtain ⟨-, -, places, joined, spaced⟩ := tokens_partition_text "(width)*2.5"
  have listed : tokens "(width)*2.5" =
      [.opening] ++ .operand "width" :: [.closing, .operator .mul, .operand "2.5"] := by decide
  have together := joined " \t" (by decide) (List.all_eq_true.mp (by decide))
  rw [listed] at together
  refine ⟨places _ _ _ listed, together, ?_⟩
  refine spaced "(width)" "\n " "*2.5" (by decide) (List.all_eq_true.mp (by decide)) ?_
  have last : "(width)".toList.getLast? = some ')' := by decide
  intro c same d _
  obtain rfl := Option.some.inj (last.symm.trans same)
  exact Or.inl (Or.inr (by simp [symbols]))

end Joinery.Formula
