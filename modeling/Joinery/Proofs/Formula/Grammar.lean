import Joinery.Proofs.Formula.Reading

/-!
The grammar of formulas: numbers and identifiers, two expressions around an operator, and an
expression in parentheses. The strict reading has no issue with exactly the formulas whose tokens
are an expression of this grammar over known identifiers.
-/
namespace Joinery.Formula
open Text

def IsLetter (c : Char) : Prop := ('A' ≤ c ∧ c ≤ 'Z') ∨ ('a' ≤ c ∧ c ≤ 'z') ∨ c = '_'

def IsPlainNumeral (c : Char) : Prop := '0' ≤ c ∧ c ≤ '9'

/-- Digits of any script, with at most one point, which has a digit beside it. -/
inductive IsNumeral : List Char → Prop where
  | whole {ds : List Char} : ds ≠ [] → (∀ d ∈ ds, isDigit d) → IsNumeral ds
  | pointed {ds fs : List Char} : ds ≠ [] → (∀ d ∈ ds, isDigit d) → (∀ d ∈ fs, isDigit d) →
      IsNumeral (ds ++ '.' :: fs)
  | fraction {fs : List Char} : fs ≠ [] → (∀ d ∈ fs, isDigit d) → IsNumeral ('.' :: fs)

inductive IsIdentifier : List Char → Prop where
  | mk {c : Char} {cs : List Char} : IsLetter c → (∀ d ∈ cs, IsLetter d ∨ IsPlainNumeral d) →
      IsIdentifier (c :: cs)

inductive Expression : List Token → Prop where
  | number {text : String} : IsNumeral text.toList → Expression [.operand text]
  | identifier {text : String} : IsIdentifier text.toList → Expression [.operand text]
  | binary {left right : List Token} (o : Operator) : Expression left → Expression right →
      Expression (left ++ .operator o :: right)
  | group {inner : List Token} : Expression inner → Expression (.opening :: (inner ++ [.closing]))

theorem isNumberForm_iff (cs : List Char) : isNumberForm cs = true ↔ IsNumeral cs := by
  constructor
  · intro form
    have split := List.takeWhile_append_dropWhile (p := isDigit) (l := cs)
    have digits : ∀ d ∈ cs.takeWhile isDigit, isDigit d := fun d h => List.all_eq_true.mp
      List.all_takeWhile d h
    simp only [isNumberForm] at form
    split at form
    · rename_i none_left
      rw [none_left, List.append_nil] at split
      rw [← split]
      exact .whole (by simpa using form) digits
    · rename_i fraction point
      rw [point] at split
      simp only [Bool.and_eq_true, Bool.or_eq_true, List.all_eq_true] at form
      obtain ⟨fractionDigits, some_digit⟩ := form
      rw [← split]
      by_cases empty : cs.takeWhile isDigit = []
      · rw [empty]
        exact .fraction (by simpa [empty] using some_digit) fractionDigits
      · exact .pointed empty digits fractionDigits
    · contradiction
  · intro numeral
    have point : isDigit '.' = false := by decide
    cases numeral with
    | whole some_digit digits =>
      have all : cs.takeWhile isDigit = cs := List.takeWhile_eq_self_iff.mpr digits
      have rest : cs.dropWhile isDigit = [] := List.dropWhile_eq_nil_iff.mpr digits
      simp [isNumberForm, all, rest, some_digit]
    | @pointed ds fs some_digit digits fraction =>
      have all : (ds ++ '.' :: fs).takeWhile isDigit = ds := by
        simp [List.takeWhile_append_of_pos digits, point]
      have rest : (ds ++ '.' :: fs).dropWhile isDigit = '.' :: fs := by
        simp [List.dropWhile_append_of_pos digits, point]
      simp only [isNumberForm, all, rest]
      simpa [some_digit] using fraction
    | @fraction fs some_digit fraction =>
      have all : ('.' :: fs).takeWhile isDigit = [] := by simp [point]
      have rest : ('.' :: fs).dropWhile isDigit = '.' :: fs := by simp [point]
      simp only [isNumberForm, all, rest]
      simpa [some_digit] using fraction

theorem startsName_iff (c : Char) : startsName c = true ↔ IsLetter c := by
  simp [startsName, IsLetter, Char.isAlpha, Char.isUpper, Char.isLower, Char.le_def, or_assoc]

theorem continuesName_iff (c : Char) :
    continuesName c = true ↔ IsLetter c ∨ IsPlainNumeral c := by
  simp only [continuesName, Char.isAlphanum, ← startsName_iff, startsName, IsPlainNumeral,
    Char.isDigit, Char.le_def, Bool.or_eq_true, Bool.and_eq_true, decide_eq_true_eq]
  grind

theorem isNameForm_iff (cs : List Char) : isNameForm cs = true ↔ IsIdentifier cs := by
  constructor
  · intro form
    cases cs with
    | nil => simp [isNameForm] at form
    | cons c cs =>
      simp only [isNameForm, Bool.and_eq_true, List.all_eq_true] at form
      exact .mk ((startsName_iff c).mp form.1) fun d h => (continuesName_iff d).mp (form.2 d h)
  · rintro ⟨start, rest⟩
    simp only [isNameForm, Bool.and_eq_true, List.all_eq_true]
    exact ⟨(startsName_iff _).mpr start, fun d h => (continuesName_iff d).mpr (rest d h)⟩

theorem operand_chars {formula text : String} (h : .operand text ∈ tokens formula) :
    ∀ c ∈ text.toList, isOperandChar c := by
  obtain ⟨run, -, cut⟩ := List.mem_filterMap.mp h
  simp only [Token.ofRun?] at cut
  split at cut
  · rename_i all
    simp only [Option.some.injEq, Token.operand.injEq] at cut
    subst cut
    simpa using all
  · obtain ⟨c, -, symbol⟩ := Option.bind_eq_some_iff.mp cut
    simp only [symbol?] at symbol
    split at symbol <;> simp at symbol

theorem symbol_of_operator {c : Char} {o : Operator} (read : symbol? c = some (.operator o)) :
    c = o.symbol := by
  unfold symbol? at read
  split at read <;> cases read <;> rfl

theorem symbol_mem {formula : String} {o : Operator} (member : .operator o ∈ tokens formula) :
    o.symbol ∈ formula.toList := by
  obtain ⟨run, cut, token⟩ := List.mem_filterMap.mp member
  unfold Token.ofRun? at token
  split at token
  · cases token
  · obtain ⟨c, first, read⟩ := Option.bind_eq_some_iff.mp token
    have within : c ∈ (runs isOperandChar formula.toList).flatten :=
      List.mem_flatten_of_mem cut (List.mem_of_mem_head? first)
    rw [runs, List.flatten_splitBy] at within
    exact symbol_of_operator read ▸ within

theorem withoutLineEnd_operand {cs : List Char} (chars : ∀ c ∈ cs, isOperandChar c) :
    withoutLineEnd cs = cs := by
  have : cs.getLast? ≠ some '\n' := by
    intro last
    have := chars '\n' (List.mem_of_getLast? last)
    exact absurd this (by decide)
  simp [withoutLineEnd, this]

theorem isNumber_iff {text : String} (chars : ∀ c ∈ text.toList, isOperandChar c) :
    isNumber text = true ↔ IsNumeral text.toList := by
  rw [isNumber, withoutLineEnd_operand chars, isNumberForm_iff]

theorem isName_iff {text : String} (chars : ∀ c ∈ text.toList, isOperandChar c) :
    isName text = true ↔ IsIdentifier text.toList := by
  rw [isName, withoutLineEnd_operand chars, isNameForm_iff]

theorem letter_not_digit {c : Char} (letter : IsLetter c) : isDigit c = false := by
  have plain : ∀ n < 128, 58 ≤ n → zeros.find? (fun z => z ≤ n && n < z + 10) = none := by decide
  have code : 58 ≤ c.toNat ∧ c.toNat < 128 := by
    rcases letter with ⟨low, high⟩ | ⟨low, high⟩ | rfl
    · exact ⟨Nat.le_trans (by decide) (show 65 ≤ c.toNat from low),
        Nat.lt_of_le_of_lt (show c.toNat ≤ 90 from high) (by decide)⟩
    · exact ⟨Nat.le_trans (by decide) (show 97 ≤ c.toNat from low),
        Nat.lt_of_le_of_lt (show c.toNat ≤ 122 from high) (by decide)⟩
    · decide
  simp [isDigit, digitValue?, plain c.toNat code.2 code.1]

theorem identifier_not_numeral {cs : List Char} (identifier : IsIdentifier cs) : ¬ IsNumeral cs := by
  obtain ⟨letter, -⟩ := identifier
  intro numeral
  have first := letter_not_digit letter
  generalize shape : _ :: _ = cs at numeral
  cases numeral with
  | whole _ digits => subst shape; simp [first] at digits
  | @pointed ds fs some_digit digits _ =>
    cases ds with
    | nil => exact some_digit rfl
    | cons d ds =>
      obtain ⟨rfl, -⟩ := List.cons.inj shape
      simp [first] at digits
  | fraction _ _ =>
    obtain ⟨rfl, -⟩ := List.cons.inj shape
    have : startsName '.' = false := by decide
    simp [(startsName_iff '.').mpr letter] at this

theorem operandIssues_nil_iff {known : Option (List String)} {place : Nat} {text : String}
    (chars : ∀ c ∈ text.toList, isOperandChar c) :
    operandIssues known place text = [] ↔
      (IsNumeral text.toList ∨ IsIdentifier text.toList) ∧
        ∀ names, known = some names → IsIdentifier text.toList → text ∈ names := by
  rw [← isNumber_iff chars, ← isName_iff chars]
  unfold operandIssues
  by_cases numeral : isNumber text = true
  · have : ¬ isName text = true := fun h =>
      identifier_not_numeral ((isName_iff chars).mp h) ((isNumber_iff chars).mp numeral)
    simp [numeral, this]
  · by_cases identifier : isName text = true
    · cases known with
      | none => simp [numeral, identifier]
      | some names => simp [numeral, identifier]
    · simp [numeral, identifier]

theorem operandIssues_of_issuesFrom {known : Option (List String)} {expects : Bool} {place : Nat}
    {ts : List Token} {text : String} (clean : issuesFrom known expects place ts = [])
    (member : .operand text ∈ ts) : ∃ place, operandIssues known place text = [] := by
  induction ts generalizing expects place with
  | nil => simp at member
  | cons token ts ih =>
    cases token with
    | operand other =>
      simp only [issuesFrom, List.append_eq_nil_iff] at clean
      rcases List.mem_cons.mp member with same | member
      · cases same
        exact ⟨place, clean.1.1⟩
      · exact ih clean.2 member
    | opening =>
      simp only [issuesFrom, List.append_eq_nil_iff] at clean
      exact ih clean.2 (by simpa using member)
    | closing =>
      simp only [issuesFrom, List.append_eq_nil_iff] at clean
      exact ih clean.2 (by simpa using member)
    | operator o =>
      simp only [issuesFrom, List.append_eq_nil_iff] at clean
      exact ih clean.2 (by simpa using member)

theorem Tree.expression {t : Tree}
    (operands : ∀ text, .operand text ∈ t.tokens →
      IsNumeral text.toList ∨ IsIdentifier text.toList) : Expression t.tokens := by
  induction t with
  | operand text =>
    rcases operands text (by simp [tokens]) with numeral | identifier
    · exact .number numeral
    · exact .identifier identifier
  | group inner ih =>
    exact .group (ih fun text member => operands text (by simp [tokens, member]))
  | apply o left right ihl ihr =>
    exact .binary o (ihl fun text member => operands text (by simp [tokens, member]))
      (ihr fun text member => operands text (by simp [tokens, member]))

theorem Expression.operand {ts : List Token} (e : Expression ts) {text : String}
    (member : .operand text ∈ ts) : IsNumeral text.toList ∨ IsIdentifier text.toList := by
  induction e with
  | number numeral =>
    obtain rfl : text = _ := by simpa using member
    exact Or.inl numeral
  | identifier identifier =>
    obtain rfl : text = _ := by simpa using member
    exact Or.inr identifier
  | binary o _ _ ihl ihr =>
    rcases List.mem_append.mp member with left | right
    · exact ihl left
    · exact ihr (by simpa using right)
  | group _ ih => exact ih (by simpa using member)

theorem Expression.depthAfter {ts : List Token} (e : Expression ts) (depth : Nat) :
    Formula.depthAfter depth ts = some depth := by
  induction e generalizing depth with
  | number _ => rfl
  | identifier _ => rfl
  | binary o _ _ ihl ihr => simp [Formula.depthAfter, depthAfter_append, ihl, ihr]
  | group _ ih => simp [Formula.depthAfter, depthAfter_append, ih]

theorem Expression.issuesFrom_append {known : Option (List String)} {ts : List Token}
    (e : Expression ts) (rest : List Token) (place : Nat)
    (clean : ∀ text, .operand text ∈ ts → ∀ place, operandIssues known place text = []) :
    ∃ next, issuesFrom known true place (ts ++ rest) = issuesFrom known false next rest := by
  induction e generalizing rest place with
  | number _ => exact ⟨place + 1, by simp [issuesFrom, issueIf, clean]⟩
  | identifier _ => exact ⟨place + 1, by simp [issuesFrom, issueIf, clean]⟩
  | @binary left right o _ _ ihl ihr =>
    obtain ⟨middle, first⟩ := ihl (.operator o :: (right ++ rest)) place
      fun text member => clean text (by simp [member])
    obtain ⟨next, second⟩ := ihr rest (middle + 1) fun text member => clean text (by simp [member])
    exact ⟨next, by simp [first, issuesFrom, issueIf, second]⟩
  | @group inner _ ih =>
    obtain ⟨next, within⟩ := ih (.closing :: rest) (place + 1)
      fun text member => clean text (by simp [member])
    exact ⟨next + 1, by simp [issuesFrom, issueIf, within]⟩

theorem lint_nil_iff_faultless (known : Option (List String)) (formula : String) :
    lint known formula = [] ↔
      balanced (tokens formula) = true ∧ issuesFrom known true 1 (tokens formula) = [] := by
  simp only [lint]
  split
  · rename_i empty
    simp [empty, issuesFrom, issueIf]
  · simp [issueIf]

/-- The strict reading accepts the grammar, with known identifiers where names are given. -/
theorem lint_nil_iff_expression (known : Option (List String)) (formula : String) :
    lint known formula = [] ↔
      Expression (tokens formula) ∧
        ∀ names, known = some names → ∀ text, .operand text ∈ tokens formula →
          IsIdentifier text.toList → text ∈ names := by
  rw [lint_nil_iff_faultless]
  constructor
  · rintro ⟨parens, clean⟩
    obtain ⟨t, -, same, -⟩ := tree_of_faultless clean parens
    have operands : ∀ text, .operand text ∈ tokens formula →
        (IsNumeral text.toList ∨ IsIdentifier text.toList) ∧
          ∀ names, known = some names → IsIdentifier text.toList → text ∈ names := by
      intro text member
      obtain ⟨place, none⟩ := operandIssues_of_issuesFrom clean member
      exact (operandIssues_nil_iff (operand_chars member)).mp none
    rw [← same] at operands ⊢
    exact ⟨Tree.expression fun text member => (operands text member).1,
      fun names given text member => (operands text member).2 names given⟩
  · rintro ⟨expression, listed⟩
    have operands : ∀ text, .operand text ∈ tokens formula →
        ∀ place, operandIssues known place text = [] := by
      intro text member place
      rw [operandIssues_nil_iff (operand_chars member)]
      exact ⟨expression.operand member, fun names given => listed names given text member⟩
    obtain ⟨next, clean⟩ := expression.issuesFrom_append [] 1 operands
    constructor
    · exact (balancedFrom_iff 0 _).mpr (expression.depthAfter 0)
    · simpa [issuesFrom, issueIf] using clean

end Joinery.Formula
