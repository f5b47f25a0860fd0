import Joinery.Number.Literal
import Joinery.Proofs.Formula.Grammar
import Joinery.Proofs.Text.Runs

/-!
Literals of a formula. Digits of any script with an optional point have no sign, no exponent and no
underscore, so each of them is read as a number.
-/
namespace Joinery.Formula
open Number Text

theorem isPlainDigit_plainDigit {c : Char} (digit : isDigit c = true) :
    isPlainDigit (plainDigit c) = true := by
  have plain : ∀ d < 10, isPlainDigit (Char.ofNat (0x30 + d)) = true := by decide
  obtain ⟨d, value⟩ := Option.isSome_iff_exists.mp digit
  obtain ⟨first, found, rfl⟩ := Option.map_eq_some_iff.mp value
  have near := List.find?_some found
  simp only [Bool.and_eq_true, decide_eq_true_eq] at near
  simp only [plainDigit, value]
  exact plain _ (by omega)

theorem ungroup?_of_ungrouped {cs : List Char} (ungrouped : '_' ∉ cs) : ungroup? cs = some cs := by
  fun_induction ungroup? cs <;> simp_all

theorem readSign_of_unsigned {cs : List Char} (plus : '+' ∉ cs) (minus : '-' ∉ cs) :
    readSign cs = (false, cs) := by
  fun_cases readSign cs <;> simp_all

theorem readDecimal?_plain {ds fs : List Char} (digits : ∀ d ∈ ds, isPlainDigit d)
    (fraction : ∀ d ∈ fs, isPlainDigit d) :
    (ds ≠ [] → ∃ d, readDecimal? ds = some d) ∧
      (ds ≠ [] ∨ fs ≠ [] → ∃ d, readDecimal? (ds ++ '.' :: fs) = some d) := by
  have point : isPlainDigit '.' = false := by decide
  constructor
  · intro some_digit
    have all : ds.takeWhile isPlainDigit = ds := List.takeWhile_eq_self_iff.mpr digits
    have rest : ds.dropWhile isPlainDigit = [] := List.dropWhile_eq_nil_iff.mpr digits
    simp [readDecimal?, all, rest, readFraction, readExponent?, some_digit]
  · intro some_digit
    have all : (ds ++ '.' :: fs).takeWhile isPlainDigit = ds := by
      simp [List.takeWhile_append_of_pos digits, point]
    have rest : (ds ++ '.' :: fs).dropWhile isPlainDigit = '.' :: fs := by
      simp [List.dropWhile_append_of_pos digits, point]
    have allFraction : fs.takeWhile isPlainDigit = fs := List.takeWhile_eq_self_iff.mpr fraction
    have restFraction : fs.dropWhile isPlainDigit = [] := List.dropWhile_eq_nil_iff.mpr fraction
    have given : ¬ (ds = [] ∧ fs = []) := by
      rintro ⟨noDigit, noFraction⟩
      rcases some_digit with digit | digit
      · exact digit noDigit
      · exact digit noFraction
    simp [readDecimal?, all, rest, readFraction, allFraction, restFraction, readExponent?, given]

theorem IsNumeral.char {cs : List Char} (numeral : IsNumeral cs) {c : Char} (member : c ∈ cs) :
    isDigit c = true ∨ c = '.' := by
  cases numeral with
  | whole _ digits => exact Or.inl (digits c member)
  | pointed _ digits fraction =>
    rcases List.mem_append.mp member with digit | rest
    · exact Or.inl (digits c digit)
    · rcases List.mem_cons.mp rest with rfl | digit
      · exact Or.inr rfl
      · exact Or.inl (fraction c digit)
  | fraction _ fraction =>
    rcases List.mem_cons.mp member with rfl | digit
    · exact Or.inr rfl
    · exact Or.inl (fraction c digit)

theorem IsNumeral.plain_char {cs : List Char} (numeral : IsNumeral cs) {c : Char}
    (member : c ∈ cs.map plainDigit) : isPlainDigit c = true ∨ c = '.' := by
  obtain ⟨d, within, rfl⟩ := List.mem_map.mp member
  rcases numeral.char within with digit | rfl
  · exact Or.inl (isPlainDigit_plainDigit digit)
  · exact Or.inr (by decide)

theorem IsNumeral.readDecimal? {cs : List Char} (numeral : IsNumeral cs) :
    ∃ d, Number.readDecimal? (cs.map plainDigit) = some d := by
  have point : plainDigit '.' = '.' := by decide
  have plain : ∀ ds : List Char, (∀ d ∈ ds, isDigit d) → ∀ d ∈ ds.map plainDigit, isPlainDigit d := by
    intro ds digits d member
    obtain ⟨c, within, rfl⟩ := List.mem_map.mp member
    exact isPlainDigit_plainDigit (digits c within)
  have noDigit : ∀ d ∈ ([] : List Char), isPlainDigit d := by simp
  cases numeral with
  | whole given digits =>
    exact (readDecimal?_plain (plain _ digits) noDigit).1 (by simpa using given)
  | pointed given digits fraction =>
    rw [List.map_append, List.map_cons, point]
    exact (readDecimal?_plain (plain _ digits) (plain _ fraction)).2 (by simp [given])
  | fraction given fraction =>
    rw [List.map_cons, point]
    exact (readDecimal?_plain noDigit (plain _ fraction)).2 (by simp [given])

theorem readFloat?_decimal {text : String} (chars : ∀ c ∈ text.toList, isOperandChar c)
    (literal : isNumber text = true) : ∃ d : Decimal, readFloat? text = some d.toFloat := by
  have numeral := (isNumber_iff chars).mp literal
  have absent : ∀ c, isPlainDigit c = false → c ≠ '.' → c ∉ text.toList.map plainDigit := by
    intro c notDigit notPoint member
    rcases numeral.plain_char member with digit | rfl
    · simp [notDigit] at digit
    · exact notPoint rfl
  have margin : trimChars isMargin text.toList = text.toList := by
    have kept : ∀ c ∈ text.toList, isMargin c = false := by
      intro c member
      have char := chars c member
      simp only [isOperandChar, Bool.and_eq_true, Bool.not_eq_true'] at char
      simp [isMargin, char.1]
    exact trimChars_of_ends (fun c first => kept c (List.mem_of_mem_head? first))
      fun c last => kept c (List.mem_of_getLast? last)
  have typed : typedForm? text = some (text.toList.map plainDigit) := by
    rw [typedForm?, margin]
    exact ungroup?_of_ungrouped (absent '_' (by decide) (by decide))
  have unsigned : readSign (text.toList.map plainDigit) = (false, text.toList.map plainDigit) :=
    readSign_of_unsigned (absent '+' (by decide) (by decide)) (absent '-' (by decide) (by decide))
  obtain ⟨d, decimal⟩ := numeral.readDecimal?
  exact ⟨d, by simp [readFloat?, typed, unsigned, readUnsigned?, decimal]⟩

theorem readFloat?_literal {text : String} (chars : ∀ c ∈ text.toList, isOperandChar c)
    (literal : isNumber text = true) : ∃ x, readFloat? text = some x := by
  obtain ⟨d, read⟩ := readFloat?_decimal chars literal
  exact ⟨d.toFloat, read⟩

end Joinery.Formula
