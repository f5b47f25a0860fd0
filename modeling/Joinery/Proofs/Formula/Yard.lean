import Joinery.Proofs.Formula.Cut
import Joinery.Proofs.Formula.Sequence

/-!
The order of evaluation on texts. Tokens are taken one by one, and what cannot come out yet waits on a
stack of texts, where an operator looks up the ranks of those that it passes. No look-up fails, for
nothing waits but opening parentheses and operators. What comes out is the order of evaluation: every
text but the parentheses, as often as it was there, and the operands as they followed each other.
-/
namespace Joinery.Formula

def inOrder (texts : List String) : List String :=
  (polish (texts.map Token.ofText)).map Step.text

/-! The texts of operators. -/

def ranks : List (String × Nat) := [("+", 1), ("-", 1), ("*", 2), ("/", 2), ("^", 3)]

def rank? (text : String) : Option Nat := ranks.lookup text

def isParenthesis (text : String) : Bool := text == "(" || text == ")"

/-- Whatever is neither an operator nor a parenthesis, also the empty text. -/
def isOperandText (text : String) : Bool := !isParenthesis text && (rank? text).isNone

theorem Operator.rank?_text (o : Operator) : rank? o.text = some o.rank := by
  cases o <;> decide

theorem Operator.text_ne_opening (o : Operator) : o.text ≠ "(" := by
  cases o <;> decide

theorem Operator.text_ne_closing (o : Operator) : o.text ≠ ")" := by
  cases o <;> decide

theorem Operator.text_not_parenthesis (o : Operator) : isParenthesis o.text = false := by
  simp [isParenthesis, o.text_ne_opening, o.text_ne_closing]

/-- What a text is as a token. -/
inductive Reads : String → Token → Prop
  | opening : Reads "(" .opening
  | closing : Reads ")" .closing
  | operator (o : Operator) : Reads o.text (.operator o)
  | operand {text : String} : isOperandText text = true → Reads text (.operand text)

theorem reads_of_symbol {c : Char} {t : Token} (read : symbol? c = some t) :
    Reads (.singleton c) t := by
  unfold symbol? at read
  split at read
  · cases read; exact .operator .add
  · cases read; exact .operator .sub
  · cases read; exact .operator .mul
  · cases read; exact .operator .div
  · cases read; exact .operator .pow
  · cases read; exact .opening
  · cases read; exact .closing
  · cases read

theorem isOperandText_of_ofText {text : String} (kept : Token.ofText text = .operand text) :
    isOperandText text = true := by
  by_contra other
  have listed : text ∈ ["(", ")", "+", "-", "*", "/", "^"] := by
    by_contra unlisted
    simp only [List.mem_cons, List.not_mem_nil, or_false, not_or] at unlisted
    have unranked : rank? text = none :=
      List.lookup_eq_none_iff.mpr (by simpa [ranks] using unlisted.2.2)
    simp [isOperandText, isParenthesis, unranked, unlisted] at other
  have none : ∀ s ∈ ["(", ")", "+", "-", "*", "/", "^"], Token.ofText s ≠ .operand s := by decide
  exact none text listed kept

theorem reads_ofText (text : String) : Reads text (Token.ofText text) := by
  have operand (kept : Token.ofText text = .operand text) : Reads text (Token.ofText text) :=
    kept ▸ .operand (isOperandText_of_ofText kept)
  cases shape : text.toList with
  | nil => exact operand (by simp [Token.ofText, shape])
  | cons c rest =>
    cases rest with
    | cons d rest => exact operand (by simp [Token.ofText, shape])
    | nil =>
      cases read : symbol? c with
      | none => exact operand (by simp [Token.ofText, shape, read])
      | some t =>
        have same : text = .singleton c := String.toList_injective (by simpa using shape)
        have token : Token.ofText text = t := by simp [Token.ofText, shape, read]
        rw [token, same]
        exact reads_of_symbol read

/-! Texts that wait. -/

def releaseGroup : List String → List String × List String
  | [] => ([], [])
  | text :: rest =>
    if text = "(" then ([], rest) else (text :: (releaseGroup rest).1, (releaseGroup rest).2)

/-- Releases what binds at least as tightly as a new operator. The rank of each text on the way down is
looked up, and a text without one stops everything. -/
def releaseTighter (rank : Nat) : List String → Option (List String × List String)
  | [] => some ([], [])
  | text :: rest =>
    if text = "(" then some ([], text :: rest)
    else
      match rank? text with
      | none => none
      | some own =>
        if rank ≤ own then
          (releaseTighter rank rest).map fun (released, left) => (text :: released, left)
        else some ([], text :: rest)

/-- What has come out so far, and what waits, the latest first. -/
structure Yard where
  output : List String
  waiting : List String

namespace Yard

def take (yard : Yard) (text : String) : Option Yard :=
  if text = "(" then some ⟨yard.output, text :: yard.waiting⟩
  else if text = ")" then
    some ⟨yard.output ++ (releaseGroup yard.waiting).1, (releaseGroup yard.waiting).2⟩
  else
    match rank? text with
    | some rank =>
      (releaseTighter rank yard.waiting).map fun (released, left) =>
        ⟨yard.output ++ released, text :: left⟩
    | none => some ⟨yard.output ++ [text], yard.waiting⟩

def run (texts : List String) : Option Yard := texts.foldlM take ⟨[], []⟩

/-- At the end all that waits comes out, without the parentheses that were never closed. -/
def drained (yard : Yard) : List String := yard.output ++ yard.waiting.filter (· ≠ "(")

end Yard

def Waiting.text : Waiting → String
  | operator o => o.text
  | opening => "("

theorem releaseGroup_waiting (ws : List Waiting) :
    releaseGroup (ws.map Waiting.text) =
      ((closeGroup ws).1.map Step.text, (closeGroup ws).2.map Waiting.text) := by
  induction ws with
  | nil => rfl
  | cons w ws ih =>
    cases w with
    | opening => simp [releaseGroup, closeGroup, Waiting.text]
    | operator o =>
      simp [releaseGroup, closeGroup, Waiting.text, Step.text, o.text_ne_opening, ih]

theorem releaseTighter_waiting (rank : Nat) (ws : List Waiting) :
    releaseTighter rank (ws.map Waiting.text) =
      some ((yieldTo rank ws).1.map Step.text, (yieldTo rank ws).2.map Waiting.text) := by
  induction ws with
  | nil => rfl
  | cons w ws ih =>
    cases w with
    | opening => simp [releaseTighter, yieldTo, Waiting.text]
    | operator o =>
      by_cases yields : rank ≤ o.rank <;>
        simp [releaseTighter, yieldTo, Waiting.text, Step.text, o.text_ne_opening, o.rank?_text,
          yields, ih]

def arrangeOne (ws : List Waiting) : Token → List Step × List Waiting
  | .operand text => ([.push text], ws)
  | .opening => ([], .opening :: ws)
  | .closing => closeGroup ws
  | .operator o => ((yieldTo o.rank ws).1, .operator o :: (yieldTo o.rank ws).2)

theorem arrange_cons (ws : List Waiting) (t : Token) (ts : List Token) :
    arrange ws (t :: ts) = (arrangeOne ws t).1 ++ arrange (arrangeOne ws t).2 ts := by
  cases t <;> rfl

/-- A yard in which operators and opening parentheses wait takes any text and is again such a yard. -/
theorem Yard.take_waiting (output : List String) (ws : List Waiting) (text : String) :
    Yard.take ⟨output, ws.map Waiting.text⟩ text =
      some ⟨output ++ (arrangeOne ws (Token.ofText text)).1.map Step.text,
        (arrangeOne ws (Token.ofText text)).2.map Waiting.text⟩ := by
  have reads := reads_ofText text
  generalize Token.ofText text = t at reads ⊢
  cases reads with
  | opening => simp [take, arrangeOne, Waiting.text]
  | closing => simp [take, arrangeOne, releaseGroup_waiting]
  | operator o =>
    simp [take, arrangeOne, o.text_ne_opening, o.text_ne_closing, o.rank?_text,
      releaseTighter_waiting, Waiting.text]
  | operand is =>
    simp only [isOperandText, isParenthesis, Bool.and_eq_true, Bool.not_eq_true', Bool.or_eq_false_iff,
      beq_eq_false_iff_ne, Option.isNone_iff_eq_none] at is
    simp [take, arrangeOne, is, Step.text]

/-- However far the texts have been taken, operators and opening parentheses wait, and the rest of the
arrangement is what they and the other texts come to. -/
theorem Yard.foldlM_waiting (output : List String) (ws : List Waiting) (texts : List String) :
    ∃ (put : List String) (left : List Waiting),
      texts.foldlM Yard.take ⟨output, ws.map Waiting.text⟩ = some ⟨put, left.map Waiting.text⟩ ∧
        put ++ (left.filterMap Waiting.step?).map Step.text =
          output ++ (arrange ws (texts.map Token.ofText)).map Step.text := by
  induction texts generalizing output ws with
  | nil => exact ⟨output, ws, rfl, rfl⟩
  | cons text texts ih =>
    obtain ⟨put, left, done, same⟩ := ih
      (output ++ (arrangeOne ws (Token.ofText text)).1.map Step.text)
      (arrangeOne ws (Token.ofText text)).2
    refine ⟨put, left, ?_, ?_⟩
    · rw [List.foldlM_cons, take_waiting]
      exact done
    · rw [same, List.map_cons, arrange_cons, List.map_append, List.append_assoc]

theorem drained_waiting (ws : List Waiting) :
    (ws.map Waiting.text).filter (· ≠ "(") = (ws.filterMap Waiting.step?).map Step.text := by
  induction ws with
  | nil => rfl
  | cons w ws ih =>
    cases w with
    | opening => exact ih
    | operator o => simpa [Waiting.text, Waiting.step?, Step.text, o.text_ne_opening] using ih

/-! Texts that come out. -/

theorem filter_isPush_waiting (ws : List Waiting) :
    (ws.filterMap Waiting.step?).filter Step.isPush = [] := by
  refine List.filter_eq_nil_iff.mpr fun step waits => ?_
  obtain ⟨w, -, asks⟩ := List.mem_filterMap.mp waits
  cases w <;> cases asks
  exact Bool.false_ne_true

theorem filter_isPush_released {ws : List Waiting} {released : List Step} {left : List Waiting}
    (same : released ++ left.filterMap Waiting.step? = ws.filterMap Waiting.step?) :
    released.filter Step.isPush = [] := by
  have none := filter_isPush_waiting ws
  rw [← same, List.filter_append, List.append_eq_nil_iff] at none
  exact none.1

theorem filter_isPush_arrange (ws : List Waiting) (ts : List Token) :
    (arrange ws ts).filter Step.isPush = (ts.filterMap Token.step?).filter Step.isPush := by
  induction ts generalizing ws with
  | nil => exact filter_isPush_waiting ws
  | cons t ts ih =>
    rw [arrange_cons, List.filter_append, ih]
    cases t with
    | operand text => rfl
    | opening => rfl
    | closing =>
      rw [arrangeOne, filter_isPush_released (closeGroup_releases ws)]
      rfl
    | operator o =>
      rw [arrangeOne, filter_isPush_released (yieldTo_releases o.rank ws)]
      rfl

theorem texts_of_steps (texts : List String) :
    ((texts.map Token.ofText).filterMap Token.step?).map Step.text =
      texts.filter (!isParenthesis ·) := by
  induction texts with
  | nil => rfl
  | cons text texts ih =>
    rw [List.map_cons, List.filter_cons, ← ih]
    have reads := reads_ofText text
    generalize Token.ofText text = t at reads ⊢
    cases reads with
    | opening => rfl
    | closing => rfl
    | operator o => simp [Token.step?, o.text_not_parenthesis, Step.text]
    | operand is =>
      have apart := (Bool.and_eq_true_iff.mp is).1
      simp [Token.step?, apart, Step.text]

theorem isOperandText_step {texts : List String} {step : Step}
    (asked : step ∈ (texts.map Token.ofText).filterMap Token.step?) :
    isOperandText step.text = step.isPush := by
  obtain ⟨t, listed, asks⟩ := List.mem_filterMap.mp asked
  obtain ⟨text, -, rfl⟩ := List.mem_map.mp listed
  have reads := reads_ofText text
  generalize Token.ofText text = t at reads asks
  cases reads with
  | opening => cases asks
  | closing => cases asks
  | operator o =>
    cases asks
    simp [isOperandText, Step.text, Step.isPush, o.rank?_text]
  | operand is =>
    cases asks
    exact is

theorem filter_isOperandText_steps {texts : List String} {steps : List Step}
    (asked : ∀ step ∈ steps, step ∈ (texts.map Token.ofText).filterMap Token.step?) :
    (steps.map Step.text).filter isOperandText = (steps.filter Step.isPush).map Step.text := by
  rw [List.filter_map]
  exact congrArg _ (List.filter_congr fun step member => isOperandText_step (asked step member))

theorem ofText_text {formula : String} {t : Token} (member : t ∈ tokens formula) :
    Token.ofText t.text = t := by
  rcases token_cases member with ⟨c, -, read, text⟩ | ⟨run, rfl, -, plain⟩
  · simp [text, Token.ofText, read]
  · have reads := reads_ofText run
    -- a symbol among the characters of a run would separate it
    have inside {c : Char} (listed : c ∈ symbols) : c ∉ run.toList :=
      fun within => plain c within (Or.inr listed)
    generalize token : Token.ofText run = t at reads
    cases reads with
    | opening => exact absurd (by decide) (@inside '(' (by simp [symbols]))
    | closing => exact absurd (by decide) (@inside ')' (by simp [symbols]))
    | operator o =>
      have listed : o.symbol ∈ symbols := by cases o <;> simp [Operator.symbol, symbols]
      exact absurd (by simp [Operator.text]) (inside listed)
    | operand _ => exact token

theorem inOrder_tokens (formula : String) :
    inOrder ((tokens formula).map Token.text) = (polish (tokens formula)).map Step.text := by
  have same : ((tokens formula).map Token.text).map Token.ofText = tokens formula := by
    rw [List.map_map]
    exact (List.map_congr_left fun t member => ofText_text member).trans (List.map_id _)
  rw [inOrder, same]

/-- Whatever the texts, a yard takes them all and comes to the order of evaluation. In between nothing
waits but opening parentheses and operators. What comes out is what went in, less the parentheses, with
the operands in their order. The tokens of a formula come out as they are evaluated. -/
theorem yard_conserves (texts : List String) :
    (∃ last, Yard.run texts = some last ∧ last.drained = inOrder texts) ∧
      (∀ n, ∃ yard, Yard.run (texts.take n) = some yard ∧
        ∀ text ∈ yard.waiting, text = "(" ∨ (rank? text).isSome) ∧
      (inOrder texts).Perm (texts.filter (!isParenthesis ·)) ∧
      (inOrder texts).filter isOperandText = texts.filter isOperandText ∧
      ∀ formula, inOrder ((tokens formula).map Token.text) =
        (polish (tokens formula)).map Step.text := by
  refine ⟨?_, ?_, ?_, ?_, inOrder_tokens⟩
  · obtain ⟨output, ws, done, same⟩ := Yard.foldlM_waiting [] [] texts
    refine ⟨_, done, ?_⟩
    rw [Yard.drained, drained_waiting, same]
    rfl
  · intro n
    obtain ⟨output, ws, done, -⟩ := Yard.foldlM_waiting [] [] (texts.take n)
    refine ⟨_, done, fun text waits => ?_⟩
    obtain ⟨w, -, rfl⟩ := List.mem_map.mp waits
    cases w with
    | opening => exact Or.inl rfl
    | operator o => exact Or.inr (by rw [Waiting.text, o.rank?_text]; rfl)
  · rw [← texts_of_steps]
    exact (polish_perm _).map Step.text
  · have operands := filter_isPush_arrange [] (texts.map Token.ofText)
    calc (inOrder texts).filter isOperandText
        = ((polish (texts.map Token.ofText)).filter Step.isPush).map Step.text :=
          filter_isOperandText_steps fun step member => (polish_perm _).mem_iff.mp member
      _ = (((texts.map Token.ofText).filterMap Token.step?).filter Step.isPush).map Step.text :=
          congrArg _ operands
      _ = (texts.filter (!isParenthesis ·)).filter isOperandText := by
          rw [← texts_of_steps, filter_isOperandText_steps fun _ member => member]
      _ = texts.filter isOperandText := by
          rw [List.filter_filter]
          exact List.filter_congr fun text _ => by simp +contextual [isOperandText]

theorem yard_conserves_unbalanced :
    inOrder [")", "a", "+", "b", "(", "*", "3 4", ")", ")", "(", "a", "-"] =
        ["a", "b", "3 4", "*", "+", "a", "-"] ∧
      ["a", "b", "3 4", "*", "+", "a", "-"].Perm ["a", "+", "b", "*", "3 4", "a", "-"] ∧
      ∃ yard, Yard.run [")", "a", "+", "b", "(", "*", "3 4"] = some yard ∧
        ∀ text ∈ yard.waiting, text = "(" ∨ (rank? text).isSome := by
  have comes : inOrder [")", "a", "+", "b", "(", "*", "3 4", ")", ")", "(", "a", "-"] =
      ["a", "b", "3 4", "*", "+", "a", "-"] := by decide
  obtain ⟨-, waits, kept, -⟩ :=
    yard_conserves [")", "a", "+", "b", "(", "*", "3 4", ")", ")", "(", "a", "-"]
  rw [comes] at kept
  exact ⟨comes, kept, waits 7⟩

end Joinery.Formula
