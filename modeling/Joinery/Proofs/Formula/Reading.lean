import Joinery.Formula.Lint
import Joinery.Proofs.Formula.Tree

/-!
Reading tokens from left to right into a tree. What stands to the left of the place of reading is a
stack of frames: open groups, and finished left operands with their operators. The waiting operators
of an arrangement are the operators of these frames, and its steps so far are those of the operands
in them, so one induction over the tokens gives the tree and its postorder.
-/
namespace Joinery.Formula

inductive Frame where
  | group
  | left (t : Tree) (o : Operator)

namespace Frame

def waiting : Frame → Waiting
  | group => .opening
  | left _ o => .operator o

def tokens : List Frame → List Token
  | [] => []
  | group :: rest => tokens rest ++ [.opening]
  | left t o :: rest => tokens rest ++ (t.tokens ++ [.operator o])

def steps : List Frame → List Step
  | [] => []
  | group :: rest => steps rest
  | left t _ :: rest => steps rest ++ t.postorder

def groups : List Frame → Nat
  | [] => 0
  | group :: rest => groups rest + 1
  | left _ _ :: rest => groups rest

/-- The rank that the next right operand has to exceed. -/
def floor : List Frame → Nat
  | left _ o :: _ => o.rank
  | _ => 0

def Stacked : List Frame → Prop
  | [] => True
  | group :: rest => Stacked rest
  | left t o :: rest => t.Bound ∧ o.rank ≤ t.rank ∧ floor rest < o.rank ∧ Stacked rest

theorem rank_positive (o : Operator) : 0 < o.rank := by
  cases o <;> decide

theorem rank_lt_four (o : Operator) : o.rank < 4 := by
  cases o <;> decide

theorem floor_lt_four (fs : List Frame) : floor fs < 4 := by
  cases fs with
  | nil => decide
  | cons f fs =>
    cases f with
    | group => exact Nat.succ_pos 3
    | left t o => exact rank_lt_four o

/-- Releasing all operators down to a rank makes them and the latest operand one operand. -/
structure Collapses (rank : Nat) (fs : List Frame) (t : Tree) (left : List Frame) (u : Tree) :
    Prop where
  stacked : Stacked left
  bound : u.Bound
  below : floor left < rank
  above : rank ≤ u.rank
  tokens : tokens left ++ u.tokens = tokens fs ++ t.tokens
  steps : steps left ++ u.postorder =
    steps fs ++ (t.postorder ++ (yieldTo rank (fs.map waiting)).1)
  waiting : (yieldTo rank (fs.map waiting)).2 = left.map Frame.waiting
  groups : groups left = groups fs

theorem collapse (rank : Nat) (fs : List Frame) (t : Tree) (positive : 0 < rank)
    (stacked : Stacked fs) (bound : t.Bound) (fits : floor fs < t.rank) (high : rank ≤ t.rank) :
    ∃ left u, Collapses rank fs t left u := by
  induction fs generalizing t with
  | nil => exact ⟨[], t, stacked, bound, positive, high, rfl, by simp [yieldTo], rfl, rfl⟩
  | cons f fs ih =>
    cases f with
    | group =>
      exact ⟨group :: fs, t, stacked, bound, positive, high, rfl,
        by simp [waiting, yieldTo], rfl, rfl⟩
    | left l o =>
      obtain ⟨boundLeft, looser, tighter, rest⟩ := stacked
      by_cases yields : rank ≤ o.rank
      · -- the waiting operator binds at least as strongly and takes the operand with it
        obtain ⟨left, u, c⟩ := ih (.apply o l t) rest ⟨boundLeft, bound, looser, fits⟩ tighter yields
        refine ⟨left, u, c.stacked, c.bound, c.below, c.above, ?_, ?_, ?_, c.groups⟩
        · simp [c.tokens, Frame.tokens, Tree.tokens]
        · simp [c.steps, Frame.steps, Tree.postorder, waiting, yieldTo, yields]
        · simp [← c.waiting, waiting, yieldTo, yields]
      · exact ⟨Frame.left l o :: fs, t, ⟨boundLeft, looser, tighter, rest⟩, bound,
          Nat.lt_of_not_le yields, high, rfl, by simp [waiting, yieldTo, yields],
          by simp [waiting, yieldTo, yields], rfl⟩

theorem eq_nil_or_group {fs : List Frame} (low : floor fs < 1) :
    fs = [] ∨ ∃ rest, fs = group :: rest := by
  cases fs with
  | nil => exact Or.inl rfl
  | cons f rest =>
    cases f with
    | group => exact Or.inr ⟨rest, rfl⟩
    | left t o =>
      have := rank_positive o
      simp only [floor] at low
      omega

end Frame

theorem steps_of_yieldTo_all {ws : List Waiting} (all : (yieldTo 1 ws).2 = []) :
    ws.filterMap Waiting.step? = (yieldTo 1 ws).1 := by
  induction ws with
  | nil => rfl
  | cons w ws ih =>
    cases w with
    | opening => simp [yieldTo] at all
    | operator o =>
      have yields : 1 ≤ o.rank := Frame.rank_positive o
      simp only [yieldTo, yields, ↓reduceIte] at all ⊢
      simp [Waiting.step?, ih all]

theorem closeGroup_of_yieldTo {ws left : List Waiting} (stop : (yieldTo 1 ws).2 = .opening :: left) :
    closeGroup ws = ((yieldTo 1 ws).1, left) := by
  induction ws with
  | nil => simp [yieldTo] at stop
  | cons w ws ih =>
    cases w with
    | opening => simpa [yieldTo, closeGroup] using stop
    | operator o =>
      have yields : 1 ≤ o.rank := Frame.rank_positive o
      simp only [yieldTo, yields, ↓reduceIte] at stop ⊢
      simp [closeGroup, ih stop]

open Formula.Frame

def ReadsOn (fs : List Frame) (latest : Option Tree) (rest : List Token) : Prop :=
  ∃ t : Tree, t.Bound ∧
    t.tokens = Frame.tokens fs ++ (latest.elim [] Tree.tokens ++ rest) ∧
    t.postorder = Frame.steps fs ++
      (latest.elim [] Tree.postorder ++ arrange (fs.map waiting) rest)

theorem reads_to_end {fs : List Frame} {t : Tree} (stacked : Stacked fs) (bound : t.Bound)
    (atom : t.rank = 4) (closed : groups fs = 0) : ReadsOn fs (some t) [] := by
  obtain ⟨left, u, c⟩ := collapse 1 fs t (by decide) stacked bound
    (atom ▸ floor_lt_four fs) (by omega)
  rcases eq_nil_or_group c.below with rfl | ⟨rest, rfl⟩
  · have all : (fs.map waiting).filterMap Waiting.step? = (yieldTo 1 (fs.map waiting)).1 :=
      steps_of_yieldTo_all (by simpa using c.waiting)
    refine ⟨u, c.bound, ?_, ?_⟩
    · simpa [Frame.tokens] using c.tokens
    · simpa [arrange, all, Frame.steps] using c.steps
  · have := c.groups
    simp [groups, closed] at this

theorem reads_closing {fs : List Frame} {t : Tree} {rest : List Token} {depth : Nat}
    (stacked : Stacked fs) (bound : t.Bound) (atom : t.rank = 4) (inside : groups fs = depth + 1)
    (next : ∀ left u, Stacked left → u.Bound → u.rank = 4 → groups left = depth →
      ReadsOn left (some u) rest) : ReadsOn fs (some t) (.closing :: rest) := by
  obtain ⟨left, u, c⟩ := collapse 1 fs t (by decide) stacked bound
    (atom ▸ floor_lt_four fs) (by omega)
  rcases eq_nil_or_group c.below with rfl | ⟨left, rfl⟩
  · have := c.groups
    simp [groups, inside] at this
  · have depths : groups left = depth := by
      have := c.groups
      simp only [groups, inside] at this
      omega
    have close : closeGroup (fs.map waiting) = ((yieldTo 1 (fs.map waiting)).1, left.map waiting) :=
      closeGroup_of_yieldTo c.waiting
    obtain ⟨v, boundV, tokensV, stepsV⟩ := next left (.group u) c.stacked c.bound rfl depths
    have tokensU := c.tokens
    have stepsU := c.steps
    simp only [Frame.tokens, Frame.steps, List.append_assoc] at tokensU stepsU
    refine ⟨v, boundV, ?_, ?_⟩
    · calc v.tokens
          = Frame.tokens left ++ ([.opening] ++ u.tokens) ++ .closing :: rest := by
            simp [tokensV, Tree.tokens]
        _ = Frame.tokens fs ++ t.tokens ++ .closing :: rest := by rw [tokensU]
        _ = Frame.tokens fs ++ (t.tokens ++ .closing :: rest) := List.append_assoc ..
    · calc v.postorder
          = Frame.steps left ++ u.postorder ++ arrange (left.map waiting) rest := by
            simp [stepsV, Tree.postorder]
        _ = Frame.steps fs ++ (t.postorder ++ arrange (fs.map waiting) (.closing :: rest)) := by
            simp [stepsU, arrange, close]

theorem reads_operator {fs : List Frame} {t : Tree} {rest : List Token} {o : Operator}
    (stacked : Stacked fs) (bound : t.Bound) (atom : t.rank = 4)
    (next : ∀ left, Stacked left → groups left = groups fs → ReadsOn left none rest) :
    ReadsOn fs (some t) (.operator o :: rest) := by
  obtain ⟨left, u, c⟩ := collapse o.rank fs t (rank_positive o) stacked bound
    (atom ▸ floor_lt_four fs) (atom ▸ Nat.le_of_lt (rank_lt_four o))
  obtain ⟨v, boundV, tokensV, stepsV⟩ :=
    next (.left u o :: left) ⟨c.bound, c.above, c.below, c.stacked⟩ c.groups
  refine ⟨v, boundV, ?_, ?_⟩
  · rw [tokensV]
    simp only [Frame.tokens, ← List.append_assoc, c.tokens]
    simp
  · rw [stepsV]
    simp only [Frame.steps, ← List.append_assoc, c.steps]
    simp [arrange, c.waiting, waiting]

/-- A faultless rest of a formula completes the frames, with or without an operand behind them. -/
theorem reads_on (known : Option (List String)) (rest : List Token) :
    (∀ place fs, Stacked fs → issuesFrom known true place rest = [] →
      balancedFrom (groups fs) rest = true → ReadsOn fs none rest) ∧
    (∀ place fs t, Stacked fs → t.Bound → t.rank = 4 → issuesFrom known false place rest = [] →
      balancedFrom (groups fs) rest = true → ReadsOn fs (some t) rest) := by
  -- by turns an operand and an operator is due, so both places go through one induction
  induction rest with
  | nil =>
    constructor
    · intro place fs stacked clean balanced
      simp [issuesFrom, issueIf] at clean
    · intro place fs t stacked bound atom clean balanced
      exact reads_to_end stacked bound atom (by simpa [balancedFrom] using balanced)
  | cons token rest ih =>
    obtain ⟨fresh, behind⟩ := ih
    constructor
    · intro place fs stacked clean balanced
      cases token with
      | opening =>
        simp only [issuesFrom, issueIf, List.append_eq_nil_iff] at clean
        obtain ⟨t, bound, tokens, steps⟩ := fresh _ (group :: fs) stacked clean.2 balanced
        exact ⟨t, bound, by simpa [Frame.tokens] using tokens,
          by simpa [arrange, Frame.steps, waiting] using steps⟩
      | operand text =>
        simp only [issuesFrom, List.append_eq_nil_iff] at clean
        obtain ⟨t, bound, tokens, steps⟩ := behind _ fs (.operand text) stacked trivial rfl clean.2
          (by simpa [balancedFrom] using balanced)
        exact ⟨t, bound, tokens, by simpa [arrange, Tree.postorder] using steps⟩
      | closing => simp [issuesFrom, issueIf] at clean
      | operator o => simp [issuesFrom, issueIf] at clean
    · intro place fs t stacked bound atom clean balanced
      cases token with
      | opening => simp [issuesFrom, issueIf] at clean
      | operand text => simp [issuesFrom, issueIf] at clean
      | closing =>
        simp only [issuesFrom, List.append_eq_nil_iff] at clean
        cases inside : groups fs with
        | zero => simp [inside, balancedFrom] at balanced
        | succ depth =>
          rw [inside] at balanced
          refine reads_closing stacked bound atom inside ?_
          intro left u stackedLeft boundU atomU depths
          exact behind _ left u stackedLeft boundU atomU clean.2 (by rw [depths]; exact balanced)
      | operator o =>
        simp only [issuesFrom, List.append_eq_nil_iff] at clean
        refine reads_operator stacked bound atom ?_
        intro left stackedLeft same
        exact fresh _ left stackedLeft clean.2 (by simpa [same, balancedFrom] using balanced)

theorem tree_of_faultless {known : Option (List String)} {ts : List Token}
    (clean : issuesFrom known true 1 ts = []) (parens : balanced ts = true) :
    ∃ t : Tree, t.Bound ∧ t.tokens = ts ∧ t.postorder = polish ts :=
  (reads_on known ts).1 1 [] trivial clean parens

end Joinery.Formula
