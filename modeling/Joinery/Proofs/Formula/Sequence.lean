import Joinery.Proofs.Formula.Unsigned

/-!
Formulas that are evaluated without being infix. An operator takes the latest two operands wherever
it stands, so that a formula with a value is one tree, but its tokens need not be in the order of
that tree: `2 3 +` is 5. In the strict reading such a formula has operands too many in some places
and lacks as many in others. A formula that is rejected for anything else, or not for both, has no
value.
-/
namespace Joinery.Formula

def Step.isPush : Step → Bool
  | push _ => true
  | apply _ => false

/-! Steps that come to one value are the postorder of one tree. -/

namespace Tree

def Bare : Tree → Prop
  | operand _ => True
  | group _ => False
  | apply _ left right => left.Bare ∧ right.Bare

def built : List Tree → List Step → Option (List Tree)
  | trees, [] => some trees
  | trees, .push text :: rest => built (.operand text :: trees) rest
  | right :: left :: trees, .apply o :: rest => built (.apply o left right :: trees) rest
  | _, .apply _ :: _ => none

def listing : List Tree → List Step
  | [] => []
  | t :: trees => listing trees ++ t.postorder

theorem built_postorder {t : Tree} (bare : t.Bare) (trees : List Tree) (rest : List Step) :
    built trees (t.postorder ++ rest) = built (t :: trees) rest := by
  induction t generalizing trees rest with
  | operand text => rfl
  | group inner => exact bare.elim
  | apply o left right ihl ihr =>
    simp only [postorder, List.append_assoc]
    rw [ihl bare.1, ihr bare.2]
    rfl

theorem eq_of_postorder_eq {t u : Tree} (bareT : t.Bare) (bareU : u.Bare)
    (same : t.postorder = u.postorder) : t = u := by
  have first := built_postorder bareT [] []
  have second := built_postorder bareU [] []
  rw [same, second] at first
  simpa [built] using first.symm

theorem listing_built {trees after : List Tree} {steps : List Step}
    (come : built trees steps = some after) (bare : ∀ t ∈ trees, t.Bare) :
    listing after = listing trees ++ steps ∧ ∀ t ∈ after, t.Bare := by
  induction steps generalizing trees with
  | nil =>
    obtain rfl := Option.some.inj come
    exact ⟨(List.append_nil _).symm, bare⟩
  | cons step rest ih =>
    cases step with
    | push text =>
      obtain ⟨lists, still⟩ := ih come (by simpa [Bare] using bare)
      exact ⟨by simp [lists, listing, postorder], still⟩
    | apply o =>
      rcases trees with _ | ⟨right, _ | ⟨left, others⟩⟩
      · cases come
      · cases come
      · obtain ⟨bareRight, bareLeft, bareOthers⟩ := by simpa using bare
        have joined : ∀ t ∈ Tree.apply o left right :: others, t.Bare :=
          List.forall_mem_cons.mpr ⟨⟨bareLeft, bareRight⟩, bareOthers⟩
        obtain ⟨lists, still⟩ := ih come joined
        exact ⟨by simp [lists, listing, postorder], still⟩

theorem pushes_postorder (t : Tree) :
    t.postorder.countP Step.isPush = t.postorder.countP (!·.isPush) + 1 := by
  induction t with
  | operand text => rfl
  | group inner ih => exact ih
  | apply o left right ihl ihr =>
    simp only [postorder, List.countP_append, ihl, ihr]
    simp [Step.isPush]
    omega

end Tree

theorem Stack.built_of_run {env : Environment} {stack last : Stack} {steps : List Step}
    {trees : List Tree} (done : stack.run env steps = .ok last)
    (same : trees.length = stack.values.length) :
    ∃ after, Tree.built trees steps = some after ∧ after.length = last.values.length := by
  induction steps generalizing stack trees with
  | nil =>
    obtain rfl := Except.ok.inj done
    exact ⟨trees, rfl, same⟩
  | cons step rest ih =>
    obtain ⟨next, first, later⟩ := run_cons done
    cases performed first with
    | push value => exact ih later (by simp [same])
    | apply applied =>
      rcases trees with _ | ⟨right, _ | ⟨left, others⟩⟩
      · simp at same
      · simp at same
      · exact ih later (by simpa using same)

/-- Steps that leave one value are those of one tree. -/
theorem tree_of_run {env : Environment} {last : Stack} {steps : List Step} {x : Float}
    (done : Stack.run env ⟨[], 0⟩ steps = .ok last) (one : last.values = [x]) :
    ∃ t : Tree, t.Bare ∧ t.postorder = steps ∧
      ∀ u : Tree, u.Bare → u.postorder = steps → u = t := by
  have empty : ([] : List Tree).length = ([] : List Float).length := rfl
  obtain ⟨after, built, length⟩ := Stack.built_of_run done empty
  rw [one] at length
  obtain ⟨t, rfl⟩ := List.length_eq_one_iff.mp length
  obtain ⟨lists, bare⟩ := Tree.listing_built built nofun
  have bareT : t.Bare := bare t List.mem_cons_self
  have order : t.postorder = steps := lists
  refine ⟨t, bareT, order, ?_⟩
  intro u bareU orderU
  exact Tree.eq_of_postorder_eq bareU bareT (orderU.trans order.symm)

/-! What a strict reading finds in a formula whose operands all have values. -/

def Issue.isSurplus : Issue → Bool
  | openingAfterOperand _ | noOperatorBefore .. => true
  | _ => false

def Issue.isMissing : Issue → Bool
  | closingTooEarly _ | noLeftOperand .. | endsEarly => true
  | _ => false

/-- What is too much in some places is missing in others. -/
structure Compensated (issues : List Issue) : Prop where
  either : ∀ issue ∈ issues, issue.isSurplus ∨ issue.isMissing
  even : issues.countP Issue.isSurplus = issues.countP Issue.isMissing

theorem operandIssues_of_value {env : Environment} {place : Nat} {text : String} {x : Float}
    (value : operandValue env text = .ok x) : operandIssues none place text = [] := by
  unfold operandValue at value
  unfold operandIssues
  split
  · rfl
  · split
    · rfl
    · simp_all

def Token.leads : Token → Bool
  | opening | operator _ => true
  | operand _ | closing => false

def slip (expects : Bool) (place : Nat) : Token → List Issue
  | .opening => issueIf (!expects) (.openingAfterOperand place)
  | .closing => issueIf expects (.closingTooEarly place)
  | .operator o => issueIf expects (.noLeftOperand place o)
  | .operand text => issueIf (!expects) (.noOperatorBefore place text)

theorem issuesFrom_cons {t : Token} (expects : Bool) (place : Nat) (ts : List Token)
    (clean : ∀ text, t = .operand text → operandIssues none place text = []) :
    issuesFrom none expects place (t :: ts) =
      slip expects place t ++ issuesFrom none t.leads (place + 1) ts := by
  cases t with
  | operand text => simp [issuesFrom, clean text rfl, slip, Token.leads]
  | _ => rfl

theorem slip_either {expects : Bool} {place : Nat} {t : Token} {issue : Issue}
    (found : issue ∈ slip expects place t) : issue.isSurplus ∨ issue.isMissing := by
  cases t <;> cases expects <;> simp_all [slip, issueIf, Issue.isSurplus, Issue.isMissing]

/-- An operand without an operator before it is too much, an operator takes one operand away, and
where an operand is expected in vain one is missing. -/
theorem slip_count (expects : Bool) (place : Nat) (t : Token) :
    (slip expects place t).countP Issue.isMissing + t.step?.toList.countP Step.isPush +
        (if expects then 0 else 1) =
      (slip expects place t).countP Issue.isSurplus + t.step?.toList.countP (!·.isPush) +
        (if t.leads then 0 else 1) := by
  cases t <;> cases expects <;> rfl

theorem issuesFrom_either {expects : Bool} {place : Nat} {ts : List Token}
    (operands : ∀ text place, .operand text ∈ ts → operandIssues none place text = [])
    {issue : Issue} (found : issue ∈ issuesFrom none expects place ts) :
    issue.isSurplus ∨ issue.isMissing := by
  induction ts generalizing expects place with
  | nil => cases expects <;> simp_all [issuesFrom, issueIf, Issue.isMissing]
  | cons t ts ih =>
    rw [issuesFrom_cons expects place ts (by rintro text rfl; simp [operands text])] at found
    rcases List.mem_append.mp found with here | later
    · exact slip_either here
    · exact ih (fun text p member => operands text p (List.mem_cons_of_mem t member)) later

theorem issuesFrom_count (expects : Bool) (place : Nat) (ts : List Token)
    (operands : ∀ text place, .operand text ∈ ts → operandIssues none place text = []) :
    (issuesFrom none expects place ts).countP Issue.isMissing +
        (ts.filterMap Token.step?).countP Step.isPush + (if expects then 0 else 1) =
      (issuesFrom none expects place ts).countP Issue.isSurplus +
        (ts.filterMap Token.step?).countP (!·.isPush) + 1 := by
  induction ts generalizing expects place with
  | nil => cases expects <;> rfl
  | cons t ts ih =>
    have later := ih t.leads (place + 1) fun text p member =>
      operands text p (List.mem_cons_of_mem t member)
    have here := slip_count expects place t
    have steps : (t :: ts).filterMap Token.step? = t.step?.toList ++ ts.filterMap Token.step? := by
      cases t <;> rfl
    rw [issuesFrom_cons expects place ts (by rintro text rfl; simp [operands text]), steps]
    simp only [List.countP_append]
    omega

/-! Formulas with a value. -/

theorem boundValue_of_doubles {env : Environment} {name : String} {d : Datum} {x : Float}
    (bound : env name = some d) (value : boundValue name d = .ok x) :
    (env.doubles name).map Datum.real = some (.real x) ∧ boundValue name (.real x) = .ok x := by
  have read : d.toFloat = .ok x := boundValue_ok value
  have finite : x.isFinite = true := by
    by_contra infinite
    simp [boundValue, read, infinite] at value
  have double : env.doubles name = some x := by
    simp [Environment.doubles, bound, read, Except.toOption]
  exact ⟨by rw [double]; rfl, by simp [boundValue, Datum.toFloat, Numeral.toFloat, finite]⟩

theorem operandValue_of_doubles {env : Environment} {text : String} {x : Float}
    (value : operandValue env text = .ok x) : operandValue env.doubles.environment text = .ok x := by
  unfold operandValue at value ⊢
  split
  · simp_all
  · split
    · cases bound : env text with
      | none => simp_all
      | some d =>
        have given : boundValue text d = .ok x := by simp_all
        obtain ⟨double, same⟩ := boundValue_of_doubles bound given
        simp only [Doubles.environment, double, same]
    · simp_all

theorem run_of_isOk {formula : String} {env : Environment} {e : Evaluation}
    (evaluated : evaluate formula env = .ok e) (ok : e.isOk = true) :
    balanced (tokens formula) = true ∧ ∃ last x,
      Stack.run env ⟨[], 0⟩ (polish (tokens formula)) = .ok last ∧ last.values = [x] := by
  cases e with
  | failed m => cases ok
  | value x n =>
    obtain ⟨parens, done, -⟩ := run_of_value evaluated
    exact ⟨parens, _, x, done, rfl⟩

theorem meaning_of_run {formula : String} {env : Environment} {t : Tree} {last : Stack}
    (parens : balanced (tokens formula) = true)
    (done : Stack.run env ⟨[], 0⟩ (polish (tokens formula)) = .ok last)
    (order : t.postorder = polish (tokens formula)) :
    evaluate formula env = .ok (t.meaning env.doubles) := by
  have operands : ∀ text, .push text ∈ polish (tokens formula) →
      operandValue env text = operandValue env.doubles.environment text := by
    intro text member
    obtain ⟨x, value⟩ := Stack.value_of_run done member
    rw [value, operandValue_of_doubles value]
  rw [← evaluate_of_postorder env.doubles parens order.symm]
  simp only [evaluate, Stack.run_congr operands]

theorem compensated_of_run {formula : String} {env : Environment} {t : Tree} {last : Stack}
    (parens : balanced (tokens formula) = true)
    (done : Stack.run env ⟨[], 0⟩ (polish (tokens formula)) = .ok last)
    (order : t.postorder = polish (tokens formula)) : Compensated (lint none formula) := by
  have operands : ∀ text place, .operand text ∈ tokens formula →
      operandIssues none place text = [] := by
    intro text place member
    obtain ⟨x, value⟩ := Stack.value_of_run done (push_mem_polish.mpr member)
    exact operandIssues_of_value value
  have pushes := t.pushes_postorder
  rw [order, (polish_perm _).countP_eq, (polish_perm _).countP_eq] at pushes
  have reading : lint none formula = issuesFrom none true 1 (tokens formula) := by
    unfold lint
    split
    · rename_i empty
      simp [empty] at pushes
    · simp [parens, issueIf]
  have counts := issuesFrom_count true 1 (tokens formula) operands
  rw [reading]
  constructor
  · exact fun issue found => issuesFrom_either operands found
  · simp only [↓reduceIte] at counts
    omega

theorem Compensated.nil_of_one_kind {issues : List Issue} (compensated : Compensated issues)
    (oneKind : (∀ issue ∈ issues, issue.isSurplus = false) ∨
      ∀ issue ∈ issues, issue.isMissing = false) : issues = [] := by
  have none : issues.countP Issue.isSurplus = 0 ∧ issues.countP Issue.isMissing = 0 := by
    have even := compensated.even
    rcases oneKind with noSurplus | noMissing
    · have : issues.countP Issue.isSurplus = 0 := by simpa using noSurplus
      omega
    · have : issues.countP Issue.isMissing = 0 := by simpa using noMissing
      omega
  obtain ⟨noSurplus, noMissing⟩ := none
  rw [List.countP_eq_zero] at noSurplus noMissing
  apply List.eq_nil_iff_forall_not_mem.mpr
  intro issue found
  rcases compensated.either issue found with surplus | missing
  · exact noSurplus issue found surplus
  · exact noMissing issue found missing

/-- An evaluated formula is one tree in its order of evaluation, and has no issues unless something
is too much in some places that is missing in others. Any other formula with an issue fails, with
the value 0. -/
theorem evaluated_formula_compensates (formula : String) (env : Environment) (e : Evaluation)
    (evaluated : evaluate formula env = .ok e) :
    (e.isOk = true →
      Compensated (lint none formula) ∧
      ((∀ issue ∈ lint none formula, issue.isSurplus = false) ∨
        (∀ issue ∈ lint none formula, issue.isMissing = false) → lint none formula = []) ∧
      ∃ t : Tree, (t.Bare ∧ t.postorder = polish (tokens formula)) ∧
        (∀ u : Tree, u.Bare → u.postorder = polish (tokens formula) → u = t) ∧
        e = t.meaning env.doubles) ∧
    (¬ Compensated (lint none formula) → e.isOk = false ∧ e.amount = 0) := by
  have compensates (ok : e.isOk = true) : Compensated (lint none formula) ∧
      ∃ t : Tree, (t.Bare ∧ t.postorder = polish (tokens formula)) ∧
        (∀ u : Tree, u.Bare → u.postorder = polish (tokens formula) → u = t) ∧
        e = t.meaning env.doubles := by
    obtain ⟨parens, last, x, done, one⟩ := run_of_isOk evaluated ok
    obtain ⟨t, bare, order, only⟩ := tree_of_run done one
    have meaning := meaning_of_run parens done order
    rw [evaluated] at meaning
    exact ⟨compensated_of_run parens done order, t, ⟨bare, order⟩, only, Except.ok.inj meaning⟩
  constructor
  · intro ok
    obtain ⟨compensated, tree⟩ := compensates ok
    exact ⟨compensated, compensated.nil_of_one_kind, tree⟩
  · intro uneven
    cases e with
    | value x zeroDivisions => exact absurd (compensates rfl).1 uneven
    | failed m => exact ⟨rfl, rfl⟩

/-- The operator stands behind its operands here, and yet `width` is taken from `length`. -/
theorem postfix_formula_compensates :
    ∃ e, evaluate "length width -" squareRoom = .ok e ∧ e.isOk = true ∧
      Compensated (lint none "length width -") ∧
      ∃ t : Tree, (t.Bare ∧ t.postorder = polish (tokens "length width -")) ∧
        e = t.meaning squareRoom.doubles := by
  have returns : (evaluate "length width -" squareRoom).isOk = true := by decide +kernel
  have ok : ((evaluate "length width -" squareRoom).value returns).isOk = true := by
    decide +revert +kernel
  obtain ⟨evaluates, -⟩ :=
    evaluated_formula_compensates "length width -" squareRoom _ (Outcome.eq_value returns)
  obtain ⟨compensated, -, t, is, -, meaning⟩ := evaluates ok
  exact ⟨_, Outcome.eq_value returns, ok, compensated, t, is, meaning⟩

theorem evaluated_formula_with_issues : ¬ ∀ formula env e, evaluate formula env = .ok e →
    e.isOk = true → lint none formula = [] := by
  intro wellFormed
  have returns : (evaluate "2 3 +" fun _ => none).isOk = true := by decide +kernel
  have ok : ((evaluate "2 3 +" fun _ => none).value returns).isOk = true := by
    decide +revert +kernel
  have clean := wellFormed "2 3 +" _ _ (Outcome.eq_value returns) ok
  exact absurd clean (by decide)

end Joinery.Formula
