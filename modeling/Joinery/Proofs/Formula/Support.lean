import Joinery.Proofs.Formula.Unbound

/-!
What the value of a formula depends on. An evaluation asks an environment for the names of its formula
and for nothing else, and one that succeeds has asked for each of them. The names are listed once
each, in the order in which they first come.
-/
namespace Joinery.Formula

theorem operandValue_congr {formula : String} {env env' : Environment}
    (same : ∀ name ∈ names formula, env name = env' name) {text : String}
    (member : .operand text ∈ tokens formula) : operandValue env text = operandValue env' text := by
  unfold operandValue
  by_cases identifier : isName text = true
  · rw [same text (mem_names.mpr ⟨member, identifier⟩)]
  · simp only [identifier, Bool.false_eq_true, ↓reduceIte]

theorem evaluate_congr {formula : String} {env env' : Environment}
    (same : ∀ name ∈ names formula, env name = env' name) :
    evaluate formula env = evaluate formula env' := by
  have operands : ∀ text, .push text ∈ polish (tokens formula) →
      operandValue env text = operandValue env' text :=
    fun text pushed => operandValue_congr same (push_mem_polish.mp pushed)
  simp only [evaluate, Stack.run_congr operands]

/-! Names taken away. -/

def Environment.without (env : Environment) (name : String) : Environment := fun other =>
  if other = name then none else env other

theorem Environment.without_self (env : Environment) (name : String) : env.without name name = none :=
  if_pos rfl

theorem Environment.without_other (env : Environment) {name other : String} (apart : other ≠ name) :
    env.without name other = env other := if_neg apart

theorem operandValue_without_other (env : Environment) {name text : String} (apart : text ≠ name) :
    operandValue (env.without name) text = operandValue env text := by
  simp only [operandValue, env.without_other apart]

theorem operandValue_without_self (env : Environment) {name : String} (identifier : isName name = true)
    (notNumber : isNumber name = false) :
    operandValue (env.without name) name = .error (.mishap (.unbound name)) := by
  simp [operandValue, notNumber, identifier, env.without_self]

theorem Stack.run_without {env : Environment} {name : String} (identifier : isName name = true)
    (notNumber : isNumber name = false) {stack after : Stack} {steps : List Step}
    (done : stack.run env steps = .ok after) (used : .push name ∈ steps) :
    stack.run (env.without name) steps = .error (.mishap (.unbound name)) := by
  induction steps generalizing stack with
  | nil => cases used
  | cons step rest ih =>
    obtain ⟨next, performed, later⟩ := run_cons done
    by_cases here : step = .push name
    · simp only [run, here, perform, operandValue_without_self env identifier notNumber]
    · have first : stack.perform (env.without name) step = .ok next := by
        rw [← performed]
        cases step with
        | push text =>
          have apart : text ≠ name := fun same => here (same ▸ rfl)
          simp only [perform, operandValue_without_other env apart]
        | apply o => rfl
      simp only [run, first]
      exact ih later ((List.mem_cons.mp used).resolve_left (Ne.symm here))

theorem evaluate_without {formula name : String} {env : Environment} {e : Evaluation}
    (evaluated : evaluate formula env = .ok e) (ok : e.isOk = true) (used : name ∈ names formula) :
    evaluate formula (env.without name) = .ok (.failed (.unbound name)) := by
  obtain ⟨member, identifier⟩ := mem_names.mp used
  have notNumber := not_number_of_name member identifier
  cases e with
  | failed m => cases ok
  | value x n =>
    obtain ⟨parens, done, -⟩ := run_of_value evaluated
    have stops := Stack.run_without identifier notNumber done (push_mem_polish.mpr member)
    simp only [evaluate, parens, stops, ↓reduceIte]

/-! The list of names. -/

def Token.name? : Token → Option String
  | .operand text => if isName text then some text else none
  | _ => none

theorem Token.name?_eq_some {t : Token} {name : String} :
    t.name? = some name ↔ t = .operand name ∧ isName name = true := by
  cases t with
  | operand text =>
    simp only [name?, Option.ite_none_right_eq_some, Option.some.injEq, operand.injEq]
    constructor
    · rintro ⟨identifier, rfl⟩
      exact ⟨rfl, identifier⟩
    · rintro ⟨rfl, identifier⟩
      exact ⟨identifier, rfl⟩
  | _ => simp [name?]

def namesOf (ts : List Token) : List String := (ts.filterMap Token.name?).eraseDups

theorem names_eq (formula : String) : names formula = namesOf (tokens formula) := rfl

theorem mem_namesOf {ts : List Token} {name : String} :
    name ∈ namesOf ts ↔ .operand name ∈ ts ∧ isName name = true := by
  rw [namesOf, List.mem_eraseDups, List.mem_filterMap]
  constructor
  · rintro ⟨t, member, named⟩
    obtain ⟨rfl, identifier⟩ := Token.name?_eq_some.mp named
    exact ⟨member, identifier⟩
  · rintro ⟨member, identifier⟩
    exact ⟨_, member, Token.name?_eq_some.mpr ⟨rfl, identifier⟩⟩

theorem eraseDups_snoc {xs : List String} {a : String} :
    (xs ++ [a]).eraseDups = if a ∈ xs then xs.eraseDups else xs.eraseDups ++ [a] := by
  have single : [a].eraseDups = [a] := by rw [List.eraseDups_cons, List.filter_nil, List.eraseDups_nil]
  rw [List.eraseDups_append]
  by_cases member : a ∈ xs <;> simp [List.removeAll, member, single]

theorem namesOf_snoc (ts : List Token) (t : Token) :
    namesOf (ts ++ [t]) = namesOf ts ∨
      ∃ name, t = .operand name ∧ t ∉ ts ∧ namesOf (ts ++ [t]) = namesOf ts ++ [name] := by
  cases named : t.name? with
  | none => simp [namesOf, named]
  | some name =>
    obtain ⟨rfl, identifier⟩ := Token.name?_eq_some.mp named
    have appended : namesOf (ts ++ [.operand name]) =
        if name ∈ ts.filterMap Token.name? then namesOf ts else namesOf ts ++ [name] := by
      simp only [namesOf, List.filterMap_append, ← eraseDups_snoc]
      simp [named]
    have listed : name ∈ ts.filterMap Token.name? ↔ .operand name ∈ ts := by
      rw [← List.mem_eraseDups, ← namesOf, mem_namesOf, and_iff_left identifier]
    by_cases before : .operand name ∈ ts
    · exact Or.inl (by rw [appended, if_pos (listed.mpr before)])
    · exact Or.inr ⟨name, rfl, before, by rw [appended, if_neg (mt listed.mp before)]⟩

theorem namesOf_in_order (ts : List Token) :
    (namesOf ts).Pairwise fun a b => ts.idxOf (.operand a) < ts.idxOf (.operand b) := by
  induction ts using List.reverseRecOn with
  | nil => exact .nil
  | append_singleton ts t ih =>
    have place {name : String} (listed : name ∈ namesOf ts) :
        (ts ++ [t]).idxOf (.operand name) = ts.idxOf (.operand name) :=
      List.idxOf_append_of_mem (mem_namesOf.mp listed).1
    have earlier : (namesOf ts).Pairwise fun a b =>
        (ts ++ [t]).idxOf (.operand a) < (ts ++ [t]).idxOf (.operand b) := by
      refine ih.imp_of_mem ?_
      intro a b first second less
      rwa [place first, place second]
    rcases namesOf_snoc ts t with same | ⟨name, rfl, fresh, more⟩
    · exact same ▸ earlier
    · rw [more, List.pairwise_append]
      refine ⟨earlier, List.pairwise_singleton _ _, ?_⟩
      intro a listed b last
      obtain rfl := List.mem_singleton.mp last
      rw [place listed, List.idxOf_append_of_notMem fresh, List.idxOf_cons_self, Nat.add_zero]
      exact List.idxOf_lt_length_iff.mpr (mem_namesOf.mp listed).1

/-- The names of a formula are all that its evaluation depends on, and each of them is needed: where a
formula has a value it has none once any of its names stands for nothing. -/
theorem names_are_support (formula : String) :
    (∀ env env' : Environment, (∀ name ∈ names formula, env name = env' name) →
      evaluate formula env = evaluate formula env') ∧
    (∀ (env : Environment) (e : Evaluation), evaluate formula env = .ok e → e.isOk = true →
      ∀ name ∈ names formula, (env name).isSome = true ∧
        evaluate formula (env.without name) = .ok (.failed (.unbound name))) ∧
    (∀ name, name ∈ names formula ↔ .operand name ∈ tokens formula ∧ isName name = true) ∧
    (names formula).Nodup ∧
    (names formula).Pairwise fun a b =>
      (tokens formula).idxOf (.operand a) < (tokens formula).idxOf (.operand b) := by
  have ordered := namesOf_in_order (tokens formula)
  rw [← names_eq] at ordered
  have distinct : (names formula).Nodup := ordered.imp fun less same =>
    absurd (same ▸ less) (Nat.lt_irrefl _)
  refine ⟨fun env env' => evaluate_congr, ?_, fun _ => mem_names, distinct, ordered⟩
  intro env e evaluated ok name used
  refine ⟨?_, evaluate_without evaluated ok used⟩
  cases bound : env name with
  | some d => rfl
  | none =>
    obtain ⟨m, rfl⟩ := evaluate_fails_of_unbound used bound evaluated
    cases ok

theorem room_formula_support :
    names "width * length / width - 3" = ["width", "length"] ∧
    evaluate "width * length / width - 3" squareRoom =
      evaluate "width * length / width - 3" ((squareRoom.without "height").without "depth") ∧
    evaluate "width * length / width - 3" (squareRoom.without "length") =
      .ok (.failed (.unbound "length")) := by
  obtain ⟨agree, needed, -⟩ := names_are_support "width * length / width - 3"
  have listed : names "width * length / width - 3" = ["width", "length"] := by decide +kernel
  have answers : (evaluate "width * length / width - 3" squareRoom).isOk = true := by decide +kernel
  have ok : ((evaluate "width * length / width - 3" squareRoom).value answers).isOk = true := by
    decide +revert +kernel
  refine ⟨listed, agree _ _ ?_, (needed _ _ (Outcome.eq_value answers) ok "length" ?_).2⟩
  · intro name used
    rw [listed] at used
    have apart : name ≠ "height" ∧ name ≠ "depth" := by
      constructor <;> rintro rfl <;> exact absurd used (by decide)
    rw [Environment.without_other _ apart.2, Environment.without_other _ apart.1]
  · rw [listed]
    exact List.mem_cons_of_mem _ List.mem_cons_self

end Joinery.Formula
