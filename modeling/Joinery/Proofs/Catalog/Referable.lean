import Joinery.Catalog.Standard
import Joinery.Proofs.Catalog.Strict
import Joinery.Proofs.Formula.Cut
import Joinery.Proofs.Formula.Support

/-!
Variables of a catalog in formulas. An accepted name is read back as the one token that it is, unless it
ends in a line end. Then a formula reads what stands before the line end, and none can use the name.
-/
namespace Joinery

namespace Formula
variable {formula text : String}

/-! Formulas of one operand. -/

theorem names_operand (single : tokens formula = [.operand text]) (named : isName text = true) :
    names formula = [text] := by
  have own : [Token.operand text].filterMap Token.name? = [text] := by
    simp [Token.name?, named]
  rw [names_eq, single, namesOf, own, List.eraseDups_cons, List.filter_nil, List.eraseDups_nil]

theorem lint_operand (known : Option (List String)) (single : tokens formula = [.operand text]) :
    lint known formula = operandIssues known 1 text := by
  simp [lint, single, balanced, balancedFrom, issueIf, issuesFrom]

theorem evaluate_operand (env : Environment) (single : tokens formula = [.operand text]) :
    evaluate formula env =
      match operandValue env text with
      | .ok x => .ok (Stack.finish ⟨[x], 0⟩)
      | .error (.mishap m) => .ok (.failed m)
      | .error (.fault f) => .error f := by
  have parens : balanced (tokens formula) = true := by rw [single]; rfl
  have steps : polish (tokens formula) = [.push text] := by rw [single]; rfl
  simp only [evaluate, parens, steps, Stack.run, Stack.perform, ↓reduceIte]
  cases operandValue env text with
  | ok x => rfl
  | error stop => cases stop <;> rfl

section
variable (single : tokens formula = [.operand text]) (identifier : IsIdentifier text.toList)
include single identifier

theorem lint_identifier (known : List String) :
    lint (some known) formula = [] ↔ text ∈ known := by
  rw [lint_operand _ single]
  unfold operandIssues
  by_cases listed : text ∈ known <;> simp [identifier.not_number, identifier.isName, listed]

theorem evaluate_bound {env : Environment} {d : Datum} {x : Float} (bound : env text = some d)
    (read : d.toFloat = .ok x) (finite : x.isFinite = true) :
    evaluate formula env = .ok (.value x 0) := by
  have value : operandValue env text = .ok x := by
    simp [operandValue, identifier.not_number, identifier.isName, bound, boundValue, read, finite]
  rw [evaluate_operand env single, value]
  simp [Stack.finish, finite]

theorem evaluate_not_bound {env : Environment} (unbound : env text = none) :
    evaluate formula env = .ok (.failed (.unbound text)) := by
  have stops : operandValue env text = .error (.mishap (.unbound text)) := by
    simp [operandValue, identifier.not_number, identifier.isName, unbound]
  rw [evaluate_operand env single, stops]

end

theorem lineEnd_not_used (formula stem : String) : stem ++ "\n" ∉ names formula := by
  intro used
  have chars := operand_chars (mem_names.mp used).1
  have last : '\n' ∈ (stem ++ "\n").toList := by simp
  exact absurd (chars '\n' last) (by decide)

end Formula

namespace Catalog
open Formula

theorem isName_of_checkFrom {taken : List String} {catalog : Catalog}
    (checked : checkFrom taken catalog = .ok ()) : ∀ v ∈ catalog, isName v.name = true := by
  induction catalog generalizing taken with
  | nil => exact nofun
  | cons v rest ih =>
    simp only [checkFrom] at checked
    split at checked
    · cases checked
    · rename_i named
      split at checked
      · cases checked
      · exact List.forall_mem_cons.mpr ⟨by simpa using named, ih checked⟩

/-- A variable can be referenced: its name is one token that stands for the variable. -/
structure Referable (catalog : Catalog) (name : String) : Prop where
  token : tokens name = [.operand name]
  used : Formula.names name = [name]
  clean : lint (some catalog.names) name = []
  value (env : Environment) (d : Datum) (x : Float) : env name = some d → d.toFloat = .ok x →
    x.isFinite = true → evaluate name env = .ok (.value x 0)

/-- A name is read as its stem, whether or not that is a variable, and no formula uses the name. -/
structure ReadAs (catalog : Catalog) (name stem : String) : Prop where
  token : tokens name = [.operand stem]
  used : Formula.names name = [stem]
  clean : lint (some catalog.names) name = [] ↔ stem ∈ catalog.names
  unbound (env : Environment) : env stem = none → evaluate name env = .ok (.failed (.unbound stem))
  unused (formula : String) : name ∉ Formula.names formula

theorem referable_of_identifier {catalog : Catalog} {name : String}
    (identifier : IsIdentifier name.toList) (listed : name ∈ catalog.names) :
    catalog.Referable name :=
  have single := tokens_word identifier.word
  { token := single
    used := names_operand single identifier.isName
    clean := (lint_identifier single identifier _).mpr listed
    value := fun _ _ _ bound read finite => evaluate_bound single identifier bound read finite }

theorem readAs_of_lineEnd (catalog : Catalog) {stem : String} (identifier : IsIdentifier stem.toList) :
    catalog.ReadAs (stem ++ "\n") stem :=
  have single := tokens_word_lineEnd identifier.word
  { token := single
    used := names_operand single identifier.isName
    clean := lint_identifier single identifier _
    unbound := fun _ unbound => evaluate_not_bound single identifier unbound
    unused := fun formula => lineEnd_not_used formula stem }

/-- Every variable of an accepted catalog can be referenced, except those whose name ends in a line
end: such a name is accepted as well, and no formula can use it. -/
theorem variables_referable {catalog : Catalog} (checked : catalog.check = .ok ()) {v : Variable}
    (member : v ∈ catalog) :
    (catalog.Referable v.name ↔ v.name.toList.getLast? ≠ some '\n') ∧
      ∀ stem, v.name = stem ++ "\n" → catalog.ReadAs v.name stem := by
  have listed : v.name ∈ catalog.names := List.mem_map_of_mem member
  rcases identifier_of_isName (isName_of_checkFrom checked v member) with identifier | lineEnd
  · have last : v.name.toList.getLast? ≠ some '\n' := fun last =>
      absurd (identifier.word.all '\n' (List.mem_of_getLast? last)) (by decide)
    refine ⟨⟨fun _ => last, fun _ => referable_of_identifier identifier listed⟩, ?_⟩
    intro stem ended
    exact absurd (by simp [ended]) last
  · obtain ⟨own, ended, identifier⟩ := lineEnd
    have read := readAs_of_lineEnd catalog identifier
    have last : v.name.toList.getLast? = some '\n' := by simp [ended]
    refine ⟨⟨fun referable => ?_, fun other => absurd last other⟩, ?_⟩
    · have used : v.name ∈ Formula.names v.name := by simp [referable.used]
      exact absurd (ended ▸ used) (lineEnd_not_used _ own)
    · intro stem same
      obtain rfl : own = stem := by
        have both := congrArg String.toList (ended.symm.trans same)
        exact String.toList_injective (by simpa using both)
      exact ended ▸ read

theorem depth_referable :
    let catalog : Catalog := [Standard.entry "depth" .custom "mm" "" none,
      Standard.entry "grain\n" .custom "mm" "" none]
    catalog.check = .ok () ∧ catalog.Referable "depth" ∧ ¬ catalog.Referable "grain\n" ∧
      catalog.ReadAs "grain\n" "grain" := by
  intro catalog
  have checked : catalog.check = .ok () := rfl
  obtain ⟨depth, -⟩ := variables_referable checked (v := catalog[0]) (by simp [catalog])
  obtain ⟨grain, ended⟩ := variables_referable checked (v := catalog[1]) (by simp [catalog])
  exact ⟨checked, depth.mpr (by decide), mt grain.mp (by decide), ended "grain" rfl⟩

end Catalog
end Joinery
