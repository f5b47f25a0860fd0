import Joinery.Catalog.Logic
import Joinery.Proofs.Formula.Unbound
import Joinery.Proofs.Outcome

/-!
Logics that are accepted in a strict reading. Their catalog has names that are all different, their
formula has no issues, and every name in it is a variable of the catalog that the logic keeps.
-/
namespace Joinery

namespace Catalog

theorem distinct_of_checkFrom {taken : List String} {catalog : Catalog}
    (checked : checkFrom taken catalog = .ok ()) :
    catalog.names.Nodup ∧ ∀ name ∈ catalog.names, name ∉ taken := by
  induction catalog generalizing taken with
  | nil => simp [names]
  | cons v rest ih =>
    simp only [checkFrom] at checked
    split at checked
    · cases checked
    · split at checked
      · cases checked
      · rename_i fresh
        obtain ⟨distinct, apart⟩ := ih checked
        have own : v.name ∉ names rest := fun listed => apart _ listed List.mem_cons_self
        refine ⟨List.nodup_cons.mpr ⟨own, distinct⟩, ?_⟩
        intro name member
        rcases List.mem_cons.mp member with rfl | later
        · simpa using fresh
        · exact fun already => apart name later (List.mem_cons_of_mem _ already)

theorem distinct_of_check {catalog : Catalog} (checked : catalog.check = .ok ()) :
    catalog.names.Nodup :=
  (distinct_of_checkFrom checked).1

end Catalog

theorem Catalog.of_find? {catalog : Catalog} {name : String} {v : Variable}
    (found : catalog.find? name = some v) : v ∈ catalog ∧ v.name = name := by
  rw [find?] at found
  exact ⟨List.mem_of_find?_eq_some found, by simpa using List.find?_some found⟩

theorem Logic.accepted_of_build {catalog : Catalog} {id name formula description : String}
    {isDefault : Bool} {logic : Logic}
    (built : build catalog true id name formula description isDefault = .ok logic) :
    catalog.names.Nodup ∧ Formula.lint (some catalog.names) formula = [] ∧
      logic = ofFormula catalog id name formula description isDefault := by
  obtain ⟨⟨⟩, checked, rest⟩ := bind_ok.mp built
  split at rest
  · rename_i none
    obtain rfl := Except.ok.inj rest
    exact ⟨Catalog.distinct_of_check checked, List.map_eq_nil_iff.mp none, rfl⟩
  · cases rest

theorem Logic.of_mem_variablesOf {catalog : Catalog} {formula : String} {v : Variable}
    (member : v ∈ variablesOf catalog formula) : v ∈ catalog ∧ v.name ∈ Formula.names formula := by
  obtain ⟨name, used, found⟩ := List.mem_filterMap.mp member
  obtain ⟨inCatalog, rfl⟩ := Catalog.of_find? found
  exact ⟨inCatalog, used⟩

theorem Formula.known_of_clean {known : List String} {formula name : String}
    (clean : lint (some known) formula = []) (used : name ∈ names formula) : name ∈ known := by
  obtain ⟨member, identifier⟩ := mem_names.mp used
  obtain ⟨place, none⟩ := operandIssues_of_issuesFrom ((lint_nil_iff_faultless _ _).mp clean).2 member
  simpa [operandIssues, not_number_of_name member identifier, identifier] using none

theorem Logic.variable_of_name {catalog : Catalog} {formula name : String}
    (clean : Formula.lint (some catalog.names) formula = []) (used : name ∈ Formula.names formula) :
    ∃ v ∈ variablesOf catalog formula, v.name = name := by
  obtain ⟨w, inCatalog, named⟩ := List.mem_map.mp (Formula.known_of_clean clean used)
  obtain ⟨v, found⟩ : ∃ v, catalog.find? name = some v :=
    Option.isSome_iff_exists.mp (List.find?_isSome.mpr ⟨w, inCatalog, beq_iff_eq.mpr named⟩)
  exact ⟨v, List.mem_filterMap.mpr ⟨name, used, found⟩, (Catalog.of_find? found).2⟩

end Joinery
