import Joinery.Console
import Joinery.Proofs.Catalog.Names
import Joinery.Proofs.Catalog.Strict

/-!
The gates of authoring. A formula is judged where a logic is built from it and where the command
line checks it, leniently or strictly. For a catalog whose names are all different the judgements
agree, and a logic that is built keeps the entries of the names that its formula uses.
-/
namespace Joinery

/-- The one variable of a catalog that has a name. -/
structure Catalog.Entry (catalog : Catalog) (name : String) (v : Variable) : Prop where
  member : v ∈ catalog
  named : v.name = name
  only : ∀ w ∈ catalog, w.name = name → w = v

theorem Catalog.eq_of_name_eq {catalog : Catalog} (distinct : catalog.names.Nodup) {v w : Variable}
    (first : v ∈ catalog) (second : w ∈ catalog) (same : v.name = w.name) : v = w :=
  List.inj_on_of_nodup_map distinct first second same

theorem Catalog.entry_of_find? {catalog : Catalog} (distinct : catalog.names.Nodup) {name : String}
    {v : Variable} (found : catalog.find? name = some v) : catalog.Entry name v := by
  obtain ⟨member, named⟩ := of_find? found
  constructor
  · exact member
  · exact named
  · intro w listed same
    exact eq_of_name_eq distinct listed member (same.trans named.symm)

theorem Catalog.find?_isNone {catalog : Catalog} {name : String} :
    (catalog.find? name).isNone = true ↔ name ∉ catalog.names := by
  simp [find?, names]

theorem Catalog.find?_cases (catalog : Catalog) (name : String) :
    (name ∈ catalog.names ∧ ∃ v, catalog.find? name = some v) ∨
      name ∉ catalog.names ∧ catalog.find? name = none := by
  by_cases known : name ∈ catalog.names
  · left
    have found : ¬ (catalog.find? name).isNone = true := mt find?_isNone.mp (not_not_intro known)
    exact ⟨known, Option.isSome_iff_exists.mp (by simpa [Option.isSome_iff_ne_none] using found)⟩
  · right
    exact ⟨known, Option.isNone_iff_eq_none.mp (find?_isNone.mpr known)⟩

namespace Logic

theorem entries_of_names {catalog : Catalog} (distinct : catalog.names.Nodup) (names : List String) :
    List.Forall₂ catalog.Entry (names.filter (· ∈ catalog.names)) (names.filterMap catalog.find?) := by
  induction names with
  | nil => exact .nil
  | cons name names ih =>
    rcases catalog.find?_cases name with ⟨known, v, found⟩ | ⟨unknown, found⟩
    · rw [List.filter_cons_of_pos (by simpa using known), List.filterMap_cons_some found]
      exact .cons (Catalog.entry_of_find? distinct found) ih
    · rw [List.filter_cons_of_neg (by simpa using unknown), List.filterMap_cons_none found]
      exact ih

theorem unknownNames_eq (catalog : Catalog) (formula : String) :
    unknownNames catalog formula = (Formula.names formula).filter (· ∉ catalog.names) := by
  apply List.filter_congr
  intro name _
  rw [Bool.eq_iff_iff, Catalog.find?_isNone, decide_eq_true_eq]

theorem objections_nil_iff {catalog : Catalog} {strict : Bool} {formula : String} :
    objections catalog strict formula = [] ↔
      if strict then Formula.lint (some catalog.names) formula = []
      else Formula.balanced (Formula.tokens formula) = true := by
  cases strict <;> simp [objections]

theorem build_eq_ok {catalog : Catalog} (checked : catalog.check = .ok ()) {strict : Bool}
    {id name formula description : String} {isDefault : Bool} {logic : Logic} :
    build catalog strict id name formula description isDefault = .ok logic ↔
      objections catalog strict formula = [] ∧
        logic = ofFormula catalog id name formula description isDefault := by
  rw [build, checked]
  cases objections catalog strict formula with
  | nil => simp [bind, Except.bind, pure, Except.pure, eq_comm]
  | cons issue issues => simp [bind, Except.bind]

theorem build_isOk {catalog : Catalog} (checked : catalog.check = .ok ()) {strict : Bool}
    {id name formula description : String} {isDefault : Bool} :
    (build catalog strict id name formula description isDefault).isOk = true ↔
      objections catalog strict formula = [] := by
  constructor
  · intro accepted
    exact ((build_eq_ok checked).mp (Outcome.eq_value accepted)).1
  · intro none
    rw [(build_eq_ok checked).mpr ⟨none, rfl⟩]
    rfl

theorem objections_nil_of_strict {catalog : Catalog} {formula : String}
    (none : objections catalog true formula = []) : objections catalog false formula = [] := by
  have clean : Formula.lint (some catalog.names) formula = [] := objections_nil_iff.mp none
  exact objections_nil_iff.mpr ((Formula.lint_nil_iff_faultless _ formula).mp clean).1

def unknownNote (title unknown : String) : LogEntry := .warning
  s!"Formula {Text.quoted title} references unknown variable {Text.quoted unknown}"

/-- What authoring a formula over a catalog comes to, in either reading. -/
structure Gates (catalog : Catalog) (id name formula description : String) (isDefault : Bool) :
    Prop where
  lenient : (build catalog false id name formula description isDefault).isOk = true ↔
    Formula.balanced (Formula.tokens formula) = true
  strict : (build catalog true id name formula description isDefault).isOk = true ↔
    Formula.lint (some catalog.names) formula = []
  strictly : ∀ logic, build catalog true id name formula description isDefault = .ok logic →
    build catalog false id name formula description isDefault = .ok logic ∧
      buildLog catalog name formula = [] ∧
      List.Forall₂ catalog.Entry (Formula.names formula) logic.used
  leniently : ∀ logic, build catalog false id name formula description isDefault = .ok logic →
    List.Forall₂ catalog.Entry ((Formula.names formula).filter (· ∈ catalog.names)) logic.used ∧
      buildLog catalog name formula =
        ((Formula.names formula).filter (· ∉ catalog.names)).map (unknownNote name) ∧
      (Formula.names formula).Nodup

theorem gates_agree {catalog : Catalog} (checked : catalog.check = .ok ())
    (id name formula description : String) (isDefault : Bool) :
    Gates catalog id name formula description isDefault := by
  have distinct := Catalog.distinct_of_check checked
  have entries := entries_of_names distinct (Formula.names formula)
  constructor
  · exact (build_isOk checked).trans objections_nil_iff
  · exact (build_isOk checked).trans objections_nil_iff
  · intro logic built
    obtain ⟨none, rfl⟩ := (build_eq_ok checked).mp built
    have known : ∀ used ∈ Formula.names formula, used ∈ catalog.names := fun _ used =>
      Formula.known_of_clean (objections_nil_iff.mp none) used
    have all : (Formula.names formula).filter (· ∈ catalog.names) = Formula.names formula :=
      List.filter_eq_self.mpr (by simpa using known)
    refine ⟨(build_eq_ok checked).mpr ⟨objections_nil_of_strict none, rfl⟩, ?_, all ▸ entries⟩
    simpa [buildLog, unknownNames_eq] using known
  · intro logic built
    obtain ⟨-, rfl⟩ := (build_eq_ok checked).mp built
    exact ⟨entries, by rw [buildLog, unknownNames_eq]; rfl, nodup_eraseDups _⟩

end Logic

namespace Console

theorem checkFormula_code (strict : Bool) (formula : String) :
    (checkFormula strict formula).code = 0 ↔
      Logic.objections Standard.catalog strict formula = [] := by
  rw [Logic.objections_nil_iff]
  cases strict <;> cases balanced : Formula.balanced (Formula.tokens formula) <;>
    by_cases clean : Formula.lint (some Standard.catalog.names) formula = [] <;>
    simp_all [checkFormula, failed, done, Formula.lint_nil_iff_faultless]

end Console

theorem Standard.catalog_checked : catalog.check = .ok () :=
  Outcome.eq_value (show catalog.check.isOk = true by decide)

/-- Building a logic and checking a formula on the command line accept the same formulas. -/
theorem formula_gates_agree (id name formula description : String) (isDefault : Bool) :
    (∀ catalog : Catalog, catalog.check = .ok () →
      Logic.Gates catalog id name formula description isDefault) ∧
    ∀ (sheets : Console.SheetReader) (s : Surroundings) (r : Console.Request) (flag : Bool),
      r.printsSettings = false → r.command = some (.checkFormula formula flag) →
      ∃ report, Console.answer sheets s r = .ok report ∧
        (report.code = 0 ↔ (Logic.build Standard.catalog (flag || s.strictFormulas) id name formula
          description isDefault).isOk = true) := by
  constructor
  · intro catalog checked
    exact Logic.gates_agree checked id name formula description isDefault
  · intro sheets s r flag asked command
    refine ⟨Console.checkFormula (flag || s.strictFormulas) formula, ?_, ?_⟩
    · simp [Console.answer, asked, command]
    · exact (Console.checkFormula_code _ formula).trans (Logic.build_isOk Standard.catalog_checked).symm

def grainCheck : Console.Request := ⟨false, some (.checkFormula "2 + area / grain" false)⟩

theorem grain_gates_agree :
    Standard.catalog.check = .ok () ∧
      Logic.Gates Standard.catalog "9" "Planing" "2 + area / grain" "" false ∧
    grainCheck.printsSettings = false ∧
      grainCheck.command = some (.checkFormula "2 + area / grain" false) ∧
    (Logic.build Standard.catalog false "9" "Planing" "2 + area / grain" "" false).isOk = true ∧
      ∃ report, Console.answer Console.noSheets ⟨none, none, none, none, []⟩ grainCheck = .ok report ∧
        report.code = 0 := by
  obtain ⟨gates, console⟩ := formula_gates_agree "9" "Planing" "2 + area / grain" "" false
  have agree := gates Standard.catalog Standard.catalog_checked
  have built := agree.lenient.mpr (by decide)
  obtain ⟨report, answered, code⟩ := console Console.noSheets ⟨none, none, none, none, []⟩ grainCheck false rfl
    rfl
  exact ⟨Standard.catalog_checked, agree, rfl, rfl, built, report, answered, code.mpr built⟩

end Joinery
