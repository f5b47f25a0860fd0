import Joinery.Proofs.Catalog.Strict
import Joinery.Proofs.Duration.Environment
import Joinery.Proofs.Product.Fresh

/-!
Names without a value in the formulas of templates. A logic that was accepted beside a catalog has a
value for each of its names wherever it is timed with that catalog. A template does not bring the
catalog along, so that it times its logic with the names of the component and of the parameters alone.
-/
namespace Joinery

namespace Duration
open Formula

/-- A duration that says of some name that it stands for nothing. -/
def ReportsUnbound (d : Duration) : Prop :=
  ∃ name, d.diagnostic = some (Mishap.unbound name).message

theorem faulted_not_unbound (f : Fault) : ¬ (faulted f).ReportsUnbound := by
  rintro ⟨name, reported⟩
  have same : f.kind.name ++ ": " ++ f.message = (Mishap.unbound name).message :=
    Option.some.inj reported
  have apart : opening (f.kind.name ++ ": " ++ f.message) ≠ unboundOpening := by
    rw [String.append_assoc]
    cases f.kind <;> exact opening_apart (by decide) (by decide) _
  exact apart (same ▸ opening_unbound name)

section
variable {catalog : Catalog} {formula : String} {parameters : List Parameter} {c : Component}

theorem lacking_of_report
    (reports : (ofOutcome (byFormula catalog formula parameters c)).ReportsUnbound) :
    ∃ name ∈ names formula, ∃ values, environment catalog parameters c = .ok values ∧
      values.has name = false := by
  cases timed : byFormula catalog formula parameters c with
  | error f =>
    rw [timed] at reports
    exact (faulted_not_unbound f reports).elim
  | ok d =>
    rw [timed] at reports
    obtain ⟨e, evaluated, rfl⟩ := map_ok.mp timed
    obtain ⟨values, taken, evaluated⟩ := bind_ok.mp evaluated
    obtain ⟨name, reported⟩ := reports
    obtain ⟨other, rfl⟩ := Evaluation.unbound_of_diagnostic reported
    obtain ⟨used, unbound⟩ := evaluate_unbound evaluated
    refine ⟨other, used, values, taken, ?_⟩
    rw [Keyed.has, Option.map_eq_none_iff.mp unbound]
    rfl

theorem fails_of_lacking {name : String} (used : name ∈ names formula)
    (lacking : ∀ values, environment catalog parameters c = .ok values → values.has name = false) :
    (ofOutcome (byFormula catalog formula parameters c)).isOk = false ∧
      (ofOutcome (byFormula catalog formula parameters c)).minutes = 0 := by
  cases timed : byFormula catalog formula parameters c with
  | error f => exact ⟨rfl, rfl⟩
  | ok d =>
    obtain ⟨e, evaluated, rfl⟩ := map_ok.mp timed
    obtain ⟨values, taken, evaluated⟩ := bind_ok.mp evaluated
    have unbound : values.get? name = none := by
      simpa [Keyed.has] using lacking values taken
    obtain ⟨m, rfl⟩ := evaluate_fails_of_unbound used (by rw [unbound]; rfl) evaluated
    have zero : Number.roundHundredths 0 = 0 := by decide +kernel
    refine ⟨rfl, ?_⟩
    simp only [ofOutcome, ofEvaluation, Evaluation.amount, zero]

theorem standard_has {values : Keyed Float} {name : String}
    (taken : environment Standard.catalog parameters c = .ok values) :
    values.has name = true ↔ Supplied parameters name := by
  have own : ∀ v ∈ Standard.catalog, v.name ∈ ownNames := by decide
  rw [environment_has taken, or_iff_right_of_imp]
  rintro ⟨v, member, rfl, -⟩
  exact Or.inl (own v member)

end

theorem compute_of_logic {t : Template} {logic : Logic} (formula : t.strategy = .formula)
    (given : t.logic = some logic) (parameters : List Parameter) (c : Component) :
    compute t parameters c =
      ofOutcome (byFormula Standard.catalog logic.formula parameters c) := by
  simp only [compute, Rule.ofTemplate, formula, given, Rule.compute]

end Duration

/-- A strictly accepted logic lacks no value where it is timed with its catalog: a variable that
nothing else supplies has its fallback value, unless some number is too large for any value at all. A
template times the logic without its catalog, and then just these variables are lacking. -/
theorem strict_logics_need_their_catalog {catalog : Catalog} {id name formula description : String}
    {isDefault : Bool} {logic : Logic}
    (built : Logic.build catalog true id name formula description isDefault = .ok logic)
    (parameters : List Parameter) (c : Component) :
    ((∀ v ∈ catalog, v.fallback.isSome = true) →
      ¬ (Duration.ofOutcome
        (Duration.byFormula catalog logic.formula parameters c)).ReportsUnbound) ∧
    (∀ f, Duration.environment catalog parameters c = .error f → f.kind = .overflow) ∧
    (∀ values, Duration.environment catalog parameters c = .ok values →
      ∀ v ∈ logic.used, ¬ Duration.Supplied parameters v.name →
        ∀ n x, v.fallback = some n → n.toFloat = .ok x →
          ∃ y, v.clamp x = .ok y ∧ values.get? v.name = some y) ∧
    ∀ t : Template, t.strategy = .formula → t.logic = some logic →
      ((Duration.compute t parameters c).ReportsUnbound →
        ∃ v ∈ logic.used, ¬ Duration.Supplied parameters v.name) ∧
      ((∃ v ∈ logic.used, ¬ Duration.Supplied parameters v.name) →
        (Duration.compute t parameters c).isOk = false ∧
          (Duration.compute t parameters c).minutes = 0) := by
  obtain ⟨distinct, clean, rfl⟩ := Logic.accepted_of_build built
  refine ⟨?_, Duration.environment_fails catalog parameters c, ?_, ?_⟩
  · intro complete reports
    obtain ⟨used, member, values, taken, absent⟩ := Duration.lacking_of_report reports
    obtain ⟨v, kept, rfl⟩ := Logic.variable_of_name clean member
    have inCatalog := (Logic.of_mem_variablesOf kept).1
    have present : values.has v.name = true :=
      (Duration.environment_has taken).mpr (Or.inl ⟨v, inCatalog, rfl, complete v inCatalog⟩)
    rw [absent] at present
    cases present
  · intro values taken v member lacking n x fallback read
    have inCatalog := (Logic.of_mem_variablesOf member).1
    exact Duration.environment_fallback taken distinct inCatalog fallback read lacking
  · intro t strategy given
    rw [Duration.compute_of_logic strategy given]
    constructor
    · intro reports
      obtain ⟨used, member, values, taken, absent⟩ := Duration.lacking_of_report reports
      obtain ⟨v, kept, rfl⟩ := Logic.variable_of_name clean member
      refine ⟨v, kept, fun supplied => ?_⟩
      rw [(Duration.standard_has taken).mpr supplied] at absent
      cases absent
    · rintro ⟨v, kept, lacking⟩
      apply Duration.fails_of_lacking (Logic.of_mem_variablesOf kept).2
      intro values taken
      simpa using mt (Duration.standard_has taken).mp lacking

namespace Shelf

def grain : Variable :=
  (Variable.make "grain" (.text "custom") "mm" "" (some (.whole 5)) none none).value (by decide)

theorem grain_fallback : ∀ v ∈ [grain], v.fallback.isSome = true := by decide

def grainLogic : Logic :=
  (Logic.build [grain] true "2" "Grain" "grain * 2" "" false).value (by decide +kernel)

theorem grainLogic_built :
    Logic.build [grain] true "2" "Grain" "grain * 2" "" false = .ok grainLogic := Outcome.eq_value _

def grainTemplate : Template := { template with logic := some grainLogic }

def grainGiven : Parameter := ⟨"grain", .int 3, .null, .null⟩

theorem grainGiven_binds : grainGiven.Binds "grain" := by
  have numeric : grainGiven.value.finite?.toOption.join.isSome = true := by decide +kernel
  refine ⟨rfl, by decide, ?_⟩
  cases read : grainGiven.value.finite? with
  | error f => simp [read, Except.toOption] at numeric
  | ok o =>
    rw [read] at numeric
    obtain ⟨x, rfl⟩ := Option.isSome_iff_exists.mp numeric
    exact ⟨x, rfl⟩

end Shelf

theorem grain_needs_its_catalog :
    ¬ (Duration.ofOutcome
      (Duration.byFormula [Shelf.grain] Shelf.grainLogic.formula [] Shelf.side)).ReportsUnbound ∧
    (Duration.compute Shelf.grainTemplate [] Shelf.side).ReportsUnbound ∧
    (Duration.compute Shelf.grainTemplate [] Shelf.side).minutes = 0 ∧
    ¬ (Duration.compute Shelf.grainTemplate [Shelf.grainGiven] Shelf.side).ReportsUnbound := by
  obtain ⟨beside, -, -, alone⟩ :=
    strict_logics_need_their_catalog Shelf.grainLogic_built [] Shelf.side
  obtain ⟨-, -, -, given⟩ :=
    strict_logics_need_their_catalog Shelf.grainLogic_built [Shelf.grainGiven] Shelf.side
  have reports : (Duration.compute Shelf.grainTemplate [] Shelf.side).ReportsUnbound :=
    ⟨"grain", by decide +kernel⟩
  have formula : Shelf.grainTemplate.strategy = .formula := by decide +kernel
  obtain ⟨lacks, fails⟩ := alone Shelf.grainTemplate formula rfl
  refine ⟨beside Shelf.grain_fallback, reports, (fails (lacks reports)).2, ?_⟩
  intro reported
  obtain ⟨v, used, lacking⟩ := (given Shelf.grainTemplate formula rfl).1 reported
  have named : ∀ w ∈ Shelf.grainLogic.used, w.name = "grain" := by decide +kernel
  have binds : Shelf.grainGiven.Binds v.name := named v used ▸ Shelf.grainGiven_binds
  exact lacking (Or.inr ⟨Shelf.grainGiven, List.mem_singleton_self _, binds⟩)

end Joinery
