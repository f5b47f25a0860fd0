import Joinery.Proofs.Duration.Precedence
import Joinery.Proofs.Estimate.Completion
import Joinery.Proofs.Formula.Answer

/-!
Durations without faults. A rule faults at nothing but a whole number past the largest double, or at a
sum of features past it. Where whole numbers are moderate there is no such number and no such sum, so
that every rule times every valid component: a share in the factor of features is at most the count of its
feature, rounded twice, and moderate numbers of features have a sum that a double can hold.
-/
namespace Joinery

theorem Numeral.hasDouble_of_small {n : Int} (small : n.natAbs < Number.giantSize) :
    (Numeral.whole n).HasDouble := by
  cases read : (Numeral.whole n).toFloat with
  | ok x => exact ⟨x, read⟩
  | error f =>
    have giant : Number.giantSize ≤ n.natAbs := (toFloat_error_iff.mp read).2
    exact absurd giant (Nat.not_le.mpr small)

theorem small_of_moderate {n : Nat} (moderate : n < 10 ^ 300) : n < Number.giantSize :=
  Nat.lt_trans moderate (by decide +kernel)

namespace Feature
open Number Float.Model

/-! What a feature adds to the factor of them all. -/

theorem weight_shape (type : FeatureType) : type = .custom ∨
    ∃ m e, ∃ filled : 0 < m, (weight type).toModel.unpack = .finite .positive m e filled ∧
      2 ^ 52 ≤ m ∧ m ≤ 2 ^ (-e).toNat ∧ e ≤ 0 ∧ -60 ≤ e := by
  cases type with
  | hole =>
    exact .inr ⟨7205759403792794, -56, by decide, rfl, by decide, by decide, by decide, by decide⟩
  | groove =>
    exact .inr ⟨7205759403792794, -55, by decide, rfl, by decide, by decide, by decide, by decide⟩
  | chamfer =>
    exact .inr ⟨5404319552844595, -55, by decide, rfl, by decide, by decide, by decide, by decide⟩
  | rounding =>
    exact .inr ⟨4503599627370496, -54, by decide, rfl, by decide, by decide, by decide, by decide⟩
  | custom => exact .inl rfl

theorem times_zero {m : Nat} {e : Int} (positive : 0 < m) :
    UnpackedFloat.mul .binary64 (.finite .positive m e positive) (.zero .positive) =
      .zero .positive := rfl

theorem units_weighted {n : Nat} (moderate : n < 10 ^ 300) (type : FeatureType) :
    (units (nearest n 0 * weight type)).natAbs ≤ 4 * n * 2 ^ 1074 := by
  rcases Nat.eq_zero_or_pos n with rfl | some
  · have nothing : units (nearest (0 : Nat) 0 * weight type) = 0 := by
      cases type <;> decide +kernel
    rw [nothing]
    exact Nat.zero_le _
  have bits : n.log2 ≤ 1000 := log2_le_of_two_pow (Nat.lt_trans moderate (by decide +kernel)).le
  have whole := Estimate.holds_whole some bits
  rcases weight_shape type with rfl | ⟨m, e, filled, shape, full, most, nonPositive, least⟩
  · obtain ⟨positive, shape⟩ := whole.shape
    have nothing : (nearest n 0 * weight .custom).toModel.unpack = .zero .positive := by
      change (Float.Model.pack (UnpackedFloat.mul .binary64 (nearest n 0).toModel.unpack
        (0 : Float).toModel.unpack)).unpack = _
      rw [shape, zero_shape, times_zero]
      rfl
    rw [units_of_zero nothing]
    exact Nat.zero_le _
  · have places := Estimate.log2_wholeUnits some
    have double := (roundedUnits_within (n * 2 ^ 1074)).2
    rw [← Estimate.wholeUnits] at double
    generalize Estimate.wholeUnits n = u at *
    -- the product is exact in the units, since a whole double has places to spare for the weight
    obtain ⟨v, scaled⟩ : ∃ v, v * 2 ^ (-e).toNat = u * m := by
      obtain ⟨w, rfl⟩ := whole.dvd (k := (-e).toNat) (by omega)
      exact ⟨w * m, by ac_rfl⟩
    have le : v ≤ u := by
      apply Nat.le_of_mul_le_mul_right _ (Nat.two_pow_pos (-e).toNat)
      rw [scaled]
      exact Nat.mul_le_mul_left u most
    have bits := log2_le_of_le le
    have held := whole.times shape full nonPositive (by omega) scaled (by omega)
    have within := (roundedUnits_within v).2
    rw [held.units_eq, Int.natAbs_natCast]
    calc
      roundedUnits v ≤ 2 * u := by omega
      _ ≤ 2 * (2 * (n * 2 ^ 1074)) := Nat.mul_le_mul_left 2 double
      _ = 4 * n * 2 ^ 1074 := by rw [← Nat.mul_assoc, ← Nat.mul_assoc]

variable {features : List Feature}

theorem count_le_countOf {f : Feature} (member : f ∈ features) :
    f.count ≤ countOf f.type features := by
  refine List.le_sum_of_mem (List.mem_map_of_mem (List.mem_filter.mpr ⟨member, ?_⟩))
  exact decide_eq_true rfl

theorem counts_together (features : List Feature) : (features.map Feature.count).sum =
    countOf .hole features + countOf .groove features + countOf .chamfer features +
      countOf .rounding features + countOf .custom features := by
  induction features with
  | nil => rfl
  | cons f rest ih =>
    simp only [countOf, List.map_cons, List.sum_cons, List.filter_cons] at ih ⊢
    cases f.type <;> simp <;> omega

theorem units_shares {shares : List Float} (moderate : ∀ f ∈ features, f.count < 10 ^ 300)
    (shared : features.mapM share = .ok shares) :
    (shares.map units).sum.natAbs ≤ 4 * (features.map Feature.count).sum * 2 ^ 1074 := by
  replace shared := mapM_ok_iff.mp shared
  induction shared with
  | nil => exact Nat.zero_le _
  | @cons f x rest shares first _ ih =>
    obtain ⟨y, read, rfl⟩ := map_ok.mp first
    obtain ⟨rfl, -⟩ := Numeral.nearest_of_toFloat read
    have own := units_weighted (moderate f List.mem_cons_self) f.type
    have others := ih fun g member => moderate g (List.mem_cons_of_mem f member)
    have apart := Int.natAbs_add_le (units (nearest f.count 0 * weight f.type)) (shares.map units).sum
    simp only [List.map_cons, List.sum_cons, Nat.mul_add, Nat.add_mul]
    exact apart.trans (Nat.add_le_add own others)

section
variable (moderate : ∀ type, countOf type features < 10 ^ 300)
include moderate

theorem share_ok {f : Feature} (member : f ∈ features) : ∃ x, share f = .ok x := by
  have few : f.count < 10 ^ 300 := Nat.lt_of_le_of_lt (count_le_countOf member) (moderate f.type)
  obtain ⟨x, read⟩ := Numeral.hasDouble_of_small (n := f.count) (small_of_moderate few)
  exact ⟨_, map_ok.mpr ⟨x, read, rfl⟩⟩

theorem shares_finite {shares : List Float} (shared : features.mapM share = .ok shares) :
    (ofUnits (shares.map units).sum).isFinite = true := by
  have each (f : Feature) (member : f ∈ features) : f.count < 10 ^ 300 :=
    Nat.lt_of_le_of_lt (count_le_countOf member) (moderate f.type)
  have total : 4 * (features.map Feature.count).sum ≤ 2 ^ 1001 := by
    have limit : 20 * 10 ^ 300 ≤ 2 ^ 1001 := by decide +kernel
    have together := counts_together features
    have hole := moderate .hole
    have groove := moderate .groove
    have chamfer := moderate .chamfer
    have rounding := moderate .rounding
    have custom := moderate .custom
    generalize 10 ^ 300 = most at *
    generalize 2 ^ 1001 = limit at *
    omega
  have small : (shares.map units).sum.natAbs ≤ 2 ^ 2075 :=
    (units_shares each shared).trans ((Nat.mul_le_mul_right _ total).trans_eq
      (Estimate.two_pow_split (a := 1001) (b := 1074) (c := 2075) rfl))
  have bits := log2_le_of_two_pow small
  apply nearest_isFinite
  unfold aim
  omega

theorem factor_ok : ∃ x, factor features = .ok x := by
  obtain ⟨shares, shared⟩ := mapM_ok fun f member => share_ok moderate member
  have finite := shares_finite moderate shared
  refine ⟨1 + ofUnits (shares.map units).sum, bind_ok.mpr ⟨shares, shared, ?_⟩⟩
  simp only [sum?]
  rw [if_pos finite]
  rfl

end
end Feature

/-- Whole numbers of at most three hundred digits: each that is given for a parameter, and the number
of features of each type. -/
structure Component.Moderate (c : Component) (parameters : List Parameter) : Prop where
  given : ∀ p ∈ parameters, ∀ n : Int, p.value = .int n → n.natAbs < 10 ^ 300
  features : ∀ type, Feature.countOf type c.features < 10 ^ 300

namespace Duration
open Outcome (FailsAs)

theorem evaluate_doubles (formula : String) (values : Keyed Float) :
    ∃ e, Formula.evaluate formula (fun name => (values.get? name).map Datum.real) = .ok e := by
  apply Formula.evaluate_ok
  intro name d bound
  obtain ⟨x, -, rfl⟩ := Option.map_eq_some_iff.mp bound
  exact id

theorem standard_finite : ∀ v ∈ Standard.catalog, v.HasFinite := by
  have each : ∀ v ∈ Standard.catalog, v.least = none ∧ v.most = none ∧
      v.fallback.all (fun n => (n.toFloat.map Float.isFinite).toOption = some true) = true := by
    decide +kernel
  intro v member
  obtain ⟨least, most, fallback⟩ := each v member
  refine ⟨fun n own => ?_, fun n own => ?_, fun n own => ?_⟩
  · rw [own, Option.all_some, decide_eq_true_iff] at fallback
    cases read : n.toFloat with
    | ok x =>
      rw [read] at fallback
      exact ⟨x, read, Option.some.inj fallback⟩
    | error f =>
      rw [read] at fallback
      cases fallback
  · rw [least] at own
    cases own
  · rw [most] at own
    cases own

section
variable {parameters : List Parameter} {c : Component} (valid : c.Valid)
  (moderate : c.Moderate parameters)
include moderate

theorem readable_of_moderate : ∀ p ∈ parameters, ∃ o, p.value.finite? = .ok o := by
  intro p member
  apply Datum.finite?_of_small
  intro giant
  cases value : p.value with
  | number n =>
    rw [value] at giant
    cases n with
    | whole z => exact absurd giant (Nat.not_le.mpr (small_of_moderate (moderate.given p member z value)))
    | real x => exact giant
  | _ =>
    rw [value] at giant
    exact giant

theorem countsFeatures_of_moderate : c.CountsFeatures where
  factor := Feature.factor_ok moderate.features
  count := fun type _ _ => Numeral.hasDouble_of_small (small_of_moderate (moderate.features type))

include valid

theorem environment_of_moderate : ∃ values, environment Standard.catalog parameters c = .ok values :=
  environment_ok standard_finite (readable_of_moderate moderate)
    ((ownValues_ok_iff valid.quantity.hasDouble).mpr (countsFeatures_of_moderate moderate))

theorem byFormula_ok (formula : String) :
    ∃ d, byFormula Standard.catalog formula parameters c = .ok d := by
  obtain ⟨values, taken⟩ := environment_of_moderate valid moderate
  obtain ⟨e, evaluated⟩ := evaluate_doubles formula values
  exact ⟨_, map_ok.mpr ⟨e, bind_ok.mpr ⟨values, taken, evaluated⟩, rfl⟩⟩

theorem guessedHours_ok (name : String) : ∃ x, guessedHours name (.ofSubject c.subject) = .ok x := by
  have square : ∃ x, (Workpiece.ofSubject c.subject).squareMetres = .ok x := ⟨_, rfl⟩
  have banded : ∃ x, (Workpiece.ofSubject c.subject).edgeMetres = .ok x := ⟨_, rfl⟩
  obtain ⟨holes, readHoles⟩ := Numeral.hasDouble_of_small (n := Feature.countOf .hole c.features)
    (small_of_moderate (moderate.features .hole))
  obtain ⟨edges, readEdges⟩ := valid.edgeCount.hasDouble
  obtain ⟨area, readArea⟩ := square
  obtain ⟨metres, readMetres⟩ := banded
  have base : ∃ x, baseHours (Work.ofName? name) (.ofSubject c.subject) = .ok x := by
    cases Work.ofName? name with
    | none => exact ⟨_, rfl⟩
    | some work =>
      cases work with
      | edge => exact ⟨_, bind_ok.mpr ⟨metres, readMetres, bind_ok.mpr ⟨edges, readEdges, rfl⟩⟩⟩
      | drill => exact ⟨_, bind_ok.mpr ⟨holes, readHoles, rfl⟩⟩
      | cut | assemble | sand | paint => exact ⟨_, bind_ok.mpr ⟨area, readArea, rfl⟩⟩
  obtain ⟨hours, guessed⟩ := base
  exact ⟨_, bind_ok.mpr ⟨hours, guessed, rfl⟩⟩

end

theorem efficiencyMinutes_ok {e : Efficiency} (doubles : e.HasDoubles) (c : Component) :
    ∃ x, efficiencyMinutes e c = .ok x := by
  obtain ⟨base, readBase⟩ := doubles.baseTime
  obtain ⟨size, readSize⟩ := doubles.sizeFactor
  obtain ⟨complexity, readComplexity⟩ := doubles.complexityFactor
  exact ⟨_, bind_ok.mpr ⟨size, readSize, bind_ok.mpr ⟨complexity, readComplexity,
    bind_ok.mpr ⟨_, rfl, bind_ok.mpr ⟨base, readBase, rfl⟩⟩⟩⟩⟩

theorem Rule.compute_ok {rule : Rule} {parameters : List Parameter} {c : Component} (valid : c.Valid)
    (moderate : c.Moderate parameters) (doubles : ∀ e, rule = .efficiency e → e.HasDoubles) :
    ∃ d, rule.compute parameters c = .ok d := by
  cases rule with
  | formula logic => exact byFormula_ok valid moderate logic.formula
  | heuristic name =>
    obtain ⟨hours, guessed⟩ := guessedHours_ok valid moderate name
    exact ⟨_, bind_ok.mpr ⟨hours, guessed, rfl⟩⟩
  | efficiency e =>
    obtain ⟨x, timed⟩ := efficiencyMinutes_ok (doubles e rfl) c
    exact ⟨_, map_ok.mpr ⟨x, timed, rfl⟩⟩

/-! What rules fault at. -/

theorem byFormula_fails (catalog : Catalog) (formula : String) (parameters : List Parameter)
    (c : Component) : FailsAs Overflows (byFormula catalog formula parameters c) := by
  refine .map (.bind (environment_fails catalog parameters c) fun values _ => ?_)
  obtain ⟨e, evaluated⟩ := evaluate_doubles formula values
  rw [evaluated]
  exact .ok e

theorem guessedHours_fails (name : String) (c : Component) :
    FailsAs Overflows (guessedHours name (.ofSubject c.subject)) := by
  refine .bind ?_ fun hours _ => .ok _
  cases Work.ofName? name with
  | none => exact .ok _
  | some work =>
    cases work with
    | edge => exact .bind (.ok _) fun _ _ => .bind (toFloat_overflows _) fun _ _ => .ok _
    | drill => exact .bind (toFloat_overflows _) fun _ _ => .ok _
    | cut | assemble | sand | paint => exact .bind (.ok _) fun _ _ => .ok _

theorem efficiencyMinutes_fails (e : Efficiency) (c : Component) :
    FailsAs Overflows (efficiencyMinutes e c) := by
  refine .bind (toFloat_overflows _) fun _ _ => .bind (toFloat_overflows _) fun _ _ => ?_
  exact .bind (.ok _) fun _ _ => .bind (toFloat_overflows _) fun _ _ => .ok _

theorem Rule.compute_fails (rule : Rule) (parameters : List Parameter) (c : Component) :
    FailsAs Overflows (rule.compute parameters c) := by
  cases rule with
  | formula logic => exact byFormula_fails _ logic.formula parameters c
  | heuristic name => exact .bind (guessedHours_fails name c) fun _ _ => .ok _
  | efficiency e => exact .map (efficiencyMinutes_fails e c)

theorem Rule.efficiency_of_template {t : Template} {e : Efficiency}
    (same : Rule.ofTemplate t = .efficiency e) : t.efficiency = some e := by
  unfold ofTemplate at same
  split at same
  · cases same
  · cases same
    assumption
  · cases same

theorem computeLog_of_ok {t : Template} {parameters : List Parameter} {c : Component} {d : Duration}
    (timed : (Rule.ofTemplate t).compute parameters c = .ok d) :
    ∀ entry ∈ computeLog t parameters c, entry.level ≠ .error := by
  unfold computeLog
  rw [timed]
  split
  · rintro entry member
    obtain rfl := List.mem_singleton.mp member
    nofun
  · nofun
  · rename_i failed
    cases failed

end Duration

/-- An operation on a valid component is timed without a fault, and nothing is logged as an error, where
the numbers of its efficiency can be held and whole numbers are moderate. Wherever it does fault, it
is at a number too large to be held. -/
theorem only_giants_fault (t : Template) (parameters : List Parameter) (c : Component) :
    (c.Valid → (∀ e ∈ t.efficiency, e.HasDoubles) → c.Moderate parameters →
      ∃ d, (Duration.Rule.ofTemplate t).compute parameters c = .ok d ∧
        Duration.compute t parameters c = d ∧
        ∀ entry ∈ Duration.computeLog t parameters c, entry.level ≠ .error) ∧
    ∀ f, (Duration.Rule.ofTemplate t).compute parameters c = .error f → f.kind = .overflow := by
  refine ⟨fun valid doubles moderate => ?_, Duration.Rule.compute_fails _ parameters c⟩
  obtain ⟨d, timed⟩ := Duration.Rule.compute_ok valid moderate
    fun e same => doubles e (Duration.Rule.efficiency_of_template same)
  exact ⟨d, timed, by rw [Duration.compute, timed]; rfl, Duration.computeLog_of_ok timed⟩

namespace Shelf

theorem side_moderate : side.Moderate operation.parameters where
  given := by
    intro p member n value
    obtain rfl := List.mem_singleton.mp member
    cases value
    decide +kernel
  features := by
    intro type
    cases type <;> decide +kernel

def efficiency : Efficiency := ⟨"1", "Sawing", .real 5, .real 0.5, .real 1, .minute, ""⟩

theorem efficiency_hasDoubles : efficiency.HasDoubles := ⟨⟨5, rfl⟩, ⟨0.5, rfl⟩, ⟨1, rfl⟩⟩

def byEfficiency : Template := { template with strategy := .efficiency, efficiency := some efficiency }

def giantGrain : Parameter := ⟨"grain", .int (10 ^ 400), .null, .null⟩

end Shelf

theorem shelf_faults :
    (Shelf.side.Moderate Shelf.operation.parameters ∧
      ∃ d, (Duration.Rule.ofTemplate Shelf.byEfficiency).compute Shelf.operation.parameters Shelf.side =
          .ok d ∧
        Duration.compute Shelf.byEfficiency Shelf.operation.parameters Shelf.side = d ∧
        ∀ entry ∈ Duration.computeLog Shelf.byEfficiency Shelf.operation.parameters Shelf.side,
          entry.level ≠ .error) ∧
    ∃ f, (Duration.Rule.ofTemplate Shelf.template).compute [Shelf.giantGrain] Shelf.side = .error f ∧
      f.kind = .overflow := by
  have doubles : ∀ e ∈ Shelf.byEfficiency.efficiency, e.HasDoubles := by
    rintro e own
    obtain rfl := Option.some.inj own
    exact Shelf.efficiency_hasDoubles
  obtain ⟨timed, -⟩ := only_giants_fault Shelf.byEfficiency Shelf.operation.parameters Shelf.side
  obtain ⟨-, fails⟩ := only_giants_fault Shelf.template [Shelf.giantGrain] Shelf.side
  refine ⟨⟨Shelf.side_moderate, timed Shelf.side_valid doubles Shelf.side_moderate⟩, ?_⟩
  cases failed : (Duration.Rule.ofTemplate Shelf.template).compute [Shelf.giantGrain] Shelf.side with
  | error f => exact ⟨f, rfl, fails f failed⟩
  | ok d =>
    have faulted : ((Duration.Rule.ofTemplate Shelf.template).compute [Shelf.giantGrain]
        Shelf.side).isOk = false := by decide +kernel
    rw [failed] at faulted
    cases faulted

end Joinery
