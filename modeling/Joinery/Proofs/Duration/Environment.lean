import Joinery.Duration.Environment
import Joinery.Proofs.Keyed
import Joinery.Proofs.Outcome
import Joinery.Proofs.Record.Fault

/-!
What an environment has values for: the names of a catalog that have a fallback value, those that
every component has values of its own for, and those of the numeric parameters. The bounds of the
catalog change values and no names.
-/
namespace Joinery

def Parameter.Binds (p : Parameter) (name : String) : Prop :=
  p.name = name ∧ name ≠ "" ∧ ∃ x, p.value.finite? = .ok (some x)

namespace Duration

def ownNames : List String := ["length", "width", "thickness", "area", "volume", "complexity",
  "featureFactor", "quantity", "holeCount", "grooveCount", "chamferCount", "roundingCount"]

theorem counts_names {count : FeatureType → Int} {counts : Keyed Float}
    (counted : (Feature.counts count).mapM (fun entry =>
      (Numeral.whole entry.2).toFloat.map fun x => (entry.1, x)) = .ok counts) :
    counts.names = ["holeCount", "grooveCount", "chamferCount", "roundingCount"] := by
  have named : counts.map Prod.fst = (Feature.counts count).map Prod.fst := by
    refine mapM_image (fun entry named read => ?_) counted
    obtain ⟨x, -, rfl⟩ := map_ok.mp read
    rfl
  exact named

theorem mem_featureCounts {count : FeatureType → Int} {name : String} {n : Int} :
    (name, n) ∈ Feature.counts count ↔
      ∃ type, Feature.countName? type = some name ∧ count type = n := by
  rw [Feature.counts, List.mem_filterMap]
  constructor
  · rintro ⟨type, -, named⟩
    obtain ⟨key, counts, same⟩ := Option.map_eq_some_iff.mp named
    obtain ⟨rfl, rfl⟩ := Prod.mk.inj same
    exact ⟨type, counts, rfl⟩
  · rintro ⟨type, named, rfl⟩
    have listed : type ∈ [FeatureType.hole, .groove, .chamfer, .rounding] := by
      cases type <;> first | decide | cases named
    exact ⟨type, listed, by rw [named]; rfl⟩

theorem ownValues_parts {c : Component} {own : Keyed Float} (taken : ownValues c = .ok own) :
    ∃ featureFactor quantity counts, Feature.factor c.features = .ok featureFactor ∧
      (Numeral.whole c.quantity).toFloat = .ok quantity ∧
      (Feature.counts c.subject.count).mapM (fun entry =>
        (Numeral.whole entry.2).toFloat.map fun x => (entry.1, x)) = .ok counts ∧
      own = [("length", c.size.length), ("width", c.size.width), ("thickness", c.size.thickness),
        ("area", c.size.area), ("volume", c.size.volume), ("complexity", c.complexity.factor),
        ("featureFactor", featureFactor), ("quantity", quantity)] ++ counts := by
  obtain ⟨complexity, first, rest⟩ := bind_ok.mp taken
  obtain rfl := Except.ok.inj first
  obtain ⟨featureFactor, totalled, rest⟩ := bind_ok.mp rest
  obtain ⟨quantity, read, rest⟩ := bind_ok.mp rest
  obtain ⟨counts, counted, same⟩ := bind_ok.mp rest
  exact ⟨featureFactor, quantity, counts, totalled, read, counted, (Except.ok.inj same).symm⟩

theorem ownValues_names {c : Component} {own : Keyed Float} (taken : ownValues c = .ok own) :
    own.names = ownNames := by
  obtain ⟨_, _, counts, -, -, counted, rfl⟩ := ownValues_parts taken
  have named := counts_names counted
  rw [Keyed.names] at named
  rw [Keyed.names, List.map_append, named]
  rfl

theorem readParameter_ok {p : Parameter} {name : String} {x : Float} :
    (p.value.finite?.map fun
      | some x => if p.name = "" then none else some (p.name, x)
      | none => none) = .ok (some (name, x)) ↔
    p.name = name ∧ name ≠ "" ∧ p.value.finite? = .ok (some x) := by
  rw [map_ok]
  constructor
  · rintro ⟨o, read, same⟩
    cases o with
    | none => cases same
    | some y =>
      have entry : (if p.name = "" then none else some (p.name, y)) = some (name, x) := same
      split at entry
      · cases entry
      · rename_i named
        obtain ⟨rfl, rfl⟩ := Prod.mk.inj (Option.some.inj entry)
        exact ⟨rfl, named, read⟩
  · rintro ⟨rfl, named, read⟩
    exact ⟨some x, read, if_neg named⟩

theorem mem_parameterValues {parameters : List Parameter} {given : Keyed Float} {name : String}
    (taken : parameterValues parameters = .ok given) :
    name ∈ given.names ↔ ∃ p ∈ parameters, p.Binds name := by
  rw [Keyed.names, List.mem_map]
  constructor
  · rintro ⟨⟨other, x⟩, member, rfl⟩
    obtain ⟨p, listed, read⟩ := (mem_filterMapM taken).mp member
    obtain ⟨named, nonempty, value⟩ := readParameter_ok.mp read
    exact ⟨p, listed, named, nonempty, x, value⟩
  · rintro ⟨p, listed, named, nonempty, x, value⟩
    have read := readParameter_ok.mpr ⟨named, nonempty, value⟩
    exact ⟨(name, x), (mem_filterMapM taken).mpr ⟨p, listed, read⟩, rfl⟩

theorem readFallback_ok {v : Variable} {name : String} {x : Float} :
    (match v.fallback with
      | some n => n.toFloat.map fun x => some (v.name, x)
      | none => .ok none : Outcome (Option (String × Float))) = .ok (some (name, x)) ↔
    v.name = name ∧ ∃ n, v.fallback = some n ∧ n.toFloat = .ok x := by
  cases v.fallback with
  | none => simp
  | some n =>
    simp only [map_ok, Option.some.injEq, Prod.mk.injEq, exists_eq_left']
    constructor
    · rintro ⟨y, read, rfl, rfl⟩
      exact ⟨rfl, read⟩
    · rintro ⟨rfl, read⟩
      exact ⟨x, read, rfl, rfl⟩

theorem fallbacks_get?_iff {catalog : Catalog} {base : Keyed Float} {name : String} {x : Float}
    (distinct : catalog.names.Nodup) (taken : fallbacks catalog = .ok base) :
    base.get? name = some x ↔
      ∃ v ∈ catalog, v.name = name ∧ ∃ n, v.fallback = some n ∧ n.toFloat = .ok x := by
  obtain ⟨entries, listed, same⟩ := bind_ok.mp taken
  obtain rfl := Except.ok.inj same
  have inOrder : (entries.map Prod.fst).Sublist (catalog.map Variable.name) :=
    filterMapM_sublist (fun _ _ kept => (readFallback_ok.mp kept).1.symm) listed
  have reversed : (Keyed.names entries.reverse).Nodup := by
    rw [Keyed.names, List.map_reverse, List.nodup_reverse]
    exact distinct.sublist inOrder
  rw [Keyed.ofPairs, Keyed.get?_setAll, show Keyed.get? ([] : Keyed Float) name = none from rfl,
    Option.or_none, Keyed.get?_iff_mem reversed, List.mem_reverse, mem_filterMapM listed]
  exact exists_congr fun v => and_congr_right fun _ => readFallback_ok

theorem fallbacks_has {catalog : Catalog} {base : Keyed Float} {name : String}
    (taken : fallbacks catalog = .ok base) :
    base.has name = true ↔ ∃ v ∈ catalog, v.name = name ∧ v.fallback.isSome = true := by
  obtain ⟨entries, listed, same⟩ := bind_ok.mp taken
  obtain rfl := Except.ok.inj same
  have empty : ¬ (Keyed.has ([] : Keyed Float) name = true) := Bool.false_ne_true
  rw [Keyed.ofPairs, Keyed.has_setAll, or_iff_left empty, Keyed.names, List.mem_map]
  constructor
  · rintro ⟨⟨other, x⟩, member, rfl⟩
    obtain ⟨v, inCatalog, read⟩ := (mem_filterMapM listed).mp member
    obtain ⟨named, n, fallback, -⟩ := readFallback_ok.mp read
    exact ⟨v, inCatalog, named, by rw [fallback]; rfl⟩
  · rintro ⟨v, inCatalog, named, given⟩
    obtain ⟨n, fallback⟩ := Option.isSome_iff_exists.mp given
    obtain ⟨o, read⟩ := filterMapM_member listed v inCatalog
    simp only [fallback] at read
    obtain ⟨x, double, -⟩ := map_ok.mp read
    have kept := (mem_filterMapM listed).mpr
      ⟨v, inCatalog, readFallback_ok.mpr ⟨named, n, fallback, double⟩⟩
    exact ⟨(name, x), kept, rfl⟩

/-! The bounds of a catalog, one variable after the other. -/

theorem clampEntry_other {v : Variable} {values after : Keyed Float} {name : String}
    (done : clampEntry v values = .ok after) (apart : name ≠ v.name) :
    after.get? name = values.get? name := by
  unfold clampEntry at done
  split at done
  · obtain ⟨clamped, -, rfl⟩ := map_ok.mp done
    rw [Keyed.get?_set, if_neg apart]
  · obtain rfl := Except.ok.inj done
    rfl

theorem clampEntry_own {v : Variable} {values after : Keyed Float} {x : Float}
    (done : clampEntry v values = .ok after) (found : values.get? v.name = some x) :
    ∃ y, v.clamp x = .ok y ∧ after.get? v.name = some y := by
  simp only [clampEntry, found] at done
  obtain ⟨y, clamped, rfl⟩ := map_ok.mp done
  exact ⟨y, clamped, by rw [Keyed.get?_set, if_pos rfl]⟩

theorem clampEntry_has {v : Variable} {values after : Keyed Float}
    (done : clampEntry v values = .ok after) (name : String) : after.has name = values.has name := by
  by_cases own : name = v.name
  · subst own
    cases found : values.get? v.name with
    | none =>
      simp only [clampEntry, found] at done
      obtain rfl := Except.ok.inj done
      rfl
    | some x =>
      obtain ⟨y, -, bound⟩ := clampEntry_own done found
      rw [Keyed.has, Keyed.has, found, bound]
      rfl
  · rw [Keyed.has, Keyed.has, clampEntry_other done own]

theorem clamped_has {catalog : Catalog} {values after : Keyed Float}
    (done : catalog.foldlM (fun values v => clampEntry v values) values = .ok after)
    (name : String) : after.has name = values.has name :=
  foldlM_preserves (fun _ _ _ _ step => clampEntry_has step name) done

theorem clamped_other {catalog : Catalog} {values after : Keyed Float} {name : String}
    (done : catalog.foldlM (fun values v => clampEntry v values) values = .ok after)
    (apart : name ∉ catalog.names) : after.get? name = values.get? name := by
  refine foldlM_preserves (fun _ v member _ step => clampEntry_other step ?_) done
  rintro rfl
  exact apart (List.mem_map_of_mem member)

theorem clamped_get? {catalog : Catalog} {values after : Keyed Float} {v : Variable} {x : Float}
    (distinct : catalog.names.Nodup)
    (done : catalog.foldlM (fun values v => clampEntry v values) values = .ok after)
    (member : v ∈ catalog) (found : values.get? v.name = some x) :
    ∃ y, v.clamp x = .ok y ∧ after.get? v.name = some y := by
  induction catalog generalizing values with
  | nil => cases member
  | cons w rest ih =>
    rw [List.foldlM_cons] at done
    obtain ⟨next, first, later⟩ := bind_ok.mp done
    obtain ⟨fresh, others⟩ := List.nodup_cons.mp distinct
    rcases List.mem_cons.mp member with rfl | below
    · obtain ⟨y, clamped, bound⟩ := clampEntry_own first found
      exact ⟨y, clamped, by rw [clamped_other later fresh, bound]⟩
    · have apart : v.name ≠ w.name := fun same =>
        fresh (same ▸ List.mem_map_of_mem (f := Variable.name) below)
      exact ih others later below (by rw [clampEntry_other first apart, found])

/-! Numbers too large for a double are all that keeps an environment from having values. -/

section
open Outcome (FailsAs)

def Overflows (f : Fault) : Prop := f.kind = .overflow

theorem toFloat_overflows (n : Numeral) : FailsAs Overflows n.toFloat := by
  intro f fails
  rw [(Numeral.toFloat_error_iff.mp fails).1]
  rfl

theorem fallbacks_fails (catalog : Catalog) : FailsAs Overflows (fallbacks catalog) := by
  refine .bind (.filterMapM fun v => ?_) fun entries _ => .ok _
  split
  · exact .map (toFloat_overflows _)
  · exact .ok none

theorem factor_fails (features : List Feature) : FailsAs Overflows (Feature.factor features) := by
  refine .bind (.mapM fun f _ => .map (toFloat_overflows _)) fun shares _ => ?_
  split
  · exact .ok _
  · exact .error rfl

theorem ownValues_fails (c : Component) : FailsAs Overflows (ownValues c) := by
  refine .bind (.ok _) fun complexity _ => ?_
  refine .bind (factor_fails c.features) fun factor _ => ?_
  refine .bind (toFloat_overflows _) fun quantity _ => ?_
  exact .bind (.mapM fun entry _ => .map (toFloat_overflows _)) fun counts _ => .ok _

theorem finite?_overflows (d : Datum) : FailsAs Overflows d.finite? := by
  cases d with
  | number n => exact .map (toFloat_overflows n)
  | text _ | null | bool _ | list _ | object _ => exact .ok _

theorem parameterValues_fails (parameters : List Parameter) :
    FailsAs Overflows (parameterValues parameters) :=
  .filterMapM fun p => .map (finite?_overflows p.value)

theorem boundOr_fails (bound : Option Numeral) (x : Float) :
    FailsAs Overflows (Variable.boundOr bound x) := by
  cases bound with
  | none => exact .ok x
  | some n => exact toFloat_overflows n

theorem clampEntry_fails (v : Variable) (values : Keyed Float) :
    FailsAs Overflows (clampEntry v values) := by
  have clamp (x : Float) : FailsAs Overflows (v.clamp x) := by
    unfold Variable.clamp
    split
    · exact boundOr_fails v.least x
    · split
      · exact boundOr_fails v.most x
      · exact .ok x
  unfold clampEntry
  split
  · exact .map (clamp _)
  · exact .ok values

theorem environment_fails (catalog : Catalog) (parameters : List Parameter) (c : Component) :
    FailsAs Overflows (environment catalog parameters c) := by
  refine .bind (fallbacks_fails catalog) fun base _ => ?_
  refine .bind (ownValues_fails c) fun own _ => ?_
  refine .bind (parameterValues_fails parameters) fun given _ => ?_
  exact .foldlM fun values v => clampEntry_fails v values

end

/-! Environments as a whole. -/

/-- The names that a component or its parameters give a value. -/
def Supplied (parameters : List Parameter) (name : String) : Prop :=
  name ∈ ownNames ∨ ∃ p ∈ parameters, p.Binds name

section
variable {catalog : Catalog} {parameters : List Parameter} {c : Component} {values : Keyed Float}
  (taken : environment catalog parameters c = .ok values)
include taken

/-- Before the bounds come into play there are three layers of values. -/
theorem environment_layers : ∃ base own given : Keyed Float,
    fallbacks catalog = .ok base ∧ ownValues c = .ok own ∧ parameterValues parameters = .ok given ∧
    catalog.foldlM (fun values v => clampEntry v values) ((base.setAll own).setAll given) =
      .ok values := by
  obtain ⟨base, readBase, rest⟩ := bind_ok.mp taken
  obtain ⟨own, readOwn, rest⟩ := bind_ok.mp rest
  obtain ⟨given, readGiven, done⟩ := bind_ok.mp rest
  exact ⟨base, own, given, readBase, readOwn, readGiven, done⟩

theorem environment_has {name : String} : values.has name = true ↔
    (∃ v ∈ catalog, v.name = name ∧ v.fallback.isSome = true) ∨ Supplied parameters name := by
  obtain ⟨base, own, given, readBase, readOwn, readGiven, done⟩ := environment_layers taken
  rw [clamped_has done, Keyed.has_setAll, Keyed.has_setAll, fallbacks_has readBase,
    ownValues_names readOwn, mem_parameterValues readGiven, Supplied, or_rotate, or_left_comm]

theorem environment_fallback {v : Variable} {n : Numeral} {x : Float} (distinct : catalog.names.Nodup)
    (member : v ∈ catalog) (fallback : v.fallback = some n) (read : n.toFloat = .ok x)
    (lacking : ¬ Supplied parameters v.name) :
    ∃ y, v.clamp x = .ok y ∧ values.get? v.name = some y := by
  obtain ⟨base, own, given, readBase, readOwn, readGiven, done⟩ := environment_layers taken
  obtain ⟨notOwn, notGiven⟩ := not_or.mp lacking
  apply clamped_get? distinct done member
  rw [Keyed.get?_setAll_other (mt (mem_parameterValues readGiven).mp notGiven),
    Keyed.get?_setAll_other (ownValues_names readOwn ▸ notOwn),
    (fallbacks_get?_iff distinct readBase).mpr ⟨v, member, rfl, n, fallback, read⟩]

end
end Duration
end Joinery
