import Joinery.Proofs.Catalog.Double
import Joinery.Proofs.Component.Valid
import Joinery.Proofs.Duration.Environment
import Joinery.Proofs.Number.Overflow
import Joinery.Proofs.Product.Fresh

/-!
Which of its layers an environment takes a value from. The last numeric parameter of a name comes before
the component, and the component before the catalog; what is taken is then brought within the bounds of
the catalog, as far as a double can hold them. All of this is there unless the features are too many to
be counted in a double.
-/
namespace Joinery
open Number

def Parameter.number? (p : Parameter) : Option Float := p.value.finite?.toOption.join

theorem Parameter.number?_of_read {p : Parameter} {o : Option Float} (read : p.value.finite? = .ok o) :
    p.number? = o := by
  rw [Parameter.number?, read]
  rfl

theorem Datum.finite?_int {n : Int} {x : Float} (read : (Numeral.whole n).toFloat = .ok x) :
    (Datum.int n).finite? = .ok (some x) := by
  obtain ⟨same, finite⟩ := Numeral.nearest_of_toFloat read
  have kept : (if x.isFinite then some x else none) = some x := if_pos (same ▸ finite)
  change (Numeral.whole n).toFloat.map (fun y => if y.isFinite then some y else none) = _
  rw [read]
  exact congrArg Except.ok kept

def Parameter.numberFor? (p : Parameter) (name : String) : Option Float :=
  if p.name = name ∧ name ≠ "" then p.number? else none

def Numeral.HasFinite (n : Numeral) : Prop := ∃ x, n.toFloat = .ok x ∧ x.isFinite = true

structure Variable.HasFinite (v : Variable) : Prop where
  fallback : ∀ n ∈ v.fallback, n.HasFinite
  least : ∀ n ∈ v.least, n.HasFinite
  most : ∀ n ∈ v.most, n.HasFinite

/-- The double that holds a bound bounds the value. -/
structure Variable.Bounds (v : Variable) (y : Float) : Prop where
  least : ∀ n ∈ v.least, ∀ b, n.toFloat = .ok b → b ≤ y
  most : ∀ n ∈ v.most, ∀ b, n.toFloat = .ok b → y ≤ b

/-- The features of a component can be counted in doubles. -/
structure Component.CountsFeatures (c : Component) : Prop where
  factor : ∃ x, Feature.factor c.features = .ok x
  count : ∀ type name, Feature.countName? type = some name →
    (Numeral.whole (Feature.countOf type c.features)).HasDouble

namespace Duration

def lastGiven (parameters : List Parameter) (name : String) : Option Float :=
  parameters.reverse.findSome? fun p => p.numberFor? name

/-- What a component itself has for a name. -/
inductive OwnValue (c : Component) : String → Float → Prop
  | length : OwnValue c "length" c.size.length
  | width : OwnValue c "width" c.size.width
  | thickness : OwnValue c "thickness" c.size.thickness
  | area : OwnValue c "area" c.size.area
  | volume : OwnValue c "volume" c.size.volume
  | complexity : OwnValue c "complexity" c.complexity.factor
  | featureFactor {x : Float} (total : Feature.factor c.features = .ok x) :
    OwnValue c "featureFactor" x
  | quantity {x : Float} (read : (Numeral.whole c.quantity).toFloat = .ok x) :
    OwnValue c "quantity" x
  | count {type : FeatureType} {name : String} {x : Float}
    (counted : Feature.countName? type = some name)
    (read : (Numeral.whole (Feature.countOf type c.features)).toFloat = .ok x) : OwnValue c name x

/-- What a name stands for before the bounds come into play. -/
inductive Raw (catalog : Catalog) (parameters : List Parameter) (c : Component) :
    String → Float → Prop
  | given {name : String} {x : Float} (last : lastGiven parameters name = some x) :
    Raw catalog parameters c name x
  | own {name : String} {x : Float} (none : lastGiven parameters name = none)
    (own : OwnValue c name x) : Raw catalog parameters c name x
  | fallback {v : Variable} {n : Numeral} {x : Float} (none : lastGiven parameters v.name = none)
    (notOwn : v.name ∉ ownNames) (member : v ∈ catalog) (fallback : v.fallback = some n)
    (read : n.toFloat = .ok x) : Raw catalog parameters c v.name x

/-- A value as the catalog bounds it, which is the value itself where the catalog lacks the name. -/
inductive Clamped (catalog : Catalog) : String → Float → Float → Prop
  | bounded {v : Variable} {name : String} {x y : Float} (member : v ∈ catalog)
    (named : v.name = name) (clamp : v.clamp x = .ok y) : Clamped catalog name x y
  | free {name : String} (absent : name ∉ catalog.names) (x : Float) : Clamped catalog name x x

/-! Layer by layer. -/

theorem lastGiven_cons (p : Parameter) (rest : List Parameter) (name : String) :
    lastGiven (p :: rest) name = (lastGiven rest name).or (p.numberFor? name) := by
  rw [lastGiven, List.reverse_cons, List.findSome?_append, lastGiven]
  cases given : p.numberFor? name <;> simp [given]

theorem numberFor?_eq_some {p : Parameter} {name : String} {x : Float} :
    p.numberFor? name = some x ↔ p.name = name ∧ name ≠ "" ∧ p.value.finite? = .ok (some x) := by
  have read : p.number? = some x ↔ p.value.finite? = .ok (some x) := by
    rw [Parameter.number?]
    cases p.value.finite? with
    | error f => simp [Except.toOption]
    | ok o => simp [Except.toOption]
  rw [Parameter.numberFor?, Option.ite_none_right_eq_some, read, and_assoc]

theorem get?_toList {entry : Option (String × Float)} {name : String} {x : Float} :
    Keyed.get? entry.toList name = some x ↔ entry = some (name, x) := by
  cases entry with
  | none => exact ⟨nofun, nofun⟩
  | some pair =>
    have distinct : (Keyed.names [pair]).Nodup := List.nodup_singleton pair.1
    rw [Option.toList_some, Keyed.get?_iff_mem distinct, List.mem_singleton, Option.some.injEq, eq_comm]

theorem parameterValues_get? {parameters : List Parameter} {given : Keyed Float}
    (taken : parameterValues parameters = .ok given) (name : String) :
    Keyed.get? given.reverse name = lastGiven parameters name := by
  induction parameters generalizing given with
  | nil =>
    obtain rfl := Except.ok.inj taken
    rfl
  | cons p rest ih =>
    obtain ⟨entry, later, read, takenLater, rfl⟩ := filterMapM_cons_ok.mp taken
    have single : Keyed.get? entry.toList name = p.numberFor? name := by
      apply Option.ext
      intro x
      rw [get?_toList, numberFor?_eq_some]
      constructor
      · rintro rfl
        exact readParameter_ok.mp read
      · intro gives
        exact Except.ok.inj (read.symm.trans (readParameter_ok.mpr gives))
    have same : entry.toList.reverse = entry.toList := by cases entry <;> rfl
    rw [lastGiven_cons, ← single, List.reverse_append, Keyed.get?_append, ih takenLater, same]

theorem ownNames_nodup : ownNames.Nodup := by decide

theorem mem_counts {count : FeatureType → Int} {counts : Keyed Float} {name : String} {x : Float}
    (counted : (Feature.counts count).mapM (fun entry =>
      (Numeral.whole entry.2).toFloat.map fun x => (entry.1, x)) = .ok counts) :
    (name, x) ∈ counts ↔ ∃ type, Feature.countName? type = some name ∧
      (Numeral.whole (count type)).toFloat = .ok x := by
  rw [mem_mapM counted]
  constructor
  · rintro ⟨⟨key, n⟩, member, read⟩
    obtain ⟨y, double, same⟩ := map_ok.mp read
    obtain ⟨rfl, rfl⟩ := Prod.mk.inj same
    obtain ⟨type, named, rfl⟩ := mem_featureCounts.mp member
    exact ⟨type, named, double⟩
  · rintro ⟨type, named, double⟩
    exact ⟨_, mem_featureCounts.mpr ⟨type, named, rfl⟩, map_ok.mpr ⟨x, double, rfl⟩⟩

theorem ownValues_get? {c : Component} {own : Keyed Float} (taken : ownValues c = .ok own)
    {name : String} {x : Float} : own.get? name = some x ↔ OwnValue c name x := by
  have distinct : own.names.Nodup := by
    rw [ownValues_names taken]
    exact ownNames_nodup
  obtain ⟨factor, quantity, counts, totalled, read, counted, rfl⟩ := ownValues_parts taken
  rw [Keyed.get?_iff_mem distinct, List.mem_append, mem_counts counted]
  constructor
  · rintro (direct | ⟨type, named, double⟩)
    · simp only [List.mem_cons, Prod.mk.injEq, List.not_mem_nil, or_false] at direct
      rcases direct with ⟨rfl, rfl⟩ | ⟨rfl, rfl⟩ | ⟨rfl, rfl⟩ | ⟨rfl, rfl⟩ | ⟨rfl, rfl⟩ | ⟨rfl, rfl⟩ |
        ⟨rfl, rfl⟩ | ⟨rfl, rfl⟩
      · exact .length
      · exact .width
      · exact .thickness
      · exact .area
      · exact .volume
      · exact .complexity
      · exact .featureFactor totalled
      · exact .quantity read
    · exact .count named double
  · intro value
    cases value with
    | featureFactor total =>
      obtain rfl := Except.ok.inj (totalled.symm.trans total)
      exact .inl (by simp)
    | quantity again =>
      obtain rfl := Except.ok.inj (read.symm.trans again)
      exact .inl (by simp)
    | count named double => exact .inr ⟨_, named, double⟩
    | _ => exact .inl (by simp)

theorem OwnValue.mem_ownNames {c : Component} {name : String} {x : Float} (value : OwnValue c name x) :
    name ∈ ownNames := by
  cases value with
  | @count type _ _ named _ => cases type <;> cases named <;> decide
  | _ => decide

theorem layers_get? {catalog : Catalog} {parameters : List Parameter} {c : Component}
    {base own given : Keyed Float} (distinct : catalog.names.Nodup)
    (readBase : fallbacks catalog = .ok base) (readOwn : ownValues c = .ok own)
    (readGiven : parameterValues parameters = .ok given) {name : String} {x : Float} :
    Keyed.get? ((base.setAll own).setAll given) name = some x ↔ Raw catalog parameters c name x := by
  have named := ownValues_names readOwn
  have ownDistinct : own.names.Nodup := named ▸ ownNames_nodup
  rw [Keyed.get?_setAll, Keyed.get?_setAll, parameterValues_get? readGiven,
    Keyed.get?_reverse ownDistinct]
  cases last : lastGiven parameters name with
  | some y =>
    rw [Option.some_or]
    constructor
    · rintro same
      exact .given (last.trans same)
    · intro raw
      cases raw with
      | given again => exact last.symm.trans again
      | own none | fallback none => cases last.symm.trans none
  | none =>
    rw [Option.none_or]
    cases found : own.get? name with
    | some y =>
      have value := (ownValues_get? readOwn).mp found
      rw [Option.some_or]
      constructor
      · rintro same
        obtain rfl := Option.some.inj same
        exact .own last value
      · intro raw
        cases raw with
        | given again => cases last.symm.trans again
        | own _ again => exact found.symm.trans ((ownValues_get? readOwn).mpr again)
        | fallback _ notOwn => exact absurd value.mem_ownNames notOwn
    | none =>
      have notOwn : name ∉ ownNames := by
        rw [← named, ← Keyed.has_iff_mem_names, Keyed.has, found]
        exact Bool.false_ne_true
      rw [Option.none_or, fallbacks_get?_iff distinct readBase]
      constructor
      · rintro ⟨v, member, rfl, n, fallback, read⟩
        exact .fallback last notOwn member fallback read
      · intro raw
        cases raw with
        | given again => cases last.symm.trans again
        | own _ value => exact absurd value.mem_ownNames notOwn
        | fallback _ _ member fallback read => exact ⟨_, member, rfl, _, fallback, read⟩

theorem clamped_get?_iff {catalog : Catalog} {values after : Keyed Float} {name : String} {y : Float}
    (distinct : catalog.names.Nodup)
    (done : catalog.foldlM (fun values v => clampEntry v values) values = .ok after) :
    after.get? name = some y ↔ ∃ x, values.get? name = some x ∧ Clamped catalog name x y := by
  by_cases listed : name ∈ catalog.names
  · obtain ⟨v, member, rfl⟩ := List.mem_map.mp listed
    cases found : values.get? v.name with
    | none =>
      have absent : after.has v.name = false := by
        rw [clamped_has done, Keyed.has, found]
        rfl
      rw [Keyed.has, Option.isSome_eq_false_iff, Option.isNone_iff_eq_none] at absent
      simp [absent]
    | some x =>
      obtain ⟨z, clamped, bound⟩ := clamped_get? distinct done member found
      rw [bound]
      constructor
      · rintro same
        obtain rfl := Option.some.inj same
        exact ⟨x, rfl, .bounded member rfl clamped⟩
      · rintro ⟨w, same, clamp⟩
        obtain rfl := Option.some.inj same
        cases clamp with
        | bounded other named again =>
          obtain rfl := List.inj_on_of_nodup_map distinct other member named
          exact congrArg some (Except.ok.inj (clamped.symm.trans again))
        | free absent => exact absurd listed absent
  · rw [clamped_other done listed]
    constructor
    · exact fun found => ⟨y, found, .free listed y⟩
    · rintro ⟨x, found, clamp⟩
      cases clamp with
      | bounded member named => exact absurd (named ▸ List.mem_map_of_mem member) listed
      | free => exact found

/-! What the bounds do. -/

theorem finite_of_sum? {xs : List Float} {x : Float} (summed : sum? xs = some x) :
    x.isFinite = true := by
  unfold sum? at summed
  dsimp only at summed
  split at summed
  · obtain rfl := Option.some.inj summed
    assumption
  · cases summed

theorem number_of_ownValue {c : Component} (valid : c.Valid) (area : c.size.area.isFinite = true)
    (volume : c.size.volume.isFinite = true) {name : String} {x : Float}
    (value : OwnValue c name x) : x.isNaN = false := by
  have whole {n : Int} {y : Float} (read : (Numeral.whole n).toFloat = .ok y) : y.isNaN = false := by
    obtain ⟨rfl, finite⟩ := Numeral.nearest_of_toFloat read
    exact number_of_finite finite
  cases value with
  | length => exact number_of_finite valid.size.length.finite
  | width => exact number_of_finite valid.size.width.finite
  | thickness => exact number_of_finite valid.size.thickness.finite
  | area => exact number_of_finite area
  | volume => exact number_of_finite volume
  | complexity => cases c.complexity <;> decide +kernel
  | featureFactor total =>
    obtain ⟨shares, -, rest⟩ := bind_ok.mp total
    split at rest
    · rename_i sum summed
      obtain rfl := Except.ok.inj rest
      exact number_of_add (by decide +kernel) (finite_of_sum? summed)
    · cases rest
  | quantity read => exact whole read
  | count _ read => exact whole read

end Duration

theorem Variable.ordered_of_made {v : Variable} (made : v.Made) {n k : Numeral} (least : v.least = some n)
    (most : v.most = some k) : k.below n = false := by
  obtain ⟨name, kind, unit, description, fallback, low, high, made⟩ := made
  obtain ⟨kind, -, ordered, rfl⟩ := parts_of_make made
  simp only at least most
  simp only [ordered?, least, most] at ordered
  split at ordered
  · cases ordered
  · rename_i inOrder
    exact Bool.eq_false_iff.mpr inOrder

theorem Numeral.le_of_below {a b : Numeral} {x y : Float} (first : a.toFloat = .ok x)
    (second : b.toFloat = .ok y) (numberX : x.isNaN = false) (numberY : y.isNaN = false)
    (ordered : a.below b = false) : y ≤ x := by
  have doubles := below_asDouble ⟨x, first⟩ ⟨y, second⟩ ordered
  rw [asDouble_of_read first, asDouble_of_read second] at doubles
  have notLess : ¬ x < y := of_decide_eq_false doubles
  exact Number.le_of_not_lt numberY numberX notLess

theorem Numeral.HasFinite.finite {n : Numeral} (held : n.HasFinite) {x : Float}
    (read : n.toFloat = .ok x) : x.isFinite = true := by
  obtain ⟨y, again, finite⟩ := held
  exact Except.ok.inj (again.symm.trans read) ▸ finite

theorem Numeral.hasFinite_of_isOk {n : Int} (double : (Numeral.whole n).toFloat.isOk = true) :
    (Numeral.whole n).HasFinite := by
  obtain ⟨same, finite⟩ := nearest_of_toFloat (Outcome.eq_value double)
  exact ⟨_, Outcome.eq_value double, same ▸ finite⟩

theorem Variable.bounds_of_clamp {v : Variable} (made : v.Made) (finite : v.HasFinite) {x y : Float}
    (number : x.isNaN = false) (clamped : v.clamp x = .ok y) : v.Bounds y := by
  have numberLeast {n b} (own : n ∈ v.least) (read : n.toFloat = .ok b) : b.isNaN = false :=
    number_of_finite ((finite.least n own).finite read)
  have numberMost {n b} (own : n ∈ v.most) (read : n.toFloat = .ok b) : b.isNaN = false :=
    number_of_finite ((finite.most n own).finite read)
  have own {b : Float} (held : b.isFinite = true) : b ≤ b :=
    (le_iff_units held held).mpr (Int.le_refl _)
  unfold clamp at clamped
  split at clamped
  · rename_i below
    cases least : v.least with
    | none => simp [isBelow, least] at below
    | some n =>
      simp only [boundOr, least] at clamped
      -- what is raised to the lower bound stays within the upper one, as the two are ordered
      have numberY := numberLeast least clamped
      refine ⟨fun m same b read => ?_, fun k most b read => ?_⟩
      · obtain rfl := Option.some.inj (least.symm.trans same)
        obtain rfl := Except.ok.inj (clamped.symm.trans read)
        exact own ((finite.least n least).finite read)
      · exact Numeral.le_of_below read clamped (numberMost most read) numberY
          (ordered_of_made made least most)
  · rename_i notBelow
    split at clamped
    · rename_i above
      cases most : v.most with
      | none => simp [isAbove, most] at above
      | some k =>
        simp only [boundOr, most] at clamped
        have numberY := numberMost most clamped
        refine ⟨fun n least b read => ?_, fun j same b read => ?_⟩
        · exact Numeral.le_of_below clamped read numberY (numberLeast least read)
            (ordered_of_made made least most)
        · obtain rfl := Option.some.inj (most.symm.trans same)
          obtain rfl := Except.ok.inj (clamped.symm.trans read)
          exact own ((finite.most k most).finite read)
    · rename_i notAbove
      obtain rfl := Except.ok.inj clamped
      refine ⟨fun n least b read => ?_, fun k most b read => ?_⟩
      · have inside : (Numeral.real x).below n = false := by
          simpa [isBelow, show v.least = some n from least] using notBelow
        exact Numeral.le_of_below (a := .real x) rfl read number (numberLeast least read) inside
      · have inside : k.below (Numeral.real x) = false := by
          simpa [isAbove, show v.most = some k from most] using notAbove
        exact Numeral.le_of_below (b := .real x) read rfl (numberMost most read) number inside

/-! When there is an environment. -/

/-- What an environment is made of: a valid component with a finite area and volume, variables of
different names with finite numbers, and parameters that are not too large to be read. -/
structure Duration.Sound (catalog : Catalog) (parameters : List Parameter) (c : Component) : Prop where
  valid : c.Valid
  area : c.size.area.isFinite = true
  volume : c.size.volume.isFinite = true
  distinct : catalog.names.Nodup
  made : ∀ v ∈ catalog, v.Made
  finite : ∀ v ∈ catalog, v.HasFinite
  readable : ∀ p ∈ parameters, ∃ o, p.value.finite? = .ok o

theorem Counted.hasDouble {least n : Nat} (counted : Counted least n) : (Numeral.whole n).HasDouble := by
  obtain ⟨z, whole, -⟩ := map_ok.mp (counted.again "")
  obtain ⟨o, finite, -⟩ := bind_ok.mp whole
  obtain ⟨x, read, -⟩ := map_ok.mp finite
  exact ⟨x, read⟩

theorem Variable.clamp_ok {v : Variable} (finite : v.HasFinite) (x : Float) : ∃ y, v.clamp x = .ok y := by
  have held {bound : Option Numeral} (each : ∀ n ∈ bound, n.HasFinite) :
      ∃ y, boundOr bound x = .ok y := by
    cases bound with
    | none => exact ⟨x, rfl⟩
    | some n =>
      obtain ⟨y, read, -⟩ := each n rfl
      exact ⟨y, read⟩
  unfold clamp
  split
  · exact held finite.least
  · split
    · exact held finite.most
    · exact ⟨x, rfl⟩

namespace Duration

theorem clampEntry_ok {v : Variable} (finite : v.HasFinite) (values : Keyed Float) :
    ∃ after, clampEntry v values = .ok after := by
  unfold clampEntry
  split
  · rename_i x _
    obtain ⟨y, clamped⟩ := Variable.clamp_ok finite x
    exact ⟨_, map_ok.mpr ⟨y, clamped, rfl⟩⟩
  · exact ⟨values, rfl⟩

theorem fallbacks_ok {catalog : Catalog} (finite : ∀ v ∈ catalog, v.HasFinite) :
    ∃ base, fallbacks catalog = .ok base := by
  refine Exists.imp (fun _ => bind_ok.mpr) ?_
  rw [exists_comm]
  refine (filterMapM_ok ?_).imp fun entries listed => ⟨_, listed, rfl⟩
  intro v member
  cases fallback : v.fallback with
  | none => exact ⟨none, rfl⟩
  | some n =>
    obtain ⟨x, read, -⟩ := (finite v member).fallback n fallback
    exact ⟨_, map_ok.mpr ⟨x, read, rfl⟩⟩

theorem parameterValues_ok {parameters : List Parameter}
    (readable : ∀ p ∈ parameters, ∃ o, p.value.finite? = .ok o) :
    ∃ given, parameterValues parameters = .ok given := by
  apply filterMapM_ok
  intro p member
  obtain ⟨o, read⟩ := readable p member
  exact ⟨_, map_ok.mpr ⟨o, read, rfl⟩⟩

theorem ownValues_ok_iff {c : Component} (quantity : (Numeral.whole c.quantity).HasDouble) :
    (∃ own, ownValues c = .ok own) ↔ c.CountsFeatures := by
  constructor
  · rintro ⟨own, taken⟩
    obtain ⟨factor, _, counts, totalled, -, counted, -⟩ := ownValues_parts taken
    refine ⟨⟨factor, totalled⟩, fun type name named => ?_⟩
    obtain ⟨entry, read⟩ := mapM_member counted _ (mem_featureCounts.mpr ⟨type, named, rfl⟩)
    obtain ⟨x, double, -⟩ := map_ok.mp read
    exact ⟨x, double⟩
  · rintro ⟨⟨factor, totalled⟩, count⟩
    obtain ⟨q, read⟩ := quantity
    have counts : ∃ counts, (Feature.counts c.subject.count).mapM (fun entry =>
        (Numeral.whole entry.2).toFloat.map fun x => (entry.1, x)) = .ok counts := by
      apply mapM_ok
      rintro ⟨name, n⟩ member
      obtain ⟨type, named, rfl⟩ := mem_featureCounts.mp member
      obtain ⟨x, double⟩ := count type name named
      exact ⟨_, map_ok.mpr ⟨x, double, rfl⟩⟩
    obtain ⟨counts, counted⟩ := counts
    exact ⟨_, bind_ok.mpr ⟨c.complexity.factor, rfl, bind_ok.mpr ⟨factor, totalled,
      bind_ok.mpr ⟨q, read, bind_ok.mpr ⟨counts, counted, rfl⟩⟩⟩⟩⟩

/-! Parameters without a number. -/

theorem parameterValues_numeric {parameters : List Parameter}
    (readable : ∀ p ∈ parameters, ∃ o, p.value.finite? = .ok o) :
    parameterValues (parameters.filter fun p => p.number?.isSome) = parameterValues parameters := by
  induction parameters with
  | nil => rfl
  | cons p rest ih =>
    obtain ⟨⟨o, read⟩, others⟩ := List.forall_mem_cons.mp readable
    have later := ih others
    have number := Parameter.number?_of_read read
    cases o with
    | none =>
      rw [List.filter_cons_of_neg (by rw [number]; exact Bool.false_ne_true), later]
      simp only [parameterValues, List.filterMapM_cons, read]
      rfl
    | some x =>
      rw [List.filter_cons_of_pos (by rw [number]; rfl)]
      simp only [parameterValues, List.filterMapM_cons] at later ⊢
      rw [later]

theorem environment_numeric (catalog : Catalog) {parameters : List Parameter} (c : Component)
    (readable : ∀ p ∈ parameters, ∃ o, p.value.finite? = .ok o) :
    environment catalog (parameters.filter fun p => p.number?.isSome) c =
      environment catalog parameters c := by
  rw [environment, environment, parameterValues_numeric readable]

/-! Bounds and counts. -/

theorem finite_of_lastGiven {parameters : List Parameter} {name : String} {x : Float}
    (last : lastGiven parameters name = some x) : x.isFinite = true := by
  obtain ⟨p, -, given⟩ := List.exists_of_findSome?_eq_some last
  exact Datum.finite_of_read (numberFor?_eq_some.mp given).2.2

theorem exists_clamped {catalog : Catalog} (finite : ∀ v ∈ catalog, v.HasFinite) (name : String)
    (x : Float) : ∃ y, Clamped catalog name x y := by
  by_cases listed : name ∈ catalog.names
  · obtain ⟨v, member, named⟩ := List.mem_map.mp listed
    obtain ⟨y, clamp⟩ := Variable.clamp_ok (finite v member) x
    exact ⟨y, .bounded member named clamp⟩
  · exact ⟨x, .free listed x⟩

theorem environment_ok {catalog : Catalog} {parameters : List Parameter} {c : Component}
    (finite : ∀ v ∈ catalog, v.HasFinite) (readable : ∀ p ∈ parameters, ∃ o, p.value.finite? = .ok o)
    (own : ∃ own, ownValues c = .ok own) :
    ∃ values, environment catalog parameters c = .ok values := by
  obtain ⟨own, readOwn⟩ := own
  obtain ⟨base, readBase⟩ := fallbacks_ok finite
  obtain ⟨given, readGiven⟩ := parameterValues_ok readable
  have clamps (values : Keyed Float) (v : Variable) (member : v ∈ catalog) :=
    clampEntry_ok (finite v member) values
  obtain ⟨values, done⟩ := foldlM_ok clamps ((base.setAll own).setAll given)
  exact ⟨values, bind_ok.mpr ⟨base, readBase,
    bind_ok.mpr ⟨own, readOwn, bind_ok.mpr ⟨given, readGiven, done⟩⟩⟩⟩

section
variable {catalog : Catalog} {parameters : List Parameter} {c : Component}
  (sound : Sound catalog parameters c)
include sound

theorem Raw.number {name : String} {x : Float} (raw : Raw catalog parameters c name x) :
    x.isNaN = false := by
  cases raw with
  | given last => exact number_of_finite (finite_of_lastGiven last)
  | own _ value => exact number_of_ownValue sound.valid sound.area sound.volume value
  | fallback _ _ member fallback read =>
    exact number_of_finite (((sound.finite _ member).fallback _ fallback).finite read)

theorem Clamped.bounds {v : Variable} {x y : Float} (member : v ∈ catalog) (number : x.isNaN = false)
    (clamped : Clamped catalog v.name x y) : v.Bounds y := by
  cases clamped with
  | bounded other named clamp =>
    obtain rfl := List.inj_on_of_nodup_map sound.distinct other member named
    exact Variable.bounds_of_clamp (sound.made _ member) (sound.finite _ member) number clamp
  | free absent => exact absurd (List.mem_map_of_mem member) absent

theorem environment_ok_iff :
    (∃ values, environment catalog parameters c = .ok values) ↔ c.CountsFeatures := by
  rw [← ownValues_ok_iff sound.valid.quantity.hasDouble]
  constructor
  · rintro ⟨values, taken⟩
    obtain ⟨-, own, -, -, readOwn, -⟩ := environment_layers taken
    exact ⟨own, readOwn⟩
  · exact environment_ok sound.finite sound.readable

end

theorem environment_get? {catalog : Catalog} {parameters : List Parameter} {c : Component}
    {values : Keyed Float} (distinct : catalog.names.Nodup)
    (taken : environment catalog parameters c = .ok values) {name : String} {y : Float} :
    values.get? name = some y ↔
      ∃ x, Raw catalog parameters c name x ∧ Clamped catalog name x y := by
  obtain ⟨base, own, given, readBase, readOwn, readGiven, done⟩ := environment_layers taken
  rw [clamped_get?_iff distinct done]
  simp only [layers_get? distinct readBase readOwn readGiven]

end Duration

/-- An environment has the last number given for a name, or what the component has for it, or the
fallback value of the catalog, as far as the bounds of the catalog allow. It is there if and only if
the features can be counted in doubles. -/
theorem environment_precedence {catalog : Catalog} {parameters : List Parameter} {c : Component}
    (sound : Duration.Sound catalog parameters c) :
    ((∃ values, Duration.environment catalog parameters c = .ok values) ↔ c.CountsFeatures) ∧
    ∀ values, Duration.environment catalog parameters c = .ok values →
      (∀ name, values.has name = true ↔
        name ∈ Duration.ownNames ∨ (∃ v ∈ catalog, v.name = name ∧ v.fallback.isSome = true) ∨
          ∃ p ∈ parameters, p.Binds name) ∧
      (∀ name y, values.get? name = some y ↔
        ∃ x, Duration.Raw catalog parameters c name x ∧ Duration.Clamped catalog name x y) ∧
      (∀ v ∈ catalog, ∀ y, values.get? v.name = some y → v.Bounds y) ∧
      (∀ type name, Feature.countName? type = some name →
        Duration.lastGiven parameters name = none →
          ∃ x y, (Numeral.whole (Feature.countOf type c.features)).toFloat = .ok x ∧
            Duration.Clamped catalog name x y ∧ values.get? name = some y) ∧
      Duration.environment catalog (parameters.filter fun p => p.number?.isSome) c = .ok values := by
  have exists_iff := Duration.environment_ok_iff sound
  refine ⟨exists_iff, fun values taken => ?_⟩
  have each {name : String} {y : Float} : values.get? name = some y ↔
      ∃ x, Duration.Raw catalog parameters c name x ∧ Duration.Clamped catalog name x y :=
    Duration.environment_get? sound.distinct taken
  refine ⟨fun name => ?_, fun _ _ => each, ?_, ?_, ?_⟩
  · rw [Duration.environment_has taken, Duration.Supplied]
    exact or_left_comm
  · intro v member y bound
    obtain ⟨x, raw, clamped⟩ := each.mp bound
    exact clamped.bounds sound member (raw.number sound)
  · intro type name named none
    obtain ⟨x, double⟩ := (exists_iff.mp ⟨values, taken⟩).count type name named
    obtain ⟨y, clamped⟩ := Duration.exists_clamped sound.finite name x
    exact ⟨x, y, double, clamped, each.mpr ⟨x, .own none (.count named double), clamped⟩⟩
  · rw [Duration.environment_numeric catalog c sound.readable, taken]

/-! A shelf's side as it is, and with more holes than a double can count. -/

namespace Shelf

theorem side_valid : side.Valid := by
  have made : Component.make sideDraft = .ok side := Outcome.eq_value _
  have templateValid : template.Valid :=
    Template.valid_of_make (fun _ own => by cases own) (Outcome.eq_value _)
  have operationValid : operation.Valid := Operation.valid_of_make templateValid (Outcome.eq_value _)
  have holeValid : hole.Valid := Feature.valid_of_make (Outcome.eq_value _)
  refine Component.valid_of_make (Size.valid_of_make size_made) ?_ ?_ made
  · intro f member
    exact List.mem_singleton.mp member ▸ holeValid
  · intro p member
    exact List.mem_singleton.mp member ▸ operationValid

def manyHoles : Feature :=
  (Feature.make "hole-2" (.text "hole") (.int (10 ^ 308)) .null .null "" "").value (by decide +kernel)

theorem manyHoles_valid : manyHoles.Valid := Feature.valid_of_make (Outcome.eq_value _)

def perforated : Component := { side with features := [manyHoles, { manyHoles with id := "hole-3" }] }

theorem perforated_valid : perforated.Valid := by
  have renamed {f : Feature} (valid : f.Valid) (id : String) : { f with id }.Valid :=
    ⟨valid.type, valid.count, valid.size⟩
  have withFeatures {c : Component} (valid : c.Valid) {features : List Feature}
      (each : ∀ f ∈ features, f.Valid) : { c with features }.Valid := { valid with features := each }
  exact withFeatures side_valid (List.forall_mem_cons.mpr ⟨manyHoles_valid,
    List.forall_mem_singleton.mpr (renamed manyHoles_valid "hole-3")⟩)

def boundedLength : Variable :=
  (Variable.make "length" (.text "dimension") "mm" "" none none (some (.real 500))).value (by decide)

theorem boundedLength_made : boundedLength.Made := ⟨_, _, _, _, _, _, _, Outcome.eq_value _⟩

theorem boundedLength_finite : boundedLength.HasFinite where
  fallback := nofun
  least := nofun
  most n own := by
    obtain rfl : Numeral.real 500 = n := Option.some.inj own
    exact ⟨500, rfl, by decide +kernel⟩

def grainOf (value : Datum) : Parameter := ⟨"grain", value, .null, .null⟩

def grains : List Parameter := [grainOf (.int 2), grainOf (.int 3), grainOf (.text "fine")]

theorem grain_int {n : Int} (double : (Numeral.whole n).toFloat.isOk = true) :
    (grainOf (.int n)).value.finite? = .ok (some ((Numeral.whole n).toFloat.value double)) :=
  Datum.finite?_int (Outcome.eq_value double)

theorem grain_two : (Numeral.whole 2).toFloat.isOk = true := by decide +kernel

theorem grain_three : (Numeral.whole 3).toFloat.isOk = true := by decide +kernel

theorem grain_fine : (grainOf (.text "fine")).value.finite? = .ok none := by
  have unread : readFloat? (Text.trim "fine") = none := by decide +kernel
  exact congrArg (fun o => Except.ok (Option.filter Float.isFinite o)) unread

theorem grains_readable : ∀ p ∈ grains, ∃ o, p.value.finite? = .ok o :=
  List.forall_mem_cons.mpr ⟨⟨_, grain_int grain_two⟩, List.forall_mem_cons.mpr
    ⟨⟨_, grain_int grain_three⟩, List.forall_mem_singleton.mpr ⟨_, grain_fine⟩⟩⟩

theorem grains_last : Duration.lastGiven grains "grain" =
    some ((Numeral.whole 3).toFloat.value grain_three) := by
  have given : (grainOf (.int 3)).numberFor? "grain" = some _ :=
    Duration.numberFor?_eq_some.mpr ⟨rfl, by decide, grain_int grain_three⟩
  have word : (grainOf (.text "fine")).numberFor? "grain" = none :=
    (if_pos ⟨rfl, by decide⟩).trans (Parameter.number?_of_read grain_fine)
  rw [grains, Duration.lastGiven_cons, Duration.lastGiven_cons, Duration.lastGiven_cons, word, given]
  rfl

theorem grains_numeric : (grains.filter fun p => p.number?.isSome) =
    [grainOf (.int 2), grainOf (.int 3)] := by
  simp only [grains, List.filter, Parameter.number?_of_read (grain_int grain_two),
    Parameter.number?_of_read (grain_int grain_three), Parameter.number?_of_read grain_fine,
    Option.isSome_some, Option.isSome_none]

def fineGrain : Variable :=
  (Variable.make "grain" (.text "custom") "" "" (some (.whole 5)) (some (.whole (2 ^ 53 + 1)))
    none).value (by decide)

theorem fineGrain_made : fineGrain.Made := ⟨_, _, _, _, _, _, _, Outcome.eq_value _⟩

theorem fineGrain_finite : fineGrain.HasFinite where
  fallback n own := by
    obtain rfl : Numeral.whole 5 = n := Option.some.inj own
    exact Numeral.hasFinite_of_isOk (by decide +kernel)
  least n own := by
    obtain rfl : Numeral.whole (2 ^ 53 + 1) = n := Option.some.inj own
    exact Numeral.hasFinite_of_isOk (by decide +kernel)
  most := nofun

end Shelf

/-- A shelf's side is cut to the bound of its length, and its grain is the last number given for it. -/
theorem shelf_environment_precedence :
    ∃ values, Duration.environment [Shelf.boundedLength] Shelf.grains Shelf.side = .ok values ∧
      (∀ y, values.get? "length" = some y → y ≤ 500) ∧
      (∃ x, (Numeral.whole 3).toFloat = .ok x ∧ values.get? "grain" = some x) ∧
      Duration.environment [Shelf.boundedLength] [Shelf.grainOf (.int 2), Shelf.grainOf (.int 3)]
        Shelf.side = .ok values := by
  have sound : Duration.Sound [Shelf.boundedLength] Shelf.grains Shelf.side :=
    { valid := Shelf.side_valid
      area := by decide +kernel
      volume := by decide +kernel
      distinct := List.nodup_singleton _
      made := List.forall_mem_singleton.mpr Shelf.boundedLength_made
      finite := List.forall_mem_singleton.mpr Shelf.boundedLength_finite
      readable := Shelf.grains_readable }
  have returns : (Duration.environment [Shelf.boundedLength] Shelf.grains Shelf.side).isOk = true := by
    decide +kernel
  obtain ⟨-, each⟩ := environment_precedence sound
  obtain ⟨-, bound, within, -, numeric⟩ := each _ (Outcome.eq_value returns)
  have free : "grain" ∉ Catalog.names [Shelf.boundedLength] := by decide
  rw [Shelf.grains_numeric] at numeric
  exact ⟨_, Outcome.eq_value returns,
    fun y found => (within Shelf.boundedLength List.mem_cons_self y found).most (.real 500) rfl 500 rfl,
    ⟨_, Outcome.eq_value Shelf.grain_three, (bound _ _).mpr
      ⟨_, .given Shelf.grains_last, .free free _⟩⟩, numeric⟩

/-- Features that are valid one by one may be too many for an environment, and a value may stay below a
bound that no double holds. -/
theorem environment_lacks_or_falls_short :
    (¬ ∀ catalog parameters c, Duration.Sound catalog parameters c →
      ∃ values, Duration.environment catalog parameters c = .ok values) ∧
    ¬ ∀ catalog parameters c values, Duration.Sound catalog parameters c →
      Duration.environment catalog parameters c = .ok values →
        ∀ v ∈ catalog, ∀ n ∈ v.least, ∀ y, values.get? v.name = some y →
          (Numeral.real y).below n = false := by
  constructor
  · intro always
    have sound : Duration.Sound [] [] Shelf.perforated :=
      { valid := Shelf.perforated_valid
        area := by decide +kernel
        volume := by decide +kernel
        distinct := List.nodup_nil
        made := nofun
        finite := nofun
        readable := nofun }
    obtain ⟨values, taken⟩ := always [] [] Shelf.perforated sound
    have fails : (Duration.environment [] [] Shelf.perforated).isOk = false := by decide +kernel
    rw [taken] at fails
    cases fails
  · intro bounded
    have sound : Duration.Sound [Shelf.fineGrain] [] Shelf.side :=
      { valid := Shelf.side_valid
        area := by decide +kernel
        volume := by decide +kernel
        distinct := List.nodup_singleton _
        made := List.forall_mem_singleton.mpr Shelf.fineGrain_made
        finite := List.forall_mem_singleton.mpr Shelf.fineGrain_finite
        readable := nofun }
    have returns : (Duration.environment [Shelf.fineGrain] [] Shelf.side).isOk = true := by
      decide +kernel
    have short : ((Outcome.value _ returns).get? "grain").any
        (fun y => (Numeral.real y).below (.whole (2 ^ 53 + 1))) = true := by
      decide +revert +kernel
    obtain ⟨y, found, below⟩ := (Option.any_eq_true _ _).mp short
    have notBelow := bounded _ _ _ _ sound (Outcome.eq_value returns) Shelf.fineGrain
      List.mem_cons_self (.whole (2 ^ 53 + 1)) rfl y found
    exact Bool.false_ne_true (notBelow.symm.trans below)

end Joinery
