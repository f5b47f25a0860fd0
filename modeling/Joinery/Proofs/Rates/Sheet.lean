import Joinery.Proofs.Rates.Override
import Joinery.Rates.Sheet

/-!
Sheets of rates over a table. Of the rows for one kind and one key the last counts, and rows that are
passed over leave no trace. A boundless rate passes the filter of the rows and is refused by the table,
so that it blocks all other rows unless a later row takes its place.
-/
namespace Joinery

namespace Rates
open Text

def SheetRow.entry? (kind : Kind) (r : SheetRow) : Option (String × Float) :=
  r.usable?.bind fun rate =>
    if rate.kind = kind ∧ key rate.name ≠ "" then some (key rate.name, rate.rate) else none

theorem SheetRow.entry?_eq_some {kind : Kind} {r : SheetRow} {k : String} {x : Float} :
    r.entry? kind = some (k, x) ↔ readKind? r.kind = some kind ∧ key r.name = k ∧ k ≠ "" ∧
      r.rate = some x ∧ x.isNaN = false ∧ ¬ x < 0 := by
  unfold entry? usable?
  cases r.rate with
  | none => simp
  | some y =>
    cases readKind? r.kind with
    | none => simp
    | some other =>
      have kept : (y.isNaN || decide (y < 0)) = false ↔ y.isNaN = false ∧ ¬ y < 0 := by simp
      simp only [Option.bind_eq_bind, Option.bind_some, Option.some.injEq]
      cases dropped : y.isNaN || decide (y < 0) with
      | true =>
        have out : ¬ (y.isNaN = false ∧ ¬ y < 0) := by
          intro within
          rw [kept.mpr within] at dropped
          cases dropped
        constructor
        · intro found
          cases found
        · rintro ⟨-, -, -, rfl, within⟩
          exact absurd within out
      | false =>
        obtain ⟨number, above⟩ := kept.mp dropped
        constructor
        · intro found
          obtain ⟨⟨own, named⟩, same⟩ := Option.ite_none_right_eq_some.mp found
          obtain ⟨rfl, rfl⟩ := Prod.mk.inj (Option.some.inj same)
          exact ⟨own, rfl, named, rfl, number, above⟩
        · rintro ⟨rfl, rfl, named, rfl, -⟩
          simp [named]

theorem sheetRates_eq (kind : Kind) (rows : List SheetRow) :
    sheetRates kind (rows.filterMap SheetRow.usable?) =
      Keyed.ofPairs (rows.filterMap (SheetRow.entry? kind)) := by
  have rowByRow : SheetRow.entry? kind = fun r => r.usable?.bind fun rate =>
      if rate.kind = kind then (if key rate.name = "" then none else some (key rate.name, rate.rate))
      else none := by
    funext r
    simp only [SheetRow.entry?, ite_and, ite_not]
  rw [sheetRates, List.filterMap_filter, List.filterMap_filterMap, rowByRow]
  simp only [decide_eq_true_eq]

def lastRate? (kind : Kind) (k : String) (rows : List SheetRow) : Option Float :=
  rows.reverse.findSome? fun r => (r.entry? kind).bind fun entry =>
    if entry.1 = k then some entry.2 else none

theorem get?_filterMap {α : Type} (f : α → Option (String × Float)) (xs : List α) (k : String) :
    Keyed.get? (xs.filterMap f) k =
      xs.findSome? fun a => (f a).bind fun entry => if entry.1 = k then some entry.2 else none := by
  induction xs with
  | nil => rfl
  | cons a rest ih =>
    cases found : f a with
    | none => simpa [List.filterMap_cons, List.findSome?_cons, found] using ih
    | some entry =>
      obtain ⟨name, x⟩ := entry
      rw [List.filterMap_cons_some found, Keyed.get?_cons, ih, List.findSome?_cons, found]
      by_cases same : name = k
      · simp [same]
      · simp [same, Ne.symm same]

theorem get?_rows (kind : Kind) (rows : List SheetRow) (k : String) :
    Keyed.get? (rows.filterMap (SheetRow.entry? kind)).reverse k = lastRate? kind k rows := by
  rw [← List.filterMap_reverse, get?_filterMap, lastRate?]

theorem get?_sheetRates (kind : Kind) (rows : List SheetRow) (k : String) :
    Keyed.get? (sheetRates kind (rows.filterMap SheetRow.usable?)) k = lastRate? kind k rows := by
  have nothing : Keyed.get? ([] : Keyed Float) k = none := rfl
  rw [sheetRates_eq, Keyed.ofPairs, Keyed.get?_setAll, get?_rows, nothing, Option.or_none]

theorem lastRate?_of_mem {kind : Kind} {rows : List SheetRow} {entry : String × Float}
    (member : entry ∈ sheetRates kind (rows.filterMap SheetRow.usable?)) :
    lastRate? kind entry.1 rows = some entry.2 := by
  have distinct : (sheetRates kind (rows.filterMap SheetRow.usable?)).names.Nodup :=
    Keyed.nodup_ofPairs _
  exact (get?_sheetRates kind rows entry.1).symm.trans (Keyed.get?_of_mem distinct member)

/-- A row of a known kind, with a key and a rate that is a number and not below zero: usable, but that
the rate may be boundless. -/
def SheetRow.Counts (r : SheetRow) : Prop :=
  ∃ kind x, readKind? r.kind = some kind ∧ key r.name ≠ "" ∧ r.rate = some x ∧
    x.isNaN = false ∧ ¬ x < 0

/-- The last row for some kind and some key has a boundless rate. -/
def Blocked (rows : List SheetRow) : Prop :=
  ∃ kind k x, lastRate? kind k rows = some x ∧ x.isFinite = false

theorem blocked_iff {rows : List SheetRow} : Blocked rows ↔
    ∃ entry ∈ sheetRates .material (rows.filterMap SheetRow.usable?) ++
      sheetRates .equipment (rows.filterMap SheetRow.usable?), entry.2.isFinite = false := by
  constructor
  · rintro ⟨kind, k, x, last, unbounded⟩
    have member := Keyed.mem_of_get? ((get?_sheetRates kind rows k).trans last)
    refine ⟨(k, x), ?_, unbounded⟩
    cases kind with
    | material => exact List.mem_append_left _ member
    | equipment => exact List.mem_append_right _ member
  · rintro ⟨entry, member, unbounded⟩
    rcases List.mem_append.mp member with material | equipment
    · exact ⟨.material, entry.1, entry.2, lastRate?_of_mem material, unbounded⟩
    · exact ⟨.equipment, entry.1, entry.2, lastRate?_of_mem equipment, unbounded⟩

instance : DecidablePred Blocked := fun _ => decidable_of_iff' _ blocked_iff

theorem row_of_lastRate {kind : Kind} {k : String} {rows : List SheetRow} {x : Float}
    (last : lastRate? kind k rows = some x) : ∃ r ∈ rows, r.entry? kind = some (k, x) := by
  rw [← get?_rows] at last
  obtain ⟨r, member, given⟩ := List.mem_filterMap.mp (List.mem_reverse.mp (Keyed.mem_of_get? last))
  exact ⟨r, member, given⟩

theorem normal_sheetRates {rows : List SheetRow} (kind : Kind)
    (finite : ∀ entry ∈ sheetRates kind (rows.filterMap SheetRow.usable?), entry.2.isFinite = true) :
    Normal (sheetRates kind (rows.filterMap SheetRow.usable?)) := by
  have each : ∀ entry ∈ sheetRates kind (rows.filterMap SheetRow.usable?),
      key entry.1 = entry.1 ∧ entry.1 ≠ "" ∧ Measure entry.2 := by
    intro entry member
    obtain ⟨r, -, given⟩ := row_of_lastRate (lastRate?_of_mem member)
    obtain ⟨-, own, named, -, -, above⟩ := SheetRow.entry?_eq_some.mp given
    exact ⟨own ▸ key_key r.name, named, measure_of_not_lt (finite entry member) above⟩
  exact ⟨Keyed.nodup_ofPairs _, fun entry member => (each entry member).1,
    fun entry member => (each entry member).2.1, fun entry member => (each entry member).2.2⟩

def withRows (base : RateTable) (rows : List SheetRow) : RateTable :=
  { base with
    materials := base.materials.setAll (rows.filterMap (SheetRow.entry? .material))
    equipment := base.equipment.setAll (rows.filterMap (SheetRow.entry? .equipment)) }

theorem ofRows_of_free {base : RateTable} (normal : base.Normal) {rows : List SheetRow}
    (free : ¬ Blocked rows) : ofRows base rows = .ok (withRows base rows) := by
  have finite := blocked_iff.not.mp free
  push Not at finite
  simp only [Bool.not_eq_false] at finite
  obtain ⟨materials, equipment⟩ := List.forall_mem_append.mp finite
  have readMaterials := (normal_sheetRates .material materials).readEntries_loose "material"
  have readEquipment := (normal_sheetRates .equipment equipment).readEntries_loose "equipment"
  refine normal.override_ok.mpr ⟨_, _, readMaterials, readEquipment, ?_⟩
  rw [sheetRates_eq, sheetRates_eq, Keyed.setAll_ofPairs, Keyed.setAll_ofPairs, withRows]

theorem loose_append (a b : Keyed Float) : loose (a ++ b) = loose a ++ loose b := List.map_append

theorem loose_plain {table : Keyed Float} : ∀ entry ∈ loose table, Plain entry.2 := by
  intro entry member
  obtain ⟨own, -, rfl⟩ := List.mem_map.mp member
  exact plain_real own.2

theorem refused_of_boundless {k : String} {x : Float} (unbounded : x.isFinite = false) :
    Refused (k, .real x) := by
  have read : (Datum.real x).finite? = .ok none := by
    change Except.ok (if x.isFinite then some x else none) = _
    rw [unbounded]
    rfl
  refine Or.inr ?_
  rintro ⟨y, found, -⟩
  rw [read] at found
  cases found

/-- A boundless rate is refused, and with it all other rows. -/
theorem ofRows_of_blocked {base : RateTable} (normal : base.Normal) {rows : List SheetRow}
    (blocked : Blocked rows) : ∃ f, ofRows base rows = .error f ∧ f.kind = .value := by
  obtain ⟨entry, member, unbounded⟩ := blocked_iff.mp blocked
  have refused : Refused (entry.1, .real entry.2) := refused_of_boundless unbounded
  have plain : ∀ entry ∈ loose (sheetRates .material (rows.filterMap SheetRow.usable?)) ++
      loose (sheetRates .equipment (rows.filterMap SheetRow.usable?)), Plain entry.2 := by
    rw [← loose_append]
    exact loose_plain
  have bad : ∃ entry ∈ loose (sheetRates .material (rows.filterMap SheetRow.usable?)) ++
      loose (sheetRates .equipment (rows.filterMap SheetRow.usable?)), Refused entry := by
    rw [← loose_append]
    exact ⟨_, List.mem_map_of_mem member, refused⟩
  obtain ⟨f, fails⟩ := (normal.override_error _ _).mpr bad
  exact ⟨f, fails, normal.override_fails plain f fails⟩

def quote (t : RateTable) : Kind → Datum → Outcome Float
  | .material => t.materialPrice
  | .equipment => t.equipmentRate

/-- What is quoted for a name that some rows may give a rate for: the last of them decides. -/
def quoteAfter (kind : Kind) (rows : List SheetRow) (name : Datum) (before : Outcome Float) : Outcome Float := do
  match lastRate? kind (key (← name.givenText)) rows with
  | some x => return x
  | none => before

theorem lookup_rows (kind : Kind) (rows : List SheetRow) (table : Keyed Float) (name : Datum)
    (fallback : Numeral) : lookup (table.setAll (rows.filterMap (SheetRow.entry? kind))) name fallback =
      quoteAfter kind rows name (lookup table name fallback) := by
  cases shown : name.givenText with
  | error f => simp only [lookup, quoteAfter, shown, error_bind]
  | ok s =>
    simp only [lookup, quoteAfter, shown, ok_bind, Keyed.get?_setAll, get?_rows]
    cases lastRate? kind (key s) rows <;> rfl

theorem lastRate?_empty (kind : Kind) (rows : List SheetRow) : lastRate? kind "" rows = none := by
  cases last : lastRate? kind "" rows with
  | none => rfl
  | some x =>
    obtain ⟨r, -, given⟩ := row_of_lastRate last
    exact absurd rfl (SheetRow.entry?_eq_some.mp given).2.2.1

theorem quote_withRows (base : RateTable) (rows : List SheetRow) (kind : Kind) (name : Datum) :
    quote (withRows base rows) kind name = quoteAfter kind rows name (quote base kind name) := by
  cases kind with
  | material => exact lookup_rows .material rows base.materials name base.materialFallback
  | equipment =>
    have quoted (t : RateTable) : quote t .equipment name =
        if name.isGiven then lookup t.equipment name t.equipmentFallback
        else t.equipmentFallback.toFloat := rfl
    rw [quoted, quoted]
    by_cases given : name.isGiven = true
    · rw [if_pos given, if_pos given]
      exact lookup_rows .equipment rows base.equipment name base.equipmentFallback
    · have unnamed : name.givenText = .ok "" := if_neg given
      have nothing : key "" = "" := by decide
      rw [if_neg given, if_neg given, quoteAfter, unnamed, ok_bind, nothing, lastRate?_empty]
      rfl

theorem SheetRow.entry?_of_not_counts {r : SheetRow} (passed : ¬ r.Counts) (kind : Kind) :
    r.entry? kind = none := by
  cases given : r.entry? kind with
  | none => rfl
  | some entry =>
    obtain ⟨own, same, named, rest⟩ := SheetRow.entry?_eq_some.mp given
    exact absurd ⟨kind, entry.2, own, same ▸ named, rest⟩ passed

theorem ofRows_passed (base : RateTable) (before after : List SheetRow) {r : SheetRow}
    (passed : ¬ r.Counts) : ofRows base (before ++ r :: after) = ofRows base (before ++ after) := by
  have same (kind : Kind) : (before ++ r :: after).filterMap (SheetRow.entry? kind) =
      (before ++ after).filterMap (SheetRow.entry? kind) := by
    rw [List.filterMap_append, List.filterMap_cons_none (SheetRow.entry?_of_not_counts passed kind),
      List.filterMap_append]
  simp only [ofRows, overlay, sheetRates_eq, same]

/-- Rows block each other only by a rate that has no bound. -/
theorem boundless_of_blocked {rows : List SheetRow} (blocked : Blocked rows) :
    ∃ r ∈ rows, r.Counts ∧ ∃ x ∈ r.rate, x.isFinite = false := by
  obtain ⟨kind, k, x, last, unbounded⟩ := blocked
  obtain ⟨r, member, given⟩ := row_of_lastRate last
  obtain ⟨own, rfl, named, rate, bounds⟩ := SheetRow.entry?_eq_some.mp given
  exact ⟨r, member, ⟨kind, x, own, named, rate, bounds⟩, x, rate, unbounded⟩

end Rates

/-- Rows of rates over a table, from a sheet with one column for each part of a row. The last row for a
kind and a key decides, rows that do not count leave no trace, and the sheet is refused if and only if a
row that decides has a boundless rate. -/
theorem sheets_of_rates {base : RateTable} (built : base.Built) (rows : List Rates.SheetRow) :
    Rates.ofContents (.ok base) ⟨rows, 1⟩ = Rates.ofRows base rows ∧
    ((∃ f, Rates.ofRows base rows = .error f ∧ f.kind = .value) ↔ Rates.Blocked rows) ∧
    (¬ Rates.Blocked rows → Rates.ofRows base rows = .ok (Rates.withRows base rows)) ∧
    (Rates.Blocked rows → ∃ r ∈ rows, r.Counts ∧ ∃ x ∈ r.rate, x.isFinite = false) ∧
    (∀ kind name, Rates.quote (Rates.withRows base rows) kind name =
      Rates.quoteAfter kind rows name (Rates.quote base kind name)) ∧
    ∀ before r after, rows = before ++ r :: after → ¬ r.Counts →
      Rates.ofRows base rows = Rates.ofRows base (before ++ after) := by
  refine ⟨rfl, ⟨?_, Rates.ofRows_of_blocked built.normal⟩, Rates.ofRows_of_free built.normal,
    Rates.boundless_of_blocked, Rates.quote_withRows base rows, ?_⟩
  · rintro ⟨f, fails, -⟩
    by_contra free
    rw [Rates.ofRows_of_free built.normal free] at fails
    cases fails
  · rintro before r after rfl passed
    exact Rates.ofRows_passed base before after passed

namespace Shelf

def boundless : List Rates.SheetRow := 
  [⟨"material", "oak", some Number.infinity⟩, ⟨"material", "walnut", some 95⟩]

def replaced : List Rates.SheetRow :=
  [⟨"material", "oak", some Number.infinity⟩, ⟨"Material", "walnut", some 95⟩, ⟨"tooling", "jig", some 10⟩,
    ⟨"material", "Oak!", some 80⟩]

end Shelf

theorem shelf_sheets :
    (∃ f, Rates.ofRows .standard Shelf.boundless = .error f ∧ f.kind = .value) ∧
    ∃ t, Rates.ofRows .standard Shelf.replaced = .ok t ∧
      Rates.lastRate? .material "oak" Shelf.replaced = some 80 ∧
      Rates.quote t .material (.text "OAK") = .ok 80 := by
  obtain ⟨-, blocks, -⟩ := sheets_of_rates .standard Shelf.boundless
  obtain ⟨-, -, loads, -, quotes, -⟩ := sheets_of_rates .standard Shelf.replaced
  have last : Rates.lastRate? .material "oak" Shelf.replaced = some 80 := by decide +kernel
  have key : Text.key "OAK" = "oak" := by decide +kernel
  refine ⟨blocks.mpr (by decide +kernel), _, loads (by decide +kernel), last, ?_⟩
  have text : (Datum.text "OAK").givenText = .ok "OAK" := rfl
  rw [quotes, Rates.quoteAfter, text, ok_bind, key, last]
  rfl

end Joinery
