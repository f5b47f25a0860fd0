import Joinery.Proofs.Rates.Accepted
import Joinery.Proofs.Record.Fault
import Joinery.Proofs.Text.Key

/-!
Overriding rates. The names of a table are keys already, so that a table is left as it is when it is read
once more; of the entries that a table is overridden with the last under a key counts, also when they
come in two calls.
-/
namespace Joinery

namespace Rates

/-- A table as constructors leave it: measures under different names, each the key of itself. -/
structure Normal (table : Keyed Float) : Prop where
  distinct : table.names.Nodup
  keys : ∀ entry ∈ table, Text.key entry.1 = entry.1
  named : ∀ entry ∈ table, entry.1 ≠ ""
  measures : ∀ entry ∈ table, Measure entry.2

/-- An entry that no rate is read from: its name has no key, or it gives no number that is finite and
not below zero. -/
def Refused (entry : String × Datum) : Prop :=
  Text.key entry.1 = "" ∨ ¬ ∃ x, entry.2.finite? = .ok (some x) ∧ Measure x

def accepts (entry : String × Datum) : Bool :=
  Text.key entry.1 != "" &&
    match entry.2.finite? with
    | .ok (some x) => !decide (x < 0)
    | _ => false

theorem accepts_iff {entry : String × Datum} : accepts entry = true ↔ ¬ Refused entry := by
  rw [accepts, Bool.and_eq_true, bne_iff_ne, Refused, not_or, not_not]
  refine and_congr_right fun _ => ?_
  constructor
  · intro counts
    split at counts
    · rename_i x read
      exact ⟨x, read, measure_of_not_lt (Datum.finite_of_read read) (by simpa using counts)⟩
    · cases counts
  · rintro ⟨x, read, measure⟩
    simp [read, measure.not_lt]

instance : DecidablePred Refused := fun _ => decidable_of_iff _ (not_congr accepts_iff |>.trans not_not)

theorem readEntry_iff (kind : String) (entry : String × Datum) :
    (∃ rate, readEntry kind entry.1 entry.2 = .ok rate) ↔ ¬ Refused entry := by
  constructor
  · rintro ⟨⟨key, x⟩, read⟩
    obtain ⟨rfl, named, given, measure⟩ := readEntry_ok.mp read
    exact not_or.mpr ⟨named, not_not.mpr ⟨x, given, measure⟩⟩
  · intro accepted
    obtain ⟨named, given⟩ := not_or.mp accepted
    obtain ⟨x, read, measure⟩ := not_not.mp given
    exact ⟨_, readEntry_ok.mpr ⟨rfl, named, read, measure⟩⟩

/-- A value that is looked at for a rate: it has a double if it is a number, and can be shown. -/
structure Plain (d : Datum) : Prop where
  small : ¬ d.Giant
  shallow : ¬ d.TooDeep

theorem plain_real (x : Float) : Plain (.real x) := ⟨id, Datum.not_tooDeep_number _⟩

theorem plain_text (s : String) : Plain (.text s) := ⟨id, Datum.not_tooDeep_text s⟩

theorem kind_of_badRate (kind name : String) {d : Datum} (shallow : ¬ d.TooDeep) :
    (Fault.badRate kind name d).raised.kind = .value := by
  rcases (Fault.badRate kind name d).raised_cases with same | same | ⟨-, e, shown, deep⟩
  · rw [same]
    rfl
  · rw [same]
    rfl
  · exact absurd (List.mem_singleton.mp shown ▸ deep) shallow

theorem readEntry_fails (kind name : String) {d : Datum} (plain : Plain d) :
    (readEntry kind name d).FailsAs fun f => f.kind = .value := by
  have bad : (Fault.badRate kind name d).raised.kind = .value := kind_of_badRate kind name plain.shallow
  unfold readEntry
  dsimp only
  split
  · exact .error rfl
  · obtain ⟨found, read⟩ := Datum.finite?_of_small plain.small
    rw [read, ok_bind]
    cases found with
    | none => exact .error bad
    | some x =>
      dsimp only
      split
      · exact .error bad
      · exact .ok _

def readEntries (kind : String) (entries : Keyed Datum) : Outcome (Keyed Float) :=
  entries.mapM fun entry => readEntry kind entry.1 entry.2

theorem readTable_eq (kind : String) (entries : Keyed Datum) :
    readTable kind entries = (readEntries kind entries).map Keyed.ofPairs := rfl

theorem readEntries_nil (kind : String) : readEntries kind [] = .ok [] := rfl

theorem readEntries_append (kind : String) (first second : Keyed Datum) :
    readEntries kind (first ++ second) = (do
      let before ← readEntries kind first
      let after ← readEntries kind second
      return before ++ after) := List.mapM_append

theorem readEntries_append_ok {kind : String} {first second : Keyed Datum} {rates : Keyed Float} :
    readEntries kind (first ++ second) = .ok rates ↔
      ∃ before after, readEntries kind first = .ok before ∧ readEntries kind second = .ok after ∧
        rates = before ++ after := by
  rw [readEntries_append, bind_ok]
  constructor
  · rintro ⟨before, readFirst, rest⟩
    obtain ⟨after, readSecond, same⟩ := bind_ok.mp rest
    exact ⟨before, after, readFirst, readSecond, (Except.ok.inj same).symm⟩
  · rintro ⟨before, after, readFirst, readSecond, rfl⟩
    exact ⟨before, readFirst, bind_ok.mpr ⟨after, readSecond, rfl⟩⟩

theorem readEntries_iff (kind : String) (entries : Keyed Datum) :
    (∃ rates, readEntries kind entries = .ok rates) ↔ ∀ entry ∈ entries, ¬ Refused entry := by
  constructor
  · rintro ⟨rates, read⟩ entry member
    exact (readEntry_iff kind entry).mp (mapM_member read entry member)
  · intro accepted
    exact mapM_ok fun entry member => (readEntry_iff kind entry).mpr (accepted entry member)

theorem readEntries_fails (kind : String) {entries : Keyed Datum}
    (plain : ∀ entry ∈ entries, Plain entry.2) :
    (readEntries kind entries).FailsAs fun f => f.kind = .value :=
  .mapM fun entry member => readEntry_fails kind entry.1 (plain entry member)

theorem normal_of_readEntries {kind : String} {entries : Keyed Datum} {rates : Keyed Float}
    (read : readEntries kind entries = .ok rates) {entry : String × Float} (member : entry ∈ rates) :
    Text.key entry.1 = entry.1 ∧ entry.1 ≠ "" ∧ Measure entry.2 := by
  obtain ⟨⟨name, d⟩, -, found⟩ := mapM_result read entry member
  obtain ⟨own, named, -, measure⟩ := readEntry_ok.mp found
  exact ⟨own ▸ Text.key_key name, named, measure⟩

namespace Normal

theorem setAll {table : Keyed Float} (normal : Normal table) {kind : String} {entries : Keyed Datum}
    {rates : Keyed Float} (read : readEntries kind entries = .ok rates) :
    Normal (table.setAll rates) := by
  have each : ∀ entry ∈ table.setAll rates,
      Text.key entry.1 = entry.1 ∧ entry.1 ≠ "" ∧ Measure entry.2 := by
    intro entry member
    rcases Keyed.mem_of_mem_setAll member with new | own
    · exact normal_of_readEntries read new
    · exact ⟨normal.keys entry own, normal.named entry own, normal.measures entry own⟩
  exact ⟨Keyed.nodup_setAll normal.distinct rates, fun entry member => (each entry member).1,
    fun entry member => (each entry member).2.1, fun entry member => (each entry member).2.2⟩

theorem of_readTable {kind : String} {entries : Keyed Datum} {table : Keyed Float}
    (read : readTable kind entries = .ok table) : Normal table := by
  obtain ⟨rates, each, rfl⟩ := map_ok.mp read
  have empty : Normal ([] : Keyed Float) := ⟨List.nodup_nil, nofun, nofun, nofun⟩
  exact empty.setAll each

theorem readEntries_loose {table : Keyed Float} (normal : Normal table) (kind : String) :
    readEntries kind (loose table) = .ok table := by
  apply mapM_map_ok
  intro entry member
  have measure := normal.measures entry member
  exact readEntry_ok.mpr ⟨(normal.keys entry member).symm, normal.named entry member,
    Datum.finite?_real measure.finite, measure⟩

theorem readTable_loose {table : Keyed Float} (normal : Normal table) (kind : String) :
    readTable kind (loose table) = .ok table := by
  rw [readTable_eq, normal.readEntries_loose]
  exact congrArg Except.ok (Keyed.ofPairs_of_nodup normal.distinct)

end Normal

def lastNamed? (key : String) (entries : Keyed Datum) : Option (String × Datum) :=
  entries.reverse.find? fun entry => Text.key entry.1 = key

theorem get?_of_read {kind key : String} {entries : Keyed Datum} {rates : Keyed Float}
    (read : List.Forall₂ (fun entry rate => readEntry kind entry.1 entry.2 = .ok rate) entries rates) :
    Option.Rel (fun entry x => entry.2.finite? = .ok (some x))
      (entries.find? fun entry => Text.key entry.1 = key) (rates.get? key) := by
  induction read with
  | nil => exact .none
  | @cons entry rate rest others first _ ih =>
    obtain ⟨name, x⟩ := rate
    obtain ⟨rfl, -, finite, -⟩ := readEntry_ok.mp first
    rw [Keyed.get?_cons, List.find?_cons]
    by_cases here : Text.key entry.1 = key
    · simpa [here] using finite
    · simpa [here, Ne.symm here] using ih

theorem get?_of_readEntries {kind : String} {entries : Keyed Datum} {rates : Keyed Float}
    (read : readEntries kind entries = .ok rates) (key : String) :
    Option.Rel (fun entry x => entry.2.finite? = .ok (some x)) (lastNamed? key entries)
      (Keyed.get? rates.reverse key) :=
  get?_of_read (List.forall₂_reverse_iff.mpr (mapM_ok_iff.mp read))

/-- An entry decides a rate, and without one the rate is what it was. -/
inductive DecidedBy : Option (String × Datum) → Outcome Float → Outcome Float → Prop where
  | entry {entry : String × Datum} {x : Float} (before : Outcome Float) :
      entry.2.finite? = .ok (some x) → DecidedBy (some entry) (.ok x) before
  | none (rate : Outcome Float) : DecidedBy none rate rate

theorem decidedBy_some {entry : String × Datum} {now before : Outcome Float} :
    DecidedBy (some entry) now before ↔ ∃ x, entry.2.finite? = .ok (some x) ∧ now = .ok x := by
  constructor
  · rintro (⟨_, finite⟩ | _)
    exact ⟨_, finite, rfl⟩
  · rintro ⟨x, finite, rfl⟩
    exact .entry before finite

/-- What is quoted now, and what was before some entries decided: the last entry under the key of a name
does, and a name whose text cannot be taken has no key. -/
structure Requoted (entries : Keyed Datum) (now before : Datum → Outcome Float) : Prop where
  named : ∀ (name : Datum) s, name.givenText = .ok s →
    DecidedBy (lastNamed? (Text.key s) entries) (now name) (before name)
  unshown : ∀ (name : Datum) f, name.givenText = .error f → now name = before name

theorem lookup_setAll {kind : String} {entries : Keyed Datum} {rates : Keyed Float}
    (read : readEntries kind entries = .ok rates) (table : Keyed Float) (fallback : Numeral) :
    Requoted entries (fun name => lookup (table.setAll rates) name fallback)
      (fun name => lookup table name fallback) where
  named name s shown := by
    have decided := get?_of_readEntries read (Text.key s)
    simp only [lookup, shown, ok_bind, Keyed.get?_setAll]
    generalize lastNamed? (Text.key s) entries = last at decided ⊢
    generalize Keyed.get? rates.reverse (Text.key s) = found at decided ⊢
    cases decided with
    | some finite => exact .entry _ finite
    | none => exact .none _
  unshown name f fails := by rw [lookup_fails _ _ fails, lookup_fails _ _ fails]

theorem normal_of_entries {table : Keyed Float} (distinct : table.names.Nodup)
    (names : ∀ entry ∈ table, entry.1 ≠ "" ∧
      (entry.1.toList.all fun c => !Text.Casing.foldMapping.moved.testBit c.toNat) = true ∧
      ['_'].intercalate (Text.words Text.isKeyChar entry.1.toList) = entry.1.toList)
    (rates : ∀ entry ∈ table, entry.2.isFinite = true ∧ ¬ entry.2 < 0) : Normal table where
  distinct := distinct
  keys entry member := Text.key_eq_self (names entry member).2.1 (names entry member).2.2
  named entry member := (names entry member).1
  measures entry member := measure_of_not_lt (rates entry member).1 (rates entry member).2

theorem materialPrices_normal : Normal materialPrices :=
  normal_of_entries (by decide +kernel) (by decide +kernel) (by decide +kernel)

theorem equipmentRates_normal : Normal equipmentRates :=
  normal_of_entries (by decide +kernel) (by decide +kernel) (by decide +kernel)

end Rates

namespace RateTable
open Rates

structure Normal (t : RateTable) : Prop where
  materials : Rates.Normal t.materials
  equipment : Rates.Normal t.equipment

theorem normal_of_make {materials equipment : Keyed Datum}
    {materialFallback equipmentFallback : Numeral} {t : RateTable}
    (made : make materials equipment materialFallback equipmentFallback = .ok t) : t.Normal := by
  obtain ⟨prices, rates, readPrices, readRates, rfl⟩ := parts_of_make made
  exact ⟨.of_readTable readPrices, .of_readTable readRates⟩

theorem normal_of_override {t changed : RateTable} {materials equipment : Keyed Datum}
    (done : t.override materials equipment = .ok changed) : changed.Normal := by
  obtain ⟨_, _, made⟩ := made_of_override done
  exact normal_of_make made

theorem Built.normal {t : RateTable} (built : t.Built) : t.Normal := by
  cases built with
  | standard => exact ⟨materialPrices_normal, equipmentRates_normal⟩
  | made made => exact normal_of_make made
  | overridden _ overridden => exact normal_of_override overridden

theorem Normal.make_loose {t : RateTable} (normal : t.Normal) :
    make (loose t.materials) (loose t.equipment) t.materialFallback t.equipmentFallback = .ok t := by
  rw [make, readMaterials, normal.materials.readTable_loose, ok_bind, readEquipment,
    normal.equipment.readTable_loose, ok_bind]
  rfl

theorem Normal.override_eq {t : RateTable} (normal : t.Normal) (materials equipment : Keyed Datum) :
    t.override materials equipment = (do
      let prices ← readEntries "material" materials
      let rates ← readEntries "equipment" equipment
      return { t with
        materials := t.materials.setAll prices
        equipment := t.equipment.setAll rates }) := by
  rw [override, readMaterials, readEquipment, readTable_eq, readTable_eq]
  cases readPrices : readEntries "material" materials with
  | error f => rfl
  | ok prices =>
    cases readRates : readEntries "equipment" equipment with
    | error f => rfl
    | ok rates =>
      have merged : Normal { t with
          materials := t.materials.setAll prices
          equipment := t.equipment.setAll rates } :=
        ⟨normal.materials.setAll readPrices, normal.equipment.setAll readRates⟩
      have made := merged.make_loose
      simp only [Except.map, ok_bind, Keyed.setAll_ofPairs]
      exact made

theorem Normal.override_ok {t : RateTable} (normal : t.Normal) {materials equipment : Keyed Datum}
    {changed : RateTable} : t.override materials equipment = .ok changed ↔
      ∃ prices rates, readEntries "material" materials = .ok prices ∧
        readEntries "equipment" equipment = .ok rates ∧
        changed = { t with
          materials := t.materials.setAll prices
          equipment := t.equipment.setAll rates } := by
  rw [normal.override_eq, bind_ok]
  constructor
  · rintro ⟨prices, readPrices, rest⟩
    obtain ⟨rates, readRates, same⟩ := bind_ok.mp rest
    exact ⟨prices, rates, readPrices, readRates, (Except.ok.inj same).symm⟩
  · rintro ⟨prices, rates, readPrices, readRates, rfl⟩
    exact ⟨prices, readPrices, bind_ok.mpr ⟨rates, readRates, rfl⟩⟩

theorem Normal.override_iff {t : RateTable} (normal : t.Normal) (materials equipment : Keyed Datum) :
    (∃ changed, t.override materials equipment = .ok changed) ↔
      ∀ entry ∈ materials ++ equipment, ¬ Refused entry := by
  rw [List.forall_mem_append, ← readEntries_iff "material", ← readEntries_iff "equipment"]
  constructor
  · rintro ⟨changed, done⟩
    obtain ⟨prices, rates, readPrices, readRates, -⟩ := normal.override_ok.mp done
    exact ⟨⟨prices, readPrices⟩, rates, readRates⟩
  · rintro ⟨⟨prices, readPrices⟩, rates, readRates⟩
    exact ⟨_, normal.override_ok.mpr ⟨prices, rates, readPrices, readRates, rfl⟩⟩

theorem Normal.override_error {t : RateTable} (normal : t.Normal) (materials equipment : Keyed Datum) :
    (∃ f, t.override materials equipment = .error f) ↔
      ∃ entry ∈ materials ++ equipment, Refused entry := by
  have outcome := normal.override_iff materials equipment
  cases done : t.override materials equipment with
  | ok changed =>
    have accepted := outcome.mp ⟨changed, done⟩
    simpa using accepted
  | error f =>
    have refused := outcome.not.mp (by simp [done])
    simpa using refused

/-- Overriding with values that are looked at for rates fails in no other way than as a wrong value. -/
theorem Normal.override_fails {t : RateTable} (normal : t.Normal) {materials equipment : Keyed Datum}
    (plain : ∀ entry ∈ materials ++ equipment, Plain entry.2) :
    (t.override materials equipment).FailsAs fun f => f.kind = .value := by
  obtain ⟨plainPrices, plainRates⟩ := List.forall_mem_append.mp plain
  rw [normal.override_eq]
  exact .bind (readEntries_fails _ plainPrices) fun _ _ =>
    .bind (readEntries_fails _ plainRates) fun _ _ => .ok _

/-- What a table comes to when it is overridden: the last entry under the key of a name decides, the
names are keys, and what was set stays as it is when the table is read once more. -/
structure Overridden (t : RateTable) (materials equipment : Keyed Datum) (changed : RateTable) :
    Prop where
  materialPrice : Requoted materials changed.materialPrice t.materialPrice
  equipmentRate : Requoted equipment changed.equipmentRate t.equipmentRate
  keys : ∀ key ∈ changed.materials.names ++ changed.equipment.names, Text.key key = key
  merged : ∃ prices rates, readMaterials materials = .ok prices ∧ readEquipment equipment = .ok rates ∧
    changed = { t with
      materials := t.materials.setAll prices
      equipment := t.equipment.setAll rates }
  settled : make (loose changed.materials) (loose changed.equipment) changed.materialFallback
    changed.equipmentFallback = .ok changed

theorem lastNamed?_empty {entries : Keyed Datum} (accepted : ∀ entry ∈ entries, ¬ Refused entry) :
    lastNamed? "" entries = none := by
  refine List.find?_eq_none.mpr fun entry member => ?_
  have named := (not_or.mp (accepted entry (List.mem_reverse.mp member))).1
  simpa using named

theorem Normal.keys {t : RateTable} (normal : t.Normal) :
    ∀ key ∈ t.materials.names ++ t.equipment.names, Text.key key = key := by
  intro key member
  rcases List.mem_append.mp member with material | equipment
  · obtain ⟨entry, own, rfl⟩ := List.mem_map.mp material
    exact normal.materials.keys entry own
  · obtain ⟨entry, own, rfl⟩ := List.mem_map.mp equipment
    exact normal.equipment.keys entry own

theorem Normal.overridden {t changed : RateTable} (normal : t.Normal) {materials equipment : Keyed Datum}
    (done : t.override materials equipment = .ok changed) : t.Overridden materials equipment changed := by
  obtain ⟨prices, rates, readPrices, readRates, rfl⟩ := normal.override_ok.mp done
  have accepted := (readEntries_iff "equipment" equipment).mp ⟨rates, readRates⟩
  have merged := normal_of_override done
  have rated := lookup_setAll readRates t.equipment t.equipmentFallback
  refine ⟨lookup_setAll readPrices _ _, ⟨fun name s shown => ?_, fun name f unshown => ?_⟩, merged.keys, ?_,
    merged.make_loose⟩
  · unfold equipmentRate
    by_cases given : name.isGiven = true
    · simpa [given] using rated.named name s shown
    · obtain rfl : s = "" := by simpa [Datum.givenText, given, eq_comm] using shown
      have unnamed : Text.key "" = "" := by decide
      rw [unnamed, lastNamed?_empty accepted]
      simpa [given] using .none t.equipmentFallback.toFloat
  · unfold equipmentRate
    rw [rated.unshown name f unshown]
  · refine ⟨_, _, map_ok.mpr ⟨prices, readPrices, rfl⟩, map_ok.mpr ⟨rates, readRates, rfl⟩, ?_⟩
    rw [Keyed.setAll_ofPairs, Keyed.setAll_ofPairs]

theorem Normal.override_override {t : RateTable} (normal : t.Normal)
    (materials laterMaterials equipment laterEquipment : Keyed Datum) (changed : RateTable) :
    (t.override materials equipment >>= fun s => s.override laterMaterials laterEquipment) =
        .ok changed ↔
      t.override (materials ++ laterMaterials) (equipment ++ laterEquipment) = .ok changed := by
  rw [bind_ok, normal.override_ok]
  constructor
  · rintro ⟨s, first, second⟩
    obtain ⟨laterPrices, laterRates, readLaterPrices, readLaterRates, rfl⟩ :=
      (normal_of_override first).override_ok.mp second
    obtain ⟨prices, rates, readPrices, readRates, rfl⟩ := normal.override_ok.mp first
    refine ⟨prices ++ laterPrices, rates ++ laterRates, ?_, ?_, ?_⟩
    · exact readEntries_append_ok.mpr ⟨prices, laterPrices, readPrices, readLaterPrices, rfl⟩
    · exact readEntries_append_ok.mpr ⟨rates, laterRates, readRates, readLaterRates, rfl⟩
    · rw [Keyed.setAll_append, Keyed.setAll_append]
  · rintro ⟨allPrices, allRates, readAllPrices, readAllRates, rfl⟩
    obtain ⟨prices, laterPrices, readPrices, readLaterPrices, rfl⟩ :=
      readEntries_append_ok.mp readAllPrices
    obtain ⟨rates, laterRates, readRates, readLaterRates, rfl⟩ := readEntries_append_ok.mp readAllRates
    have first := normal.override_ok.mpr ⟨prices, rates, readPrices, readRates, rfl⟩
    refine ⟨_, first, (normal_of_override first).override_ok.mpr ?_⟩
    refine ⟨laterPrices, laterRates, readLaterPrices, readLaterRates, ?_⟩
    rw [Keyed.setAll_append, Keyed.setAll_append]

theorem Normal.override_materials {t : RateTable} (normal : t.Normal)
    (materials laterMaterials equipment : Keyed Datum) :
    (t.override materials [] >>= fun s => s.override laterMaterials equipment) =
      t.override (materials ++ laterMaterials) equipment := by
  rw [normal.override_eq (materials ++ laterMaterials), readEntries_append]
  cases read : readEntries "material" materials with
  | error f => rw [normal.override_eq, read, error_bind, error_bind, error_bind, error_bind]
  | ok prices =>
    have first := normal.override_ok.mpr ⟨prices, [], read, readEntries_nil _, rfl⟩
    rw [first, ok_bind, (normal_of_override first).override_eq]
    cases readLater : readEntries "material" laterMaterials with
    | error f => rfl
    | ok later =>
      simp only [ok_bind, pure, Except.pure, Keyed.setAll_append]
      rfl

theorem Normal.override_equipment {t : RateTable} (normal : t.Normal)
    (materials equipment laterEquipment : Keyed Datum) :
    (t.override materials equipment >>= fun s => s.override [] laterEquipment) =
      t.override materials (equipment ++ laterEquipment) := by
  rw [normal.override_eq materials (equipment ++ laterEquipment), readEntries_append]
  cases readPrices : readEntries "material" materials with
  | error f => rw [normal.override_eq, readPrices, error_bind, error_bind, error_bind]
  | ok prices =>
    cases read : readEntries "equipment" equipment with
    | error f =>
      rw [normal.override_eq, readPrices, ok_bind, read]
      rfl
    | ok rates =>
      have first := normal.override_ok.mpr ⟨prices, rates, readPrices, read, rfl⟩
      rw [first, ok_bind, (normal_of_override first).override_eq]
      cases readLater : readEntries "equipment" laterEquipment with
      | error f => rfl
      | ok later =>
        simp only [ok_bind, pure, Except.pure, Keyed.setAll_append]
        rfl

end RateTable

/-- Overriding a table of rates: what is refused, what it comes to otherwise, and how two calls combine.
What is refused is a wrong value, but for a number too large or a value too deep to look at. -/
theorem overriding_rates {t : RateTable} (built : t.Built) :
    (∀ materials equipment : Keyed Datum,
      ((∃ f, t.override materials equipment = .error f) ↔
        ∃ entry ∈ materials ++ equipment, Rates.Refused entry) ∧
      ((∀ entry ∈ materials ++ equipment, Rates.Plain entry.2) →
        ∀ f, t.override materials equipment = .error f → f.kind = .value) ∧
      ∀ changed, t.override materials equipment = .ok changed →
        t.Overridden materials equipment changed) ∧
    (∀ (materials laterMaterials equipment laterEquipment : Keyed Datum) (changed : RateTable),
      (t.override materials equipment >>= fun s => s.override laterMaterials laterEquipment) =
          .ok changed ↔
        t.override (materials ++ laterMaterials) (equipment ++ laterEquipment) = .ok changed) ∧
    (∀ materials laterMaterials equipment : Keyed Datum,
      (t.override materials [] >>= fun s => s.override laterMaterials equipment) =
        t.override (materials ++ laterMaterials) equipment) ∧
    ∀ materials equipment laterEquipment : Keyed Datum,
      (t.override materials equipment >>= fun s => s.override [] laterEquipment) =
        t.override materials (equipment ++ laterEquipment) := by
  have normal := built.normal
  refine ⟨?_, normal.override_override, normal.override_materials, normal.override_equipment⟩
  intro materials equipment
  exact ⟨normal.override_error materials equipment, normal.override_fails, fun _ => normal.overridden⟩

namespace Shelf

def walnut : Keyed Datum := [("Walnut!", .real 95), ("  WALNUT", .text "97.5")]

def cutter : Keyed Datum := [("CNC cutter", .real 130)]

def noRate : Keyed Datum := [("oak", .text "n/a")]

end Shelf

theorem shelf_rates_overridden :
    ∃ changed, RateTable.standard.override Shelf.walnut Shelf.cutter = .ok changed ∧
      RateTable.standard.Overridden Shelf.walnut Shelf.cutter changed ∧
      (∃ x, (Datum.text "97.5").finite? = .ok (some x) ∧
        changed.materialPrice (.text "walnut") = .ok x) ∧
      (RateTable.standard.override [("Walnut!", .real 95)] [] >>= fun s =>
        s.override [("  WALNUT", .text "97.5")] Shelf.cutter) = .ok changed ∧
      ∃ f, RateTable.standard.override Shelf.noRate Shelf.cutter = .error f ∧ f.kind = .value := by
  obtain ⟨outcomes, -, materials, -⟩ := overriding_rates .standard
  obtain ⟨fails, -, overridden⟩ := outcomes Shelf.walnut Shelf.cutter
  obtain ⟨refuses, wrong, -⟩ := outcomes Shelf.noRate Shelf.cutter
  cases done : RateTable.standard.override Shelf.walnut Shelf.cutter with
  | error f => exact absurd (fails.mp ⟨f, done⟩) (by decide +kernel)
  | ok changed =>
  have last : Rates.lastNamed? (Text.key "walnut") Shelf.walnut = some ("  WALNUT", .text "97.5") := by
    have key : Text.key "  WALNUT" = Text.key "walnut" := by decide +kernel
    simp [Rates.lastNamed?, Shelf.walnut, key]
  have decided := (overridden changed done).materialPrice.named (.text "walnut") "walnut" rfl
  rw [last, Rates.decidedBy_some] at decided
  have later := (materials [("Walnut!", .real 95)] [("  WALNUT", .text "97.5")] Shelf.cutter).trans done
  obtain ⟨f, refused⟩ := refuses.mpr ⟨("oak", .text "n/a"), List.mem_cons_self, by decide +kernel⟩
  have plain : ∀ entry ∈ Shelf.noRate ++ Shelf.cutter, Rates.Plain entry.2 := by
    simp [Shelf.noRate, Shelf.cutter, Rates.plain_real, Rates.plain_text]
  exact ⟨changed, rfl, overridden changed done, decided, later, f, refused, wrong plain f refused⟩

end Joinery
