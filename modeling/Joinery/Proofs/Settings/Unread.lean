import Joinery.Proofs.Record.Fault
import Joinery.Proofs.Settings.Merge

/-!
Settings that fail otherwise than as settings. Most of what can be wrong with a settings file is
reported as a fault of the settings. What is not is listed here, cause by cause, for the file itself,
for the parameters and for the rates, and each cause does come out as it is.
-/
namespace Joinery
open Outcome (FailsAs)

/-- A failure that no handler has turned into a fault of the settings. -/
def Outcome.LeaksAs {α : Type} (sort : Fault → Prop) (x : Outcome α) : Prop :=
  ∀ f, x = .error f ∧ f.kind ≠ .settings ↔ sort f

/-- A fault that a report of wrong values and wrong types lets through. -/
def Fault.Passes (f : Fault) : Prop := f.isOfValue = false ∧ f.kind ≠ .type

theorem Fault.Passes.not_reported {f : Fault} (passes : f.Passes) : ¬ f.Reported := by
  rintro (kind | kind)
  · simp [Passes, isOfValue, kind] at passes
  · exact passes.2 kind

theorem Fault.passes_tooLarge : Fault.integerTooLarge.Passes := ⟨rfl, nofun⟩

theorem Fault.passes_noSuchPart : Fault.noSuchPart.Passes := ⟨rfl, nofun⟩

/-- What a reader reports as a fault of the settings does not come out as it is. -/
theorem Outcome.within_error {α : Type} {x : Outcome α} {wrap : Fault → Fault} {f : Fault}
    (sets : ∀ g, (wrap g).raised.kind = .settings) (other : f.kind ≠ .settings) :
    x.within wrap = .error f ↔ x = .error f ∧ f.Passes := by
  cases x with
  | ok a => simp [within]
  | error g =>
    by_cases caught : (g.isOfValue || g.kind = .type) = true
    · have different : (wrap g).raised ≠ f := fun same => other (same ▸ sets g)
      simp only [within, if_pos caught, Except.error.injEq, different, false_iff]
      rintro ⟨rfl, ofValue, ofType⟩
      simp [ofValue, ofType] at caught
    · simp only [within, if_neg caught, Except.error.injEq]
      constructor
      · rintro rfl
        exact ⟨rfl, by simpa [Fault.Passes] using caught⟩
      · exact And.left

theorem EstimateParameters.make_fails (hourly overhead : Float) :
    FailsAs (fun f => f.kind = .settings)
      (EstimateParameters.make (.real hourly) (.real overhead)) := by
  have check (name : String) (x : Float) :
      FailsAs (fun f => f.kind = .settings) (checkRate name (.real x)) := by
    unfold checkRate
    split
    · exact .error rfl
    · exact .ok _
  exact .bind (check _ _) fun _ _ => .bind (check _ _) fun _ _ => .ok _

namespace Rates

/-- The first entry of a table that cannot be read is a whole number past the largest double. -/
def Overflows (kind : String) (entries : Keyed Datum) : Prop :=
  ∃ before name d after, entries = before ++ (name, d) :: after ∧
    (∀ entry ∈ before, ∃ rate, readEntry kind entry.1 entry.2 = .ok rate) ∧
    Text.key name ≠ "" ∧ d.Giant

theorem badRate_raised {kind name : String} {d : Datum} (flat : ¬ d.TooDeep) :
    (Fault.badRate kind name d).raised.kind = .value := by
  rcases (Fault.badRate kind name d).raised_cases with same | long | ⟨-, e, shown, deep⟩
  · rw [same]
    rfl
  · rw [long]
    rfl
  · obtain rfl : e = d := by simpa [Fault.shownValues] using shown
    exact absurd deep flat

theorem readEntry_error {kind name : String} {d : Datum} {f : Fault} (flat : ¬ d.TooDeep) :
    (readEntry kind name d = .error f ∧ f.Passes) ↔
      f = .integerTooLarge ∧ Text.key name ≠ "" ∧ d.Giant := by
  by_cases empty : Text.key name = ""
  · simp only [readEntry, empty, ne_eq, not_true_eq_false, false_and, and_false, iff_false]
    rintro ⟨same, passes⟩
    obtain rfl := Except.error.inj same
    exact absurd passes nofun
  · simp only [readEntry, if_neg empty]
    constructor
    · rintro ⟨fails, passes⟩
      rcases bind_error.mp fails with unread | ⟨found, -, refused⟩
      · rcases Datum.finite?_fails d f unread with reported | ⟨rfl, giant⟩ | ⟨-, deep⟩
        · exact absurd reported passes.not_reported
        · exact ⟨rfl, empty, giant⟩
        · exact absurd deep flat
      · have reported : f = (Fault.badRate kind name d).raised := by
          split at refused
          · split at refused
            · exact (Except.error.inj refused).symm
            · cases refused
          · exact (Except.error.inj refused).symm
        exact absurd (Or.inl (reported ▸ badRate_raised flat)) passes.not_reported
    · rintro ⟨rfl, -, giant⟩
      exact ⟨bind_error.mpr (Or.inl (Datum.finite?_of_giant giant)), Fault.passes_tooLarge⟩

theorem readTable_error {kind : String} {entries : Keyed Datum} {f : Fault}
    (flat : ∀ entry ∈ entries, ¬ entry.2.TooDeep) :
    (readTable kind entries = .error f ∧ f.Passes) ↔
      f = .integerTooLarge ∧ Overflows kind entries := by
  rw [readTable, map_error, mapM_error_iff]
  constructor
  · rintro ⟨⟨before, ⟨name, d⟩, after, same, each, fails⟩, passes⟩
    have own : ¬ d.TooDeep := flat (name, d) (by simp [same])
    obtain ⟨rfl, keyed, giant⟩ := (readEntry_error own).mp ⟨fails, passes⟩
    exact ⟨rfl, before, name, d, after, same, each, keyed, giant⟩
  · rintro ⟨rfl, before, name, d, after, same, each, keyed, giant⟩
    have own : ¬ d.TooDeep := flat (name, d) (by simp [same])
    obtain ⟨fails, passes⟩ := (readEntry_error own).mpr ⟨rfl, keyed, giant⟩
    exact ⟨⟨before, (name, d), after, same, each, fails⟩, passes⟩

theorem loose_error {kind : String} {table : Keyed Float} {f : Fault}
    (fails : readTable kind (loose table) = .error f) : ¬ f.Passes := by
  intro passes
  have real : ∀ entry ∈ loose table, ∃ x, entry.2 = .real x := by
    intro entry member
    obtain ⟨⟨_, x⟩, -, rfl⟩ := List.mem_map.mp member
    exact ⟨x, rfl⟩
  have flat : ∀ entry ∈ loose table, ¬ entry.2.TooDeep := by
    intro entry member
    obtain ⟨x, same⟩ := real entry member
    rw [same]
    exact Datum.not_tooDeep_number _
  obtain ⟨-, before, name, d, after, same, -, -, giant⟩ :=
    (readTable_error flat).mp ⟨fails, passes⟩
  obtain ⟨x, rfl⟩ := real (name, d) (same ▸ List.mem_append_cons_self)
  exact giant

end Rates

namespace Settings

/-- Something is given where a table of rates should be, and it is none. -/
def Misplaced (d : Datum) : Prop := d.isGiven = true ∧ ∀ fields, d ≠ .object fields

/-- What loading the settings lets through: a path or a file that cannot be read as a text, a text
with a number of too many digits, one that is nested too deep to be read, and one that is nested too deep
to be copied. -/
inductive Unread (s : Surroundings) : Fault → Prop where
  | home : s.settingsPath = .error .unknownHome → Unread s .unknownHome
  | folder {path : String} : s.settingsPath = .ok (some path) → s.file? path = some .folder →
      Unread s (.isFolder path)
  | encoding {path : String} : s.settingsPath = .ok (some path) → s.file? path = some .bytes →
      Unread s .badEncoding
  | digits {path text : String} {count : Nat} : s.settingsPath = .ok (some path) →
      s.file? path = some (.text text) → Json.readWhole text = .error (.tooManyDigits count) →
      Unread s (.tooManyDigits count)
  | deep {path text : String} : s.settingsPath = .ok (some path) →
      s.file? path = some (.text text) → Json.readWhole text = .error .tooDeep →
      Unread s .nestedTooDeep
  | copied {path text : String} {given : Record} : s.settingsPath = .ok (some path) →
      s.file? path = some (.text text) → Json.readWhole text = .ok (.object given) →
      (Datum.object given).deeperThan mostCopied = true → Unread s .nestedTooDeep

/-- What reading the parameters lets through: a giant, in the first of the two rates that cannot be
read. -/
inductive ParamsUnread (settings : Record) : Fault → Prop where
  | hourly {fields : Record} {d : Datum} : section? settings "params" = .ok fields →
      fields.lookup "hourly_rate" = some d → d.Giant → ParamsUnread settings .integerTooLarge
  | overhead {fields : Record} {d : Datum} {rate : Numeral}
      (given : section? settings "params" = .ok fields) :
      readRate fields "hourly_rate" EstimateParameters.usualHourlyRate = .ok rate →
      fields.lookup "overhead_rate" = some d → d.Giant → ParamsUnread settings .integerTooLarge

/-- What reading the overrides of rates lets through: something else in the place of a table, and a
giant in one. -/
inductive OverridesUnread (fields : Record) : Fault → Prop where
  | materialsMisplaced : Misplaced (fields.value "materials") → OverridesUnread fields .noSuchPart
  | materialTooLarge {materials : Record} : entries (fields.value "materials") = .ok materials →
      Rates.Overflows "material" materials → OverridesUnread fields .integerTooLarge
  | equipmentMisplaced {materials : Record} {read : Keyed Float} :
      entries (fields.value "materials") = .ok materials →
      Rates.readMaterials materials = .ok read →
      Misplaced (fields.value "equipment") → OverridesUnread fields .noSuchPart
  | equipmentTooLarge {materials equipment : Record} {read : Keyed Float} :
      entries (fields.value "materials") = .ok materials →
      Rates.readMaterials materials = .ok read →
      entries (fields.value "equipment") = .ok equipment → Rates.Overflows "equipment" equipment →
      OverridesUnread fields .integerTooLarge

def RatesUnread (settings : Record) (f : Fault) : Prop :=
  ∃ fields, settings.value "rate_overrides" = .object fields ∧ OverridesUnread fields f

theorem settingsPath_fault {s : Surroundings} {f : Fault} (fails : s.settingsPath = .error f) :
    f = .unknownHome := by
  unfold Surroundings.settingsPath at fails
  cases named : Surroundings.given s.settings with
  | none =>
    rw [named] at fails
    cases fails
  | some raw =>
    rw [named] at fails
    have expanded := map_error.mp fails
    dsimp only at expanded
    split at expanded
    · cases expanded
    · exact (Except.error.inj expanded).symm

theorem ofOverride_error {x : Outcome Record} {f : Fault} (other : f.kind ≠ .settings) :
    ofOverride x = .error f ↔ x = .error f := by
  cases x with
  | ok r => simp [ofOverride]
  | error g =>
    by_cases reported : g.kind = .settings
    · have different : g ≠ f := fun same => other (same ▸ reported)
      have wrapped : Fault.badOverride g ≠ f := fun same => other (same ▸ rfl)
      simp [ofOverride, reported, different, wrapped]
    · simp [ofOverride, reported]

/-- What is wrong with the text of a file is a fault of the settings, but for two things. -/
theorem parse_text_error {path text : String} {f : Fault} (other : f.kind ≠ .settings) :
    parse path (.text text) = .error f ↔
      (∃ count, f = .tooManyDigits count ∧ Json.readWhole text = .error (.tooManyDigits count)) ∨
        (f = .nestedTooDeep ∧ Json.readWhole text = .error .tooDeep) := by
  have reported : Fault.malformedSettings (Path.name path) ≠ f := fun same => other (same ▸ rfl)
  have noObject : Fault.settingsNotAnObject (Path.name path) ≠ f := fun same => other (same ▸ rfl)
  rw [parse, bind_error, Json.read]
  cases Json.readWhole text with
  | ok d => cases d <;> simp [Except.mapError, throw, throwThe,
      MonadExceptOf.throw, noObject, pure, Except.pure]
  | error refusal => cases refusal <;> simp [Except.mapError, reported, eq_comm (a := f)]

theorem ofOverride_ok {x : Outcome Record} {r : Record} : ofOverride x = .ok r ↔ x = .ok r := by
  cases x <;> simp [ofOverride]

theorem merged_ok {s : Surroundings} {r : Record} (success : merged s = .ok r) :
    r = packaged ∨ ∃ path text given, s.settingsPath = .ok (some path) ∧
      s.file? path = some (.text text) ∧ Json.readWhole text = .ok (.object given) ∧
      r = mergeFields packaged given := by
  obtain ⟨found, named, later⟩ := bind_ok.mp success
  cases found with
  | none => exact Or.inl (Except.ok.inj later).symm
  | some path =>
    cases there : s.file? path with
    | none =>
      simp only [there] at later
      exact Or.inl (Except.ok.inj later).symm
    | some contents =>
      rw [merged_of_contents named there] at success
      obtain ⟨given, parsed, rfl⟩ := map_ok.mp success
      have read := ofOverride_ok.mp parsed
      cases contents with
      | folder => cases read
      | bytes => cases read
      | text t => exact Or.inr ⟨path, t, given, named, there, parse_object.mp read, rfl⟩

theorem copied_error {r : Record} {f : Fault} :
    copied r = .error f ↔ f = .nestedTooDeep ∧ (Datum.object r).deeperThan mostCopied = true := by
  unfold copied
  generalize (Datum.object r).deeperThan mostCopied = deep
  cases deep <;> simp [eq_comm]

theorem Unread.other {s : Surroundings} {f : Fault} (unread : Unread s f) : f.kind ≠ .settings := by
  cases unread <;> exact nofun

theorem unread_of_merged {s : Surroundings} {f : Fault} (fails : merged s = .error f)
    (other : f.kind ≠ .settings) : Unread s f := by
  rcases bind_error.mp fails with homeless | ⟨found, named, later⟩
  · obtain rfl := settingsPath_fault homeless
    exact .home homeless
  · cases found with
    | none => cases later
    | some path =>
      cases there : s.file? path with
      | none =>
        simp only [there] at later
        cases later
      | some contents =>
        rw [merged_of_contents named there, map_error, ofOverride_error other] at fails
        cases contents with
        | folder =>
          obtain rfl := Except.error.inj fails
          exact .folder named there
        | bytes =>
          obtain rfl := Except.error.inj fails
          exact .encoding named there
        | text t =>
          rcases (parse_text_error other).mp fails with ⟨count, rfl, read⟩ | ⟨rfl, read⟩
          · exact .digits named there read
          · exact .deep named there read

theorem unread_of_copied {s : Surroundings} {r : Record} {f : Fault} (success : merged s = .ok r)
    (fails : copied r = .error f) : Unread s f := by
  obtain ⟨rfl, deep⟩ := copied_error.mp fails
  rcases merged_ok success with rfl | ⟨path, text, given, named, there, read, -⟩
  · exact absurd deep (by decide)
  · obtain ⟨whole, same, -, depth⟩ := load_deep named there read
    obtain rfl := Except.ok.inj (success.symm.trans same)
    exact .copied named there read (depth ▸ deep)

theorem load_leaks (s : Surroundings) : (load s).LeaksAs (Unread s) := by
  intro f
  constructor
  · rintro ⟨fails, other⟩
    rcases bind_error.mp fails with unmerged | ⟨r, success, uncopied⟩
    · exact unread_of_merged unmerged other
    · exact unread_of_copied success uncopied
  · intro unread
    refine ⟨bind_error.mpr ?_, unread.other⟩
    have other := unread.other
    cases unread with
    | home homeless => exact Or.inl (by rw [merged, homeless]; rfl)
    | folder named there => exact Or.inl (by rw [merged_of_contents named there]; rfl)
    | encoding named there => exact Or.inl (by rw [merged_of_contents named there]; rfl)
    | digits named there read =>
      left
      rw [merged_of_contents named there, map_error, ofOverride_error other]
      exact (parse_text_error other).mpr (Or.inl ⟨_, rfl, read⟩)
    | deep named there read =>
      left
      rw [merged_of_contents named there, map_error, ofOverride_error other]
      exact (parse_text_error other).mpr (Or.inr ⟨rfl, read⟩)
    | copied named there read deep =>
      obtain ⟨whole, success, -, depth⟩ := load_deep named there read
      exact Or.inr ⟨whole, success, copied_error.mpr ⟨rfl, depth.trans deep⟩⟩

theorem section?_fails (settings : Record) (name : String) :
    FailsAs (fun f => f.kind = .settings) (section? settings name) := by
  unfold section?
  split
  · split
    · exact .ok _
    · exact .error rfl
  · exact .error rfl

theorem readRate_error {fields : Record} {name : String} {usual : Float} {f : Fault} :
    (readRate fields name usual = .error f ∧ f.Passes) ↔
      f = .integerTooLarge ∧ ∃ d, fields.lookup name = some d ∧ d.Giant := by
  rw [readRate, map_error]
  constructor
  · rintro ⟨fails, passes⟩
    rcases Datum.toFloat_error _ f fails with reported | ⟨rfl, giant⟩
    · exact absurd reported passes.not_reported
    · exact ⟨rfl, _, Record.optional_real (Or.inl giant), giant⟩
  · rintro ⟨rfl, d, found, giant⟩
    rw [Record.valueOr, found]
    exact ⟨Datum.toFloat_of_giant giant, Fault.passes_tooLarge⟩

theorem readRate_of_giant {fields : Record} {name : String} {d : Datum} (usual : Float)
    (own : fields.lookup name = some d) (giant : d.Giant) :
    readRate fields name usual = .error .integerTooLarge :=
  (readRate_error.mpr ⟨rfl, d, own, giant⟩).1

theorem ParamsUnread.eq {settings : Record} {f : Fault} (unread : ParamsUnread settings f) :
    f = .integerTooLarge := by
  cases unread <;> rfl

theorem params_leaks (settings : Record) : (params settings).LeaksAs (ParamsUnread settings) := by
  intro f
  constructor
  · rintro ⟨fails, other⟩
    rcases bind_error.mp fails with missing | ⟨fields, found, rest⟩
    · exact absurd (section?_fails settings _ f missing) other
    rcases bind_error.mp rest with unread | ⟨⟨hourly, overhead⟩, read, made⟩
    · obtain ⟨unread, passes⟩ := (Outcome.within_error (fun _ => rfl) other).mp unread
      rcases bind_error.mp unread with first | ⟨rate, read, second⟩
      · obtain ⟨rfl, d, own, giant⟩ := readRate_error.mp ⟨first, passes⟩
        exact .hourly found own giant
      · rcases bind_error.mp second with second | ⟨_, -, impossible⟩
        · obtain ⟨rfl, d, own, giant⟩ := readRate_error.mp ⟨second, passes⟩
          exact .overhead found read own giant
        · cases impossible
    · obtain ⟨_, first, later⟩ := bind_ok.mp (within_ok read)
      obtain ⟨_, second, same⟩ := bind_ok.mp later
      obtain ⟨rfl, rfl⟩ := Prod.mk.inj (Except.ok.inj same)
      obtain ⟨x, -, rfl⟩ := map_ok.mp first
      obtain ⟨y, -, rfl⟩ := map_ok.mp second
      exact absurd (EstimateParameters.make_fails x y f made) other
  · intro unread
    obtain rfl := unread.eq
    have other : Fault.integerTooLarge.kind ≠ .settings := nofun
    refine ⟨bind_error.mpr (Or.inr ?_), other⟩
    cases unread with
    | hourly found own giant =>
      refine ⟨_, found, bind_error.mpr (Or.inl ?_)⟩
      refine (Outcome.within_error (fun _ => rfl) other).mpr ⟨?_, Fault.passes_tooLarge⟩
      exact bind_error.mpr (Or.inl (readRate_of_giant _ own giant))
    | overhead found read own giant =>
      refine ⟨_, found, bind_error.mpr (Or.inl ?_)⟩
      refine (Outcome.within_error (fun _ => rfl) other).mpr ⟨?_, Fault.passes_tooLarge⟩
      refine bind_error.mpr (Or.inr ⟨_, read, ?_⟩)
      exact bind_error.mpr (Or.inl (readRate_of_giant _ own giant))

theorem entries_error {d : Datum} {f : Fault} :
    entries d = .error f ↔ f = .noSuchPart ∧ Misplaced d := by
  unfold entries
  split
  · rename_i fields
    simp [Misplaced]
  · rename_i other
    by_cases given : d.isGiven = true
    · rw [if_pos given]
      constructor
      · intro fails
        exact ⟨(Except.error.inj fails).symm, given, other⟩
      · rintro ⟨rfl, -⟩
        rfl
    · rw [if_neg given]
      constructor
      · intro fails
        cases fails
      · rintro ⟨-, wrong, -⟩
        exact absurd wrong given

theorem entries_ok {d : Datum} {table : Record} (listed : entries d = .ok table) :
    table = [] ∨ d = .object table := by
  unfold entries at listed
  split at listed
  · exact Or.inr (congrArg Datum.object (Except.ok.inj listed))
  · split at listed
    · cases listed
    · exact Or.inl (Except.ok.inj listed).symm

theorem flat_of_entries {fields table : Record} {key : String}
    (flat : (Datum.object fields).deeperThan Datum.mostShown = false)
    (listed : entries (fields.value key) = .ok table) : ∀ entry ∈ table, ¬ entry.2.TooDeep := by
  intro entry member
  rcases entries_ok listed with rfl | value
  · cases member
  · rcases fields.value_cases key with none | held
    · rw [none] at value
      cases value
    · exact Bool.eq_false_iff.mp (((value ▸ held).field member).shallow flat)

theorem readOverrides_error {fields : Record} {f : Fault}
    (flat : (Datum.object fields).deeperThan Datum.mostShown = false) :
    (readOverrides fields = .error f ∧ f.Passes) ↔ OverridesUnread fields f := by
  constructor
  · rintro ⟨fails, passes⟩
    rcases bind_error.mp fails with unlisted | ⟨materials, listed, rest⟩
    · obtain ⟨rfl, misplaced⟩ := entries_error.mp unlisted
      exact .materialsMisplaced misplaced
    rcases bind_error.mp rest with unread | ⟨_, discarded, rest⟩
    · obtain ⟨rfl, overflows⟩ :=
        (Rates.readTable_error (flat_of_entries flat listed)).mp ⟨map_error.mp unread, passes⟩
      exact .materialTooLarge listed overflows
    obtain ⟨read, readMaterials, -⟩ := map_ok.mp discarded
    rcases bind_error.mp rest with unlisted | ⟨equipment, listedEquipment, rest⟩
    · obtain ⟨rfl, misplaced⟩ := entries_error.mp unlisted
      exact .equipmentMisplaced listed readMaterials misplaced
    -- the price table is read once more with the rates, and has been read already
    rcases bind_error.mp rest with again | ⟨_, -, rest⟩
    · rw [readMaterials] at again
      cases again
    rcases bind_error.mp rest with unread | ⟨readEquipment, -, made⟩
    · obtain ⟨rfl, overflows⟩ :=
        (Rates.readTable_error (flat_of_entries flat listedEquipment)).mp ⟨unread, passes⟩
      exact .equipmentTooLarge listed readMaterials listedEquipment overflows
    rcases bind_error.mp made with unread | ⟨_, -, rest⟩
    · exact absurd passes (Rates.loose_error unread)
    rcases bind_error.mp rest with unread | ⟨_, -, impossible⟩
    · exact absurd passes (Rates.loose_error unread)
    · cases impossible
  · intro unread
    cases unread with
    | materialsMisplaced misplaced =>
      refine ⟨?_, Fault.passes_noSuchPart⟩
      exact bind_error.mpr (Or.inl (entries_error.mpr ⟨rfl, misplaced⟩))
    | materialTooLarge listed overflows =>
      obtain ⟨unread, passes⟩ :=
        (Rates.readTable_error (flat_of_entries flat listed)).mpr ⟨rfl, overflows⟩
      refine ⟨bind_error.mpr (Or.inr ⟨_, listed, ?_⟩), passes⟩
      exact bind_error.mpr (Or.inl (map_error.mpr unread))
    | equipmentMisplaced listed readMaterials misplaced =>
      refine ⟨?_, Fault.passes_noSuchPart⟩
      refine bind_error.mpr (Or.inr ⟨_, listed, bind_error.mpr (Or.inr ⟨(), ?_, ?_⟩)⟩)
      · exact map_ok.mpr ⟨_, readMaterials, rfl⟩
      · exact bind_error.mpr (Or.inl (entries_error.mpr ⟨rfl, misplaced⟩))
    | equipmentTooLarge listed readMaterials listedEquipment overflows =>
      obtain ⟨unread, passes⟩ :=
        (Rates.readTable_error (flat_of_entries flat listedEquipment)).mpr ⟨rfl, overflows⟩
      refine ⟨bind_error.mpr (Or.inr ⟨_, listed, bind_error.mpr (Or.inr ⟨(), ?_, ?_⟩)⟩), passes⟩
      · exact map_ok.mpr ⟨_, readMaterials, rfl⟩
      · refine bind_error.mpr (Or.inr ⟨_, listedEquipment, ?_⟩)
        exact bind_error.mpr (Or.inr ⟨_, readMaterials, bind_error.mpr (Or.inl unread)⟩)

theorem OverridesUnread.other {fields : Record} {f : Fault} (unread : OverridesUnread fields f) :
    f.kind ≠ .settings := by
  cases unread <;> exact nofun

theorem rates_leaks {settings : Record}
    (flat : (Datum.object settings).deeperThan Datum.mostShown = false) :
    (rates settings).LeaksAs (RatesUnread settings) := by
  intro f
  have inner {fields : Record} (own : settings.value "rate_overrides" = .object fields) :
      (Datum.object fields).deeperThan Datum.mostShown = false := by
    rcases settings.value_cases "rate_overrides" with none | held
    · rw [own] at none
      cases none
    · exact (own ▸ held).shallow flat
  constructor
  · rintro ⟨fails, other⟩
    unfold rates at fails
    split at fails
    · rename_i fields given
      have unread := (Outcome.within_error (fun _ => rfl) other).mp fails
      exact ⟨fields, given, (readOverrides_error (inner given)).mp unread⟩
    · split at fails
      · obtain rfl := Except.error.inj fails
        exact absurd rfl other
      · cases fails
  · rintro ⟨fields, given, unread⟩
    refine ⟨?_, unread.other⟩
    simp only [rates, given]
    exact (Outcome.within_error (fun _ => rfl) unread.other).mpr
      ((readOverrides_error (inner given)).mpr unread)

theorem bind_leaks {α : Type} {x : Outcome Record} {read : Record → Outcome α}
    {loading : Fault → Prop} {reading : Record → Fault → Prop} (first : x.LeaksAs loading)
    (later : ∀ r, x = .ok r → (read r).LeaksAs (reading r)) :
    Outcome.LeaksAs (fun f => loading f ∨ ∃ r, x = .ok r ∧ reading r f) (x.bind read) := by
  intro f
  constructor
  · rintro ⟨fails, other⟩
    rcases bind_error.mp fails with unloaded | ⟨r, loaded, unread⟩
    · exact Or.inl ((first f).mp ⟨unloaded, other⟩)
    · exact Or.inr ⟨r, loaded, (later r loaded f).mp ⟨unread, other⟩⟩
  · rintro (unloaded | ⟨r, loaded, unread⟩)
    · obtain ⟨unloaded, other⟩ := (first f).mpr unloaded
      exact ⟨bind_error.mpr (Or.inl unloaded), other⟩
    · obtain ⟨unread, other⟩ := (later r loaded f).mpr unread
      exact ⟨bind_error.mpr (Or.inr ⟨r, loaded, unread⟩), other⟩

/-- What can be copied can be shown as well. -/
theorem flat_of_load {s : Surroundings} {r : Record} (loaded : load s = .ok r) :
    (Datum.object r).deeperThan Datum.mostShown = false := by
  obtain ⟨whole, -, copy⟩ := bind_ok.mp loaded
  unfold copied at copy
  split at copy
  · cases copy
  · rename_i shallow
    obtain rfl := Except.ok.inj copy
    exact Bool.eq_false_iff.mpr (mt (Datum.deeperThan_of_le (by decide)) shallow)

/-- Loading the settings, and reading the parameters or the rates out of them, gives a result or a
fault of the settings, but for what is listed, which comes out as it is. -/
theorem settings_leaks (s : Surroundings) :
    (load s).LeaksAs (Unread s) ∧
      Outcome.LeaksAs (fun f => Unread s f ∨ ∃ r, load s = .ok r ∧ ParamsUnread r f)
        (defaults (load s)).params ∧
      Outcome.LeaksAs (fun f => Unread s f ∨ ∃ r, load s = .ok r ∧ RatesUnread r f)
        (defaults (load s)).rates :=
  ⟨load_leaks s, bind_leaks (load_leaks s) fun r _ => params_leaks r,
    bind_leaks (load_leaks s) fun _ loaded => rates_leaks (flat_of_load loaded)⟩

end Settings
end Joinery
