import Joinery.Proofs.Datum.Measure
import Joinery.Proofs.Settings.Defaults

/-!
The packaged settings are usable. They override no rate, so that the standard rates are read as they
stand, and each of these has a name with a key: a name that starts with a letter or a digit has one.
-/
namespace Joinery

namespace Text

theorem all_of_chain {p : Char → Bool} {c : Char} {cs : List Char} (starts : p c = true)
    (chain : (c :: cs).IsChain fun a b => (p a && p b) = true) : (c :: cs).all p = true := by
  induction cs generalizing c with
  | nil => simp [starts]
  | cons d rest ih =>
    obtain ⟨pair, later⟩ := List.isChain_cons_cons.mp chain
    obtain ⟨-, next⟩ := Bool.and_eq_true_iff.mp pair
    rw [List.all_cons, starts, ih next later]
    rfl

theorem head_mem_words {p : Char → Bool} {c : Char} {cs : List Char} (starts : p c = true) :
    ∃ word ∈ words p (c :: cs), word ≠ [] := by
  have some : c :: cs ≠ [] := List.cons_ne_nil c cs
  have ran : runs p (c :: cs) ≠ [] := List.splitBy_ne_nil.mpr some
  have first := List.head_head_splitBy (fun a b => p a && p b) some
  have chain := List.isChain_of_mem_splitBy (List.head_mem ran)
  obtain ⟨a, rest, run⟩ := List.exists_cons_of_ne_nil (List.ne_nil_of_mem_splitBy (List.head_mem ran))
  have same : a = c := by
    unfold runs at run
    simpa only [run, List.head_cons] using first
  have member : a :: rest ∈ runs p (c :: cs) := run ▸ List.head_mem ran
  rw [run] at chain
  rw [← same] at starts
  exact ⟨a :: rest, List.mem_filter.mpr ⟨member, all_of_chain starts chain⟩, List.cons_ne_nil a rest⟩

theorem intercalate_some {sep : List Char} {xss : List (List Char)} {xs : List Char}
    (member : xs ∈ xss) (filled : xs ≠ []) : sep.intercalate xss ≠ [] := by
  induction xss with
  | nil => cases member
  | cons ys rest ih =>
    cases rest with
    | nil =>
      obtain rfl := List.mem_singleton.mp member
      simpa [List.intercalate] using filled
    | cons zs rest =>
      intro none
      obtain ⟨first, -, later⟩ : ys = [] ∧ sep = [] ∧ sep.intercalate (zs :: rest) = [] := by
        simpa [List.intercalate] using none
      rcases List.mem_cons.mp member with rfl | further
      · exact filled first
      · exact ih further later

theorem key_some {name : String}
    (starts : (foldCase name.toList).head?.any isKeyChar = true) : key name ≠ "" := by
  unfold key keyChars
  cases folded : foldCase name.toList with
  | nil =>
    rw [folded] at starts
    cases starts
  | cons c cs =>
    rw [folded] at starts
    obtain ⟨word, member, filled⟩ : ∃ word ∈ words isKeyChar (c :: cs), word ≠ [] :=
      head_mem_words starts
    intro none
    exact intercalate_some member filled (by simpa using none)

end Text

namespace Rates

theorem readTable_ok (kind : String) {table : Keyed Float}
    (each : ∀ entry ∈ table, (Text.foldCase entry.1.toList).head?.any Text.isKeyChar = true ∧
      entry.2.isFinite = true ∧ ¬ entry.2 < 0) :
    ∃ rates, readTable kind (loose table) = .ok rates := by
  have entries : ∀ entry ∈ loose table, ∃ rate, readEntry kind entry.1 entry.2 = .ok rate := by
    intro entry member
    obtain ⟨⟨name, x⟩, own, rfl⟩ := List.mem_map.mp member
    obtain ⟨starts, finite, above⟩ := each _ own
    have named := Text.key_some starts
    have double : (Datum.real x).finite? = .ok (some x) := Datum.finite?_real finite
    exact ⟨(Text.key name, x), by
      simp only [readEntry, named, double, above, ↓reduceIte, ok_bind]
      rfl⟩
  obtain ⟨rates, read⟩ := mapM_ok entries
  exact ⟨Keyed.ofPairs rates, by rw [readTable, read]; rfl⟩

theorem materialPrices_read : ∀ entry ∈ materialPrices,
    (Text.foldCase entry.1.toList).head?.any Text.isKeyChar = true ∧
      entry.2.isFinite = true ∧ ¬ entry.2 < 0 := by
  decide +kernel

theorem equipmentRates_read : ∀ entry ∈ equipmentRates,
    (Text.foldCase entry.1.toList).head?.any Text.isKeyChar = true ∧
      entry.2.isFinite = true ∧ ¬ entry.2 < 0 := by
  decide +kernel

end Rates

/-! Tables and settings are named by variables here, so that nothing is computed from them. -/

theorem RateTable.override_nothing {t : RateTable} {materials equipment : Keyed Float}
    (readMaterials : Rates.readTable "material" (Rates.loose t.materials) = .ok materials)
    (readEquipment : Rates.readTable "equipment" (Rates.loose t.equipment) = .ok equipment) :
    t.override [] [] = .ok { t with materials, equipment } := by
  have none (kind : String) : Rates.readTable kind [] = .ok [] := rfl
  simp only [override, make, Rates.readMaterials, Rates.readEquipment, none, ok_bind, Keyed.setAll,
    List.foldl_nil, readMaterials, readEquipment]
  rfl

theorem RateTable.standard_override : ∃ rates, RateTable.standard.override [] [] = .ok rates := by
  obtain ⟨materials, readMaterials⟩ := Rates.readTable_ok "material" Rates.materialPrices_read
  obtain ⟨equipment, readEquipment⟩ := Rates.readTable_ok "equipment" Rates.equipmentRates_read
  exact ⟨_, override_nothing (t := standard) readMaterials readEquipment⟩

namespace Settings

theorem rates_of_empty {settings : Record} (fields : Record) {standard : RateTable}
    (read : RateTable.standard.override [] [] = .ok standard)
    (own : settings.value "rate_overrides" = .object fields)
    (materials : fields.value "materials" = .object [])
    (equipment : fields.value "equipment" = .object []) :
    (defaults (.ok settings)).rates = .ok standard := by
  have overridden : readOverrides fields = .ok standard := by
    refine bind_ok.mpr ⟨[], by rw [materials]; rfl, bind_ok.mpr ⟨(), rfl, ?_⟩⟩
    exact bind_ok.mpr ⟨[], by rw [equipment]; rfl, read⟩
  refine bind_ok.mpr ⟨settings, rfl, ?_⟩
  unfold rates
  rw [own]
  dsimp only
  rw [overridden]
  rfl

theorem packaged_params : (defaults (.ok packaged)).params.isOk = true := by decide +kernel

theorem packaged_usable : (defaults (.ok packaged)).Usable := by
  obtain ⟨standard, read⟩ := RateTable.standard_override
  have rates : (defaults (.ok packaged)).rates = .ok standard :=
    rates_of_empty [("materials", .object []), ("equipment", .object [])] read rfl rfl rfl
  exact defaults_usable rates (Outcome.eq_value packaged_params)

end Settings
end Joinery
