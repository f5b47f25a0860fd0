import Joinery.Product
import Joinery.Proofs.Catalog.Names
import Joinery.Proofs.Moment.Text
import Joinery.Proofs.Outcome
import Joinery.Record.Reference

/-!
Fields of records as they are written: labels, texts, numbers, lists and dates, each read back as
what was written.
-/
namespace Joinery
open Text

theorem asText_text (s : String) : (Datum.text s).asText = .ok s := rfl

theorem givenText_text (s : String) : (Datum.text s).givenText = .ok s := by
  by_cases empty : s = ""
  · rw [empty]
    rfl
  · simp [Datum.givenText, Datum.isGiven, asText_text, empty]

def labelChars : List Char := "abcdefghijklmnopqrstuvwxyz-".toList

theorem lower_labelChars {c : Char} (plain : c ∈ labelChars) :
    c ≠ capitalSigma ∧ Casing.lowerMapping.apply c = [c] := by
  have each : (labelChars.all fun c =>
      decide (c ≠ capitalSigma ∧ Casing.lowerMapping.apply c = [c])) = true := by decide +kernel
  exact of_decide_eq_true (List.all_eq_true.mp each c plain)

theorem lowerAfter_label (before : List Char) {cs : List Char} (plain : ∀ c ∈ cs, c ∈ labelChars) :
    lowerAfter before cs = cs := by
  induction cs generalizing before with
  | nil => rfl
  | cons c rest ih =>
    obtain ⟨notSigma, kept⟩ := lower_labelChars (plain c (by simp))
    rw [lowerAfter, if_neg notSigma, kept, ih _ fun d member => plain d (by simp [member])]
    rfl

theorem labelForm_of_plain {s : String} (plain : ∀ c ∈ s.toList, c ∈ labelChars)
    (trimmed : trim s = s) (joined : hyphenated s.toList = s.toList) :
    labelForm s = s := by
  rw [labelForm, trimmed, lower, lowerAfter_label [] plain, String.toList_ofList,
    joined, String.ofList_toList]

/-- No two values of a field share a label. -/
class LawfulChoice (α : Type) [Choice α] : Prop where
  plain : ∀ a : α, (Choice.label a).toList.all labelChars.contains = true
  trimmed : ∀ a : α, trim (Choice.label a) = Choice.label a
  joined : ∀ a : α, hyphenated (Choice.label a).toList = (Choice.label a).toList
  found : ∀ a : α, Choice.options.find? (fun b : α => Choice.label b == Choice.label a) = some a

theorem read_ofChoice {α : Type} [Choice α] [LawfulChoice α] (a : α) :
    Choice.read (Datum.ofChoice a) = .ok a := by
  have plain : ∀ c ∈ (Choice.label a).toList, c ∈ labelChars := fun c member =>
    List.contains_iff_mem.mp (List.all_eq_true.mp (LawfulChoice.plain a) c member)
  have written : labelForm (Choice.label a) = Choice.label a :=
    labelForm_of_plain plain (LawfulChoice.trimmed a) (LawfulChoice.joined a)
  simp only [Choice.read, choose, Datum.ofChoice, givenText_text, ok_bind, written, LawfulChoice.found]
  rfl

instance : LawfulChoice VariableKind := by constructor <;> intro a <;> cases a <;> decide +kernel
instance : LawfulChoice TimeUnit := by constructor <;> intro a <;> cases a <;> decide +kernel
instance : LawfulChoice Category := by constructor <;> intro a <;> cases a <;> decide +kernel
instance : LawfulChoice Strategy := by constructor <;> intro a <;> cases a <;> decide +kernel
instance : LawfulChoice FeatureType := by constructor <;> intro a <;> cases a <;> decide +kernel
instance : LawfulChoice Progress := by constructor <;> intro a <;> cases a <;> decide +kernel
instance : LawfulChoice Complexity := by constructor <;> intro a <;> cases a <;> decide +kernel
instance : LawfulChoice ProductStatus := by constructor <;> intro a <;> cases a <;> decide +kernel

/-! What a field holds, looked up by its name. -/

attribute [simp] Datum.asRecord Record.need Record.needText Record.valueOr Record.value Record.text
  List.lookup asText_text givenText_text

def Datum.amount? : Datum → Outcome (Option Numeral)
  | .null => .ok none
  | d => d.toFloat.map fun x => some (.real x)

@[simp] theorem Record.amount?_eq (r : Record) (key : String) :
    r.amount? key = (r.value key).amount? := by
  unfold Record.amount?
  cases r.value key <;> rfl

def Datum.items (d : Datum) : Outcome (List Datum) := if d.isGiven then d.elements else .ok []

@[simp] theorem Record.items_eq (r : Record) (key : String) :
    r.items key = (r.value key).items := rfl

@[simp] theorem Datum.items_list (items : List Datum) : (Datum.list items).items = .ok items := by
  cases items <;> rfl

@[simp] theorem Datum.items_texts (names : List String) :
    (Datum.texts names).items = .ok (names.map .text) := items_list (names.map .text)

def Datum.part? (d : Datum) : Option Datum := if d.isGiven then some d else none

@[simp] theorem Record.part?_eq (r : Record) (key : String) :
    r.part? key = (r.value key).part? := rfl

theorem Datum.part_read {α : Type} {write : α → Datum} {read : Datum → Outcome α} {back : α → α}
    {part : Option α} (given : ∀ a, (write a).isGiven = true)
    (each : ∀ a ∈ part, read (write a) = .ok (back a)) :
    Option.mapM read (Datum.orNull write part).part? = .ok (part.map back) := by
  cases part with
  | none => rfl
  | some a =>
    have there : (write a).part? = some (write a) := if_pos (given a)
    simp [Datum.orNull, there, each a rfl, Option.mapM, Functor.map, Except.map]

theorem Moment.record_read {m : Moment} (valid : m.Valid) (field : String) :
    m.record.moment field = .ok m.settle := by
  have digits : m.text.toList.getLast? ≠ some 'Z' := by
    intro zulu
    exact absurd (Moment.text_last_plain zulu) (by decide)
  have spelled : spellZone m.text.toList = m.text.toList := if_neg digits
  have written : m.record.givenText = .ok m.text := givenText_text m.text
  simp only [Datum.moment, written, ok_bind, m.trim_text, spelled, String.ofList_toList,
    Moment.read?_text valid]
  rfl

end Joinery
