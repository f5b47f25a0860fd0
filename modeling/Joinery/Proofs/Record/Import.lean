import Joinery.Console
import Joinery.Proofs.Json.Depth
import Joinery.Proofs.Record.Refused
import Joinery.Proofs.Settings.Packaged

/-!
Imports that fail. A text can be refused for its depth alone before any record is read. Whatever
else is wrong with a text or a record is a wrong value, which the program on the command line reports
with the name of the file, but for what passes through all readers.
-/
namespace Joinery
open Outcome (FailsAs)

/-- What a text can fail at other than by a wrong value. -/
inductive Product.Unread (text : String) : Fault → Prop where
  | deep : Json.mostLevels < Json.openings text.toList → Unread text .nestedTooDeep
  | escapes {d : Datum} {f : Fault} : Json.readWhole text = .ok d → f.Escapes d → Unread text f

theorem Json.read_fails {malformed : Fault} (reported : malformed.kind = .value) (text : String) :
    FailsAs (fun f => f.kind = .value ∨ f = .nestedTooDeep ∧ mostLevels < openings text.toList)
      (Json.read malformed text) := by
  unfold read
  cases whole : readWhole text with
  | ok d => exact .ok d
  | error refusal =>
    refine .error ?_
    cases refusal with
    | malformed => exact Or.inl reported
    | tooManyDigits count => exact Or.inl rfl
    | tooDeep => exact Or.inr ⟨rfl, openings_of_tooDeep whole⟩

theorem Json.read_ok {malformed : Fault} {text : String} {d : Datum}
    (read : Json.read malformed text = .ok d) : readWhole text = .ok d := by
  unfold Json.read at read
  cases whole : readWhole text with
  | ok e =>
    rw [whole] at read
    cases read
    rfl
  | error refusal =>
    rw [whole] at read
    cases read

theorem Product.read_fails {defaults : Defaults} (usable : defaults.Usable) (text : String) :
    FailsAs (fun f => f.kind = .value ∨ Unread text f) (Product.read defaults text) := by
  refine .bind ((Json.read_fails rfl text).imp fun f sort => ?_) fun d read => ?_
  · rcases sort with value | ⟨rfl, deep⟩
    · exact Or.inl value
    · exact Or.inr (.deep deep)
  · exact (ofRecord_fails usable d).imp fun f sort => Or.imp_right (.escapes (Json.read_ok read)) sort

theorem Product.not_ofValue_of_unread {text : String} {f : Fault} (unread : Unread text f) :
    f.isOfValue = false ∧ Console.blamesInput f = false := by
  cases unread with
  | deep _ => exact ⟨rfl, rfl⟩
  | escapes _ escapes => cases escapes <;> exact ⟨rfl, rfl⟩

namespace Console

theorem readProduct_fails {defaults : Defaults} (usable : defaults.Usable) (s : Surroundings)
    (path : String) :
    FailsAs (fun f => blamesInput f = true ∨
      ∃ text, s.file? path = some (.text text) ∧ Product.Unread text f)
      (readProduct s defaults path) := by
  unfold readProduct
  split
  · exact .error (Or.inl rfl)
  · split
    · exact .error (Or.inl rfl)
    · exact .error (Or.inl rfl)
    · exact .error (Or.inl rfl)
    · rename_i text found
      cases outcome : Product.read defaults text with
      | ok p => exact .ok p
      | error f =>
        refine .error ?_
        rcases Product.read_fails usable text f outcome with value | unread
        · have caught : f.isOfValue = true := by simp [Fault.isOfValue, value]
          rw [if_pos caught]
          exact Or.inl rfl
        · rw [if_neg (by simp [(Product.not_ofValue_of_unread unread).1])]
          exact Or.inr ⟨text, found, unread⟩

theorem estimate_of_unread {sheets : SheetReader} {s : Surroundings} {path : String}
    {rateFile : Option String} {rates : Option RateTable} {f : Fault}
    (readRates : readRates sheets s (Settings.defaults (Settings.load s)) rateFile = .ok rates)
    (fails : readProduct s (Settings.defaults (Settings.load s)) path = .error f) (asJson : Bool) :
    estimate sheets s path rateFile asJson =
      if blamesInput f then .ok (failed [] s!"Cannot estimate {path}: {f.message}") else .error f := by
  have inputs : readInputs sheets s (Settings.defaults (Settings.load s)) path rateFile = .error f := by
    rw [readInputs, readRates, fails]
    rfl
  simp only [estimate, inputs]

end Console

/-- With the packaged settings an import of a record or of a text fails by a wrong value, which the
command line reports, or else because a field that is a number has no double, because a value lies too
deep to be shown, because a list has no end, or because a text is nested too deep. -/
theorem imports_fail_by_value (d : Datum) (known : Keyed Template) (text : String)
    (sheets : Console.SheetReader) (s : Surroundings) (path : String) (f : Fault) :
    (Product.ofRecord (Settings.defaults (.ok Settings.packaged)) d = .error f →
      f.kind = .value ∨ f.Escapes d) ∧
    (Component.ofRecord known d = .error f → f.kind = .value ∨ f.Escapes d) ∧
    (Product.read (Settings.defaults (.ok Settings.packaged)) text = .error f →
      f.kind = .value ∨ Product.Unread text f) ∧
    ∀ rateFile asJson rates, Settings.load s = .ok Settings.packaged →
      Console.readRates sheets s (Settings.defaults (.ok Settings.packaged)) rateFile = .ok rates →
      Console.readProduct s (Settings.defaults (.ok Settings.packaged)) path = .error f →
      Console.estimate sheets s path rateFile asJson =
        .ok (Console.failed [] s!"Cannot estimate {path}: {f.message}") ∨
      Console.estimate sheets s path rateFile asJson = .error f ∧
        ∃ text, s.file? path = some (.text text) ∧ Product.Unread text f := by
  refine ⟨Product.ofRecord_fails Settings.packaged_usable d f, Component.ofRecord_fails known d f,
    Product.read_fails Settings.packaged_usable text f, ?_⟩
  intro rateFile asJson rates packaged readRates fails
  rw [← packaged] at readRates fails
  have answer := Console.estimate_of_unread readRates fails asJson
  rw [packaged] at fails
  rcases Console.readProduct_fails Settings.packaged_usable s path f fails with blamed | unread
  · rw [if_pos blamed] at answer
    exact Or.inl answer
  · obtain ⟨text, found, unread⟩ := unread
    rw [if_neg (by simp [(Product.not_ofValue_of_unread unread).2])] at answer
    exact Or.inr ⟨answer, text, found, unread⟩

namespace Shelf

def giantSide : Datum := .object [
  ("id", .text "side"),
  ("size", .object [("length", .int (10 ^ 400)), ("width", .int 600), ("thickness", .int 18)]),
  ("material", .text "mdf")]

def nested : Nat → Datum
  | 0 => .null
  | levels + 1 => .list [nested levels]

def deepSide : Datum := .object [
  ("id", .text "side"),
  ("name", nested 1000),
  ("size", .object [("length", .int 700), ("width", .int 600), ("thickness", .int 18)]),
  ("material", .text "mdf")]

def file : String := "shelf.json"

def folder : Surroundings := Surroundings.put ⟨none, none, none, none, []⟩ file (.text "[]")

end Shelf

def Outcome.faultKind? {α : Type} : Outcome α → Option Fault.Kind
  | .ok _ => none
  | .error f => some f.kind

theorem Outcome.error_of_kind {α : Type} {x : Outcome α} (kind : Fault.Kind)
    (fails : x.faultKind? = some kind) : ∃ f, x = .error f ∧ f.kind = kind := by
  cases x with
  | ok a => cases fails
  | error f => exact ⟨f, rfl, Option.some.inj fails⟩

theorem shelf_imports_fail :
    (∃ f, Component.ofRecord [] Shelf.giantSide = .error f ∧ f.kind = .overflow ∧
      f.Escapes Shelf.giantSide) ∧
    (∃ f, Component.ofRecord [] Shelf.deepSide = .error f ∧ f.kind = .depth ∧
      f.Escapes Shelf.deepSide) ∧
    Settings.load Shelf.folder = .ok Settings.packaged ∧
    ∃ f, Console.readProduct Shelf.folder (Settings.defaults (.ok Settings.packaged)) Shelf.file =
        .error f ∧
      Console.estimate Console.noSheets Shelf.folder Shelf.file none false =
        .ok (Console.failed [] s!"Cannot estimate {Shelf.file}: {f.message}") := by
  refine ⟨?_, ?_, rfl, ?_⟩
  · obtain ⟨f, fails, kind⟩ := Outcome.error_of_kind (x := Component.ofRecord [] Shelf.giantSide)
      .overflow (by decide +kernel)
    obtain ⟨-, component, -⟩ := imports_fail_by_value Shelf.giantSide [] "" Console.noSheets
      Shelf.folder Shelf.file f
    exact ⟨f, fails, kind, (component fails).resolve_left (by simp [kind])⟩
  · obtain ⟨f, fails, kind⟩ := Outcome.error_of_kind (x := Component.ofRecord [] Shelf.deepSide)
      .depth (by decide +kernel)
    obtain ⟨-, component, -⟩ := imports_fail_by_value Shelf.deepSide [] "" Console.noSheets
      Shelf.folder Shelf.file f
    exact ⟨f, fails, kind, (component fails).resolve_left (by simp [kind])⟩
  · obtain ⟨f, fails⟩ := Outcome.error_of_fails (x := Console.readProduct Shelf.folder
      (Settings.defaults (.ok Settings.packaged)) Shelf.file) (by decide +kernel)
    refine ⟨f, fails, ?_⟩
    obtain ⟨-, -, -, command⟩ := imports_fail_by_value .null [] "" Console.noSheets Shelf.folder
      Shelf.file f
    rcases command none false none rfl rfl fails with answer | passed
    · exact answer
    · have answered :
          (Console.estimate Console.noSheets Shelf.folder Shelf.file none false).isOk = true := by
        decide +kernel
      rw [passed.1] at answered
      cases answered

end Joinery
