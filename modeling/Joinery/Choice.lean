import Joinery.Fault
import Joinery.Text.Blank
import Joinery.Text.Runs
import Joinery.Text.Casing.Lower

/-!
Labels out of a fixed list. Case, surrounding blanks and the difference between a hyphen, an
underscore and a blank do not matter.
-/
namespace Joinery
open Text

def isLabelGap (c : Char) : Bool := isBlank c || c == '_'

def hyphenated (cs : List Char) : List Char :=
  (runs isLabelGap cs).flatMap fun run => if run.all isLabelGap then ['-'] else run

def labelForm (s : String) : String := .ofList (hyphenated (lower (trim s)).toList)

def choose (label : α → String) (options : List α) (field : String) (d : Datum) : Outcome α := do
  let given ← d.givenText
  match options.find? fun a => label a == labelForm given with
  | some a => return a
  | none => .error (.unknownChoice field d (options.map label))

/-- A type whose values are the labels of one field. -/
class Choice (α : Type) where
  field : String
  options : List α
  label : α → String

def Choice.read [Choice α] (d : Datum) : Outcome α :=
  choose Choice.label Choice.options (Choice.field α) d

def Datum.ofChoice [Choice α] (a : α) : Datum := .text (Choice.label a)

end Joinery
