import Joinery.Rates.Sheet
import Joinery.Sheet.Column
import Joinery.Surroundings

/-!
Rows of rates out of a file. The columns of a sheet are found by their names.
-/
namespace Joinery.Sheet
open Text Rates

structure SheetColumns where
  kind : Nat
  name : Nat
  rate : Nat
  nameCount : Nat
  deriving DecidableEq, Repr

def columnNames : List String := ["kind", nameColumn, "rate"]

/-- The columns of a name, in any case and with blanks around it. Of columns spelled alike the first
counts alone. -/
def placesOf (name : String) (columns : List String) : List Nat :=
  (List.range columns.length).filter fun i =>
    columns[i]?.any fun c => lower (trim c) = name && !(columns.take i).contains c

def findColumns (file : String) (columns : List String) : Outcome SheetColumns :=
  match placesOf "kind" columns, placesOf nameColumn columns, placesOf "rate" columns with
  | [kind], name :: others, [rate] => .ok ⟨kind, name, rate, others.length + 1⟩
  | _ :: _ :: _, _ :: _, _ :: _ => .error .noSuchPart
  | [_], _ :: _, _ :: _ :: _ => .error .wrongType
  | _, _, _ =>
    .error (.missingColumns file (columnNames.filter fun name => (placesOf name columns).isEmpty))

def rowsOf (s : Sheet) (places : SheetColumns) : List SheetRow :=
  let kinds := (s.column places.kind).map (·.getD "")
  let names := (s.column places.name).texts
  let rates := (s.column places.rate).amounts
  (kinds.zip (names.zip rates)).map fun (kind, name, rate) => ⟨kind, name, rate⟩

def readRows (file text : String) : Outcome SheetContents :=
  match read? text with
  | none => .error (.malformedRateTable file)
  | some sheet => (findColumns file sheet.columns).map fun places => ⟨rowsOf sheet places, places.nameCount⟩

def readRates (s : Surroundings) (path : String) : Outcome SheetContents :=
  match s.file? path with
  | none => .error (.noRateTable (Path.normalize path))
  | some .folder => .error (.isFolder path)
  | some .bytes => .error (.malformedRateTable (Path.name path))
  | some (.text text) => readRows (Path.name path) text

end Joinery.Sheet
