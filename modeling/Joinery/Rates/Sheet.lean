import Joinery.Estimate.Defaults
import Joinery.Log
import Joinery.Text.Casing.Lower

/-!
Rows of rates: a kind, a name and a rate in each. Rows without a usable rate or with an unknown kind are
passed over and counted; rows without a name are passed over. Where the rows come from is left open.
-/
namespace Joinery.Rates
open Text

inductive Kind where
  | material
  | equipment
  deriving DecidableEq, Repr

def readKind? (s : String) : Option Kind :=
  match lower (trim s) with
  | "material" => some .material
  | "equipment" => some .equipment
  | _ => none

/-- A row as its cells give it. What is missing is empty, or is no rate. -/
structure SheetRow where
  kind : String
  name : String
  rate : Option Float

structure SheetRate where
  kind : Kind
  name : String
  rate : Float

def SheetRow.usable? (r : SheetRow) : Option SheetRate := do
  let rate ← r.rate
  let kind ← readKind? r.kind
  if rate.isNaN || rate < 0 then none else some ⟨kind, r.name, rate⟩

/-- The rows of a sheet, and how many of its columns give names. -/
structure SheetContents where
  rows : List SheetRow
  nameCount : Nat

def nameColumn : String := "name"

/-- Where several columns give names, no row has a name of its own: as many rows count as there are such
columns, all under the name of the columns. -/
def named (nameCount : Nat) (rates : List SheetRate) : List SheetRate :=
  if nameCount = 1 then rates
  else (rates.take nameCount).map fun r => { r with name := nameColumn }

def sheetRates (kind : Kind) (rates : List SheetRate) : Keyed Float :=
  Keyed.ofPairs ((rates.filter fun r => r.kind = kind).filterMap fun r =>
    if key r.name = "" then none else some (key r.name, r.rate))

def overlay (base : RateTable) (rates : List SheetRate) : Outcome RateTable :=
  base.override (loose (sheetRates .material rates)) (loose (sheetRates .equipment rates))

def ofRows (base : RateTable) (rows : List SheetRow) : Outcome RateTable :=
  overlay base (rows.filterMap SheetRow.usable?)

def ofContents (base : Outcome RateTable) (contents : SheetContents) : Outcome RateTable := do
  overlay (← base) (named contents.nameCount (contents.rows.filterMap SheetRow.usable?))

def unusable (rows : List SheetRow) : Nat := rows.countP fun r => r.usable?.isNone

def skipLog (file : String) (rows : List SheetRow) : Log :=
  match unusable rows with
  | 0 => []
  | skipped => [.warning s!"Skipping {skipped} unusable row(s) in {file}"]

end Joinery.Rates
