import Joinery.Console

/-!
Tables laid out for reading: columns of one width each, the values at their right ends.
-/
namespace Joinery.Console
open Estimate

def cellText : Datum → String
  | .real x => Number.toTwoPlaces x
  | d => d.plain

def padLeft (width : Nat) (s : String) : String :=
  .ofList (List.replicate (width - s.length) ' ') ++ s

def columnWidth (lines : List (List String)) (column : Nat) : Nat :=
  (lines.map fun line => (line.getD column "").length).foldl max 0

def layoutLine (widths : List Nat) (line : List String) : String :=
  " ".intercalate (List.zipWith padLeft widths line)

def layoutTable (t : Table) : String :=
  let lines := t.columns :: t.rows.map fun row => row.map cellText
  let widths := (List.range t.columns.length).map (columnWidth lines)
  "\n".intercalate (lines.map (layoutLine widths))

def Piece.layout : Piece → String
  | .text s => s
  | .table t => layoutTable t

end Joinery.Console
