import Joinery.Text.Blank

/-!
Sheets: texts of rows and of cells between commas, the first row naming the columns. A cell may stand
in double quotes, inside which a quote is written twice. Lines without anything but blanks are no rows.
-/
namespace Joinery.Sheet

inductive Place where
  | cellStart
  | inCell
  | inQuotes
  /-- Behind a quote that closes the cell unless another one follows. -/
  | afterQuote
  deriving DecidableEq, Repr

structure Scan where
  rows : List (List String)
  cells : List String
  chars : List Char
  place : Place
  bare : Bool
  returned : Bool

namespace Scan

def start : Scan := ⟨[], [], [], .cellStart, true, false⟩

def put (s : Scan) (c : Char) (place : Place) : Scan := { s with chars := c :: s.chars, place }

/-- A null character ends the text of a cell. -/
def cell (s : Scan) : String := .ofList (s.chars.reverse.takeWhile (· != '\x00'))

def endCell (s : Scan) : Scan :=
  { s with cells := s.cell :: s.cells, chars := [], place := .cellStart }

def isGap (c : Char) : Bool := c == ' ' || c == '\t'

def isBlankLine (s : Scan) : Bool := s.cells.isEmpty && s.bare && s.chars.all isGap

def endLine (s : Scan) (returned : Bool) : Scan :=
  if s.isBlankLine then { start with rows := s.rows, returned }
  else { start with rows := (s.cell :: s.cells).reverse :: s.rows, returned }

def plain (s : Scan) (c : Char) : Scan :=
  if c = ',' then s.endCell
  else if c = '\r' then s.endLine true
  else if c = '\n' then s.endLine false
  else s.put c .inCell

def step (s : Scan) (c : Char) : Scan :=
  if s.returned && c == '\n' then { s with returned := false }
  else
    let s := { s with returned := false }
    match s.place with
    | .cellStart => if c = '"' then { s with place := .inQuotes, bare := false } else s.plain c
    | .inCell => s.plain c
    | .inQuotes => if c = '"' then { s with place := .afterQuote } else s.put c .inQuotes
    | .afterQuote => if c = '"' then s.put c .inQuotes else s.plain c

/-- A line that has begun ends with the text, but a quoted cell has to be closed. -/
def finish (s : Scan) : Option (List (List String)) :=
  match s.place with
  | .inQuotes => none
  | _ => some (s.endLine false).rows.reverse

end Scan

def scan? (text : String) : Option (List (List String)) :=
  let cs := match text.toList with
    | '\uFEFF' :: rest => rest
    | cs => cs
  (cs.foldl Scan.step Scan.start).finish

end Sheet

open Sheet

structure Sheet where
  columns : List String
  rows : List (List (Option String))

namespace Sheet

abbrev Column := List (Option String)

def missingTexts : List String := [
  "", "#N/A", "#N/A N/A", "#NA", "-1.#IND", "-1.#QNAN", "-NaN", "-nan", "1.#IND", "1.#QNAN", "<NA>",
  "N/A", "NA", "NULL", "NaN", "None", "n/a", "nan", "null"]

def readCell (s : String) : Option String := if missingTexts.contains s then none else some s

/-- Rows may be shorter than the first one, and miss the cells at their ends, but none may be longer.
Where the first row is longer than the columns, the cells in front of every row belong to none. -/
def ofRows? : List (List String) → Option Sheet
  | [] => none
  | columns :: rows =>
    let width := (rows.head?.map List.length).getD 0
    let surplus := width - columns.length
    if rows.all fun row => row.length ≤ max width columns.length then
      some ⟨columns, rows.map fun row => (row.drop surplus).map readCell⟩
    else none

def read? (text : String) : Option Sheet := (scan? text).bind ofRows?

/-- A column by its place; rows that do not reach that far miss their cells. -/
def column (s : Sheet) (place : Nat) : Column := s.rows.map fun row => row[place]?.join

end Sheet
end Joinery
