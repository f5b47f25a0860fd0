import Joinery.Console.Request
import Joinery.Estimate.Breakdown
import Joinery.Product.Edit
import Joinery.Rates.Sheet
import Joinery.Record.Product
import Joinery.Settings

/-!
The program on the command line: each request answered by a report, which holds what is printed, what is
logged as an error and the exit code.
-/
namespace Joinery.Console
open Estimate

inductive Piece where
  | text (s : String)
  | table (t : Table)

structure Report where
  code : Nat
  output : List Piece
  log : Log

inductive Ending where
  | stopped (stop : Stop)
  | reported (r : Report)

def Stop.code : Stop → Nat
  | .help => 0
  | .misuse => 2

def done (output : List Piece) (log : Log) : Report := ⟨0, output, log⟩

def failed (output : List Piece) (message : String) : Report := ⟨1, output, [.error message]⟩

def readProduct (s : Surroundings) (defaults : Defaults) (path : String) : Outcome Product :=
  if path.toList.contains '\x00' then .error .nullInPath
  else match s.file? path with
  | none | some .folder => .error (.unreadableProduct (Path.normalize path))
  | some .bytes => .error .badEncoding
  | some (.text text) =>
    match Product.read defaults text with
    | .ok p => .ok p
    | .error f => .error (if f.isOfValue then .inProductFile (Path.name path) f else f)

/-- What reads the rows of rates in a file is given from outside. -/
abbrev SheetReader := Surroundings → String → Outcome Rates.SheetContents

def noSheets : SheetReader := fun _ path => .error (.noRateTable path)

def readRates (sheets : SheetReader) (s : Surroundings) (defaults : Defaults) (path : Option String) :
    Outcome (Option RateTable) :=
  path.mapM fun path => (sheets s path).bind (Rates.ofContents defaults.rates)

structure Inputs where
  rates : Option RateTable
  product : Product

def readInputs (sheets : SheetReader) (s : Surroundings) (defaults : Defaults) (product : String)
    (rateFile : Option String) : Outcome Inputs := do
  let rates ← readRates sheets s defaults rateFile
  let product ← readProduct s defaults product
  return ⟨rates, product⟩

def failures (p : Product) : Log :=
  (p.components.flatMap Component.durationLog).filter fun e => e.level = .error

def repeated (n : Nat) (log : Log) : Log := (List.replicate n log).flatten

/-- Reading a product calculates its times three times over, and taking its totals anew two times. -/
def readingPasses : Nat := 5

def totalLines (t : ProductTotals) (completion : Float) : String :=
  s!"Total time:     {Number.toTwoPlaces t.totalTime} min\n" ++
  s!"Material cost:  {Number.toTwoPlaces t.materialCost}\n" ++
  s!"Process cost:   {Number.toTwoPlaces t.processCost}\n" ++
  s!"Total cost:     {Number.toTwoPlaces t.totalCost}\n" ++
  s!"Labor cost:     {Number.toTwoPlaces t.laborCost}\n" ++
  s!"Estimated cost: {Number.toTwoPlaces t.estimatedCost}\n" ++
  s!"Completion:     {Number.toTwoPlaces completion}%\n"

def jsonReport (defaults : Defaults) (p : Product) : Outcome Report := do
  let text ← p.write defaults (some Product.usualIndent)
  return done [.text (text ++ "\n")] (repeated (readingPasses + 1) (failures p))

/-- In the breakdown the time and the cost of each operation are calculated apart. -/
def tableReport (defaults : Defaults) (rates : Option RateTable) (p : Product) (totals : ProductTotals) :
    Outcome Report := do
  let rates ← defaults.ratesOr rates
  let operations ← operationRows rates p
  let components ← componentSummary rates p
  let log := repeated readingPasses (failures p) ++
    (failures p).flatMap (fun e => [e, e]) ++ failures p
  return done [
    .text s!"Product {p.id}: {p.name}\n\n",
    .table (operationTable operations),
    .text "\n\n",
    .table (componentTable components),
    .text ("\n\n" ++ totalLines totals p.completion)] log

/-- A fault that an input can be blamed for ends in a report; any other one is passed on. -/
def blamesInput (f : Fault) : Bool := f.kind = .settings || f.isOfValue

def estimate (sheets : SheetReader) (s : Surroundings) (product : String) (rateFile : Option String)
    (asJson : Bool) : Outcome Report :=
  let defaults := Settings.defaults (Settings.load s)
  match readInputs sheets s defaults product rateFile with
  | .error f =>
    if blamesInput f then .ok (failed [] s!"Cannot estimate {product}: {f.message}") else .error f
  | .ok inputs => do
    let (p, totals) := inputs.product.recalculate defaults inputs.rates none
    let totals ← totals
    if asJson then jsonReport defaults p else tableReport defaults inputs.rates p totals

def checkFormula (strict : Bool) (formula : String) : Report :=
  let balanced := Formula.balanced (Formula.tokens formula)
  let issues := Formula.lint (some Standard.catalog.names) formula
  let names := ", ".intercalate (Formula.names formula)
  let shownNames := if names = "" then "-" else names
  let lines := [s!"balanced:  {(Datum.bool balanced).shown}\n", s!"variables: {shownNames}\n"] ++
    issues.map fun issue => s!"issue:     {issue.message}\n"
  let output := lines.map Piece.text
  if !balanced || strict && !issues.isEmpty then
    failed output s!"Formula rejected: {Text.quoted formula}"
  else done output []

def printSettings (s : Surroundings) : Outcome Report :=
  match Settings.describe s (Settings.load s) with
  | .ok entries =>
    let d := Datum.object (entries.map fun entry => (entry.1, .text entry.2))
    .ok (done [.text (Json.write (Json.settingsLayout (some Product.usualIndent)) d), .text "\n"] [])
  | .error f =>
    if f.kind = .settings then .ok (failed [] s!"Invalid configuration: {f.message}") else .error f

def answer (sheets : SheetReader) (s : Surroundings) (r : Request) : Outcome Report :=
  if r.printsSettings then printSettings s
  else match r.command with
    | some (.estimate product rateFile asJson) => estimate sheets s product rateFile asJson
    | some (.checkFormula formula strict) => .ok (checkFormula (strict || s.strictFormulas) formula)
    | none => .ok ⟨1, [.text usage], []⟩

def run (sheets : SheetReader) (s : Surroundings) (args : List String) : Outcome Ending :=
  match Request.read args with
  | .error stop => .ok (.stopped stop)
  | .ok r => do
    discard s.settingsPath
    (answer sheets s r).map .reported

end Joinery.Console
