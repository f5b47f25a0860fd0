import Joinery.Console.Arguments

/-!
Requests: what the program can be asked to do.
-/
namespace Joinery.Console

inductive Command where
  | estimate (product : String) (rateFile : Option String) (asJson : Bool)
  | checkFormula (formula : String) (strict : Bool)
  deriving DecidableEq, Repr

structure Request where
  printsSettings : Bool
  command : Option Command
  deriving DecidableEq, Repr

def helpOptions : Grammar := [⟨"-h", false⟩, ⟨"--help", false⟩]

def lineGrammar : Grammar := helpOptions ++ [⟨"--print-env", false⟩, ⟨"--log-level", true⟩]

def estimateGrammar : Grammar := helpOptions ++ [⟨"--rate-file", true⟩, ⟨"--json", false⟩]

def checkGrammar : Grammar := helpOptions ++ [⟨"--strict", false⟩]

def operandOf (f : Found) : Except Stop String :=
  match f.operand, f.surplus with
  | some arg, false => .ok arg
  | _, _ => .error .misuse

def readCommand (name : String) (args : List String) : Except Stop Command :=
  match name with
  | "estimate" => do
    let f ← collect .none false (read estimateGrammar args)
    let product ← operandOf f
    return .estimate product ((f.value? "--rate-file").filter (· ≠ "")) (f.has "--json")
  | "check-formula" => do
    let f ← collect .none false (read checkGrammar args)
    let formula ← operandOf f
    return .checkFormula formula (f.has "--strict")
  | _ => .error .misuse

def Request.read (args : List String) : Except Stop Request := do
  let line ← collectLine .none (Console.read lineGrammar args)
  let command ← line.command.mapM fun (name, args) => readCommand name args
  if line.options.surplus then .error .misuse
  else return {
    printsSettings := line.options.has "--print-env"
    command }

def usage : String :=
"usage: furniture-estimator [-h] [--print-env] [--log-level LOG_LEVEL]
                           \x7bestimate,check-formula\x7d ...

Formula-driven time and cost estimates for furniture products

positional arguments:
  \x7bestimate,check-formula\x7d
    estimate            Recalculate a product JSON export.
    check-formula       Validate a formula and list its variables.

options:
  -h, --help            show this help message and exit
  --print-env           Print a JSON dump of the resolved runtime
                        configuration and exit.
  --log-level LOG_LEVEL
                        Override the log level (defaults to
                        FURNITURE_ESTIMATOR_LOG_LEVEL or INFO).
"

end Joinery.Console
