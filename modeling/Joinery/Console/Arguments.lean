import Joinery.Text.Digit

/-!
Command lines: options that begin with a hyphen, some with a value behind them, and operands. A long
option may be shortened as long as one option fits. Behind a divider of two hyphens all arguments are
operands.
-/
namespace Joinery.Console
open Text

structure Opt where
  name : String
  takesValue : Bool

abbrev Grammar := List Opt

/-- How an argument reads on its own. What is attached to an option stands behind an equals sign, or
behind the letter of an option that is one letter. -/
inductive Reading where
  | operand
  | option (o : Opt) (attached : Option String)
  | unknown
  | ambiguous

def startsWith (start : String) (s : String) : Bool := start.toList.isPrefixOf s.toList

def splitAtEquals (arg : String) : String × Option String :=
  let front := arg.toList.takeWhile (· != '=')
  match arg.toList.drop front.length with
  | _ :: back => (.ofList front, some (.ofList back))
  | [] => (arg, none)

/-- A minus sign before digits with at most one point. One line end may follow. -/
def isNegativeNumber (arg : String) : Bool :=
  match arg.toList with
  | '-' :: cs =>
    let cs := if cs.getLast? = some '\n' then cs.dropLast else cs
    match cs.dropWhile isDigit with
    | [] => !cs.isEmpty
    | '.' :: fraction => !fraction.isEmpty && fraction.all isDigit
    | _ => false
  | _ => false

/-- All options that an argument may be a short form of, with what is attached to them. -/
def candidates (g : Grammar) (arg : String) : List (Opt × Option String) :=
  if startsWith "--" arg then
    let (front, value) := splitAtEquals arg
    (g.filter fun o => startsWith front o.name).map fun o => (o, value)
  else
    let letter := String.ofList (arg.toList.take 2)
    (g.filter fun o => o.name = letter).map fun o => (o, some (.ofList (arg.toList.drop 2)))

def readShortened (g : Grammar) (arg : String) : Reading :=
  match candidates g arg with
  | [(o, attached)] => .option o attached
  | [] => if isNegativeNumber arg || arg.toList.contains ' ' then .operand else .unknown
  | _ => .ambiguous

def readArgument (g : Grammar) (arg : String) : Reading :=
  if !startsWith "-" arg || arg = "-" then .operand
  else
    let (front, value) := splitAtEquals arg
    match g.find? (·.name = arg), g.find? (·.name = front), value with
    | some o, _, _ => .option o none
    | none, some o, some value => .option o value
    | _, _, _ => readShortened g arg

def divider : String := "--"

def isOperand (g : Grammar) (arg : String) : Bool :=
  match readArgument g arg with
  | .operand => arg ≠ divider
  | _ => false

def isAmbiguous (g : Grammar) (arg : String) : Bool :=
  match readArgument g arg with
  | .ambiguous => true
  | _ => false

inductive Event where
  | option (name : String) (value : Option String)
  | operand (arg : String) (rest : List String)
  | divider (rest : List String)
  | surplus
  | misuse

/-- Attached to the letter of a switch can only be the letters of more switches. -/
def switches (g : Grammar) (attached : List Char) : Option (List Event) :=
  attached.mapM fun c =>
    let name := String.ofList ['-', c]
    if g.any fun o => o.name = name && !o.takesValue then some (.option name none) else none

def events (g : Grammar) : List String → List Event
  | [] => []
  | arg :: rest =>
    if arg = divider then [.divider rest]
    else
      match readArgument g arg with
      | .operand => .operand arg rest :: events g rest
      | .unknown => .surplus :: events g rest
      | .ambiguous => [.misuse]
      | .option o (some attached) =>
        if o.takesValue then .option o.name (some attached) :: events g rest
        else if startsWith "--" o.name || attached = "" then [.misuse]
        else match switches g attached.toList with
          | some joined => .option o.name none :: joined ++ events g rest
          | none => [.misuse]
      | .option o none =>
        if o.takesValue then
          match rest with
          | value :: rest =>
            if isOperand g value then .option o.name (some value) :: events g rest else [.misuse]
          | [] => [.misuse]
        else .option o.name none :: events g rest

/-- An argument that fits several options spoils the whole line. -/
def read (g : Grammar) (args : List String) : List Event :=
  if (args.takeWhile (· ≠ divider)).any (isAmbiguous g) then [.misuse] else events g args

inductive Stop where
  | help
  | misuse
  deriving DecidableEq, Repr

def isHelp (name : String) : Bool := name = "-h" || name = "--help"

structure Found where
  operand : Option String
  options : List (String × Option String)
  surplus : Bool

namespace Found

def none : Found := ⟨.none, [], false⟩

def has (f : Found) (name : String) : Bool := (f.options.lookup name).isSome

def value? (f : Found) (name : String) : Option String := (f.options.reverse.lookup name).join

def withOption (f : Found) (name : String) (value : Option String) : Found :=
  { f with options := f.options ++ [(name, value)] }

/-- All arguments behind a divider are operands. The divider itself may stand in front of the operand
or directly behind it. -/
def behindDivider (f : Found) (directly : Bool) (rest : List String) : Found :=
  match f.operand, rest with
  | .none, arg :: more => { f with operand := arg, surplus := f.surplus || !more.isEmpty }
  | .none, [] => f
  | some _, rest => { f with surplus := f.surplus || !directly || !rest.isEmpty }

end Found

/-- Reads on behind an operand or not. Help is given where it is asked for, before later misuse. -/
def collect : Found → Bool → List Event → Except Stop Found
  | f, _, [] => .ok f
  | f, _, .option name value :: rest =>
    if isHelp name then .error .help else collect (f.withOption name value) false rest
  | f, _, .operand arg _ :: rest =>
    match f.operand with
    | none => collect { f with operand := some arg } true rest
    | some _ => collect { f with surplus := true } false rest
  | f, directly, .divider rest :: _ => .ok (f.behindDivider directly rest)
  | f, _, .surplus :: rest => collect { f with surplus := true } false rest
  | _, _, .misuse :: _ => .error .misuse

structure Line where
  options : Found
  command : Option (String × List String)

def collectLine : Found → List Event → Except Stop Line
  | f, [] => .ok ⟨f, none⟩
  | f, .option name value :: rest =>
    if isHelp name then .error .help else collectLine (f.withOption name value) rest
  | f, .operand arg rest :: _ => .ok ⟨f, some (arg, rest)⟩
  | f, .surplus :: rest => collectLine { f with surplus := true } rest
  | _, .divider _ :: _ => .error .misuse
  | _, .misuse :: _ => .error .misuse

end Joinery.Console
