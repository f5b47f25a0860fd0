import Joinery.Choice
import Joinery.Datum.Measure
import Joinery.Formula.Token

/-!
Variables: the names that a formula may use, with a fallback value and bounds.
-/
namespace Joinery

inductive VariableKind where
  | dimension
  | count
  | area
  | volume
  | complexity
  | custom
  deriving DecidableEq, Repr

instance : Choice VariableKind where
  field := "variable kind"
  options := [.dimension, .count, .area, .volume, .complexity, .custom]
  label
    | .dimension => "dimension"
    | .count => "count"
    | .area => "area"
    | .volume => "volume"
    | .complexity => "complexity"
    | .custom => "custom"

structure Variable where
  name : String
  kind : VariableKind
  unit : String
  description : String
  fallback : Option Numeral
  least : Option Numeral
  most : Option Numeral
  deriving BEq

namespace Variable

def ordered? (name : String) : Option Numeral → Option Numeral → Outcome Unit
  | some least, some most =>
    if most.below least then refuse (.crossedBounds name least most) else .ok ()
  | _, _ => .ok ()

def make (name : String) (kind : Datum) (unit description : String)
    (fallback least most : Option Numeral) : Outcome Variable := do
  let kind ← Choice.read kind
  ordered? name least most
  return { name, kind, unit, description, fallback, least, most }

def isBelow (x : Float) (bound : Option Numeral) : Bool :=
  bound.any (Numeral.real x).below

def isAbove (x : Float) (bound : Option Numeral) : Bool :=
  bound.any (·.below (.real x))

def boundOr (bound : Option Numeral) (x : Float) : Outcome Float :=
  match bound with
  | some n => n.toFloat
  | none => .ok x

def clamp (v : Variable) (x : Float) : Outcome Float :=
  if isBelow x v.least then boundOr v.least x
  else if isAbove x v.most then boundOr v.most x
  else .ok x

end Variable

abbrev Catalog := List Variable

namespace Catalog

def find? (catalog : Catalog) (name : String) : Option Variable :=
  List.find? (fun v => v.name == name) catalog

def names (catalog : Catalog) : List String := List.map Variable.name catalog

def checkFrom : List String → Catalog → Outcome Unit
  | _, [] => .ok ()
  | taken, v :: rest =>
    if !Formula.isName v.name then .error (.notIdentifier v.name)
    else if taken.contains v.name then .error (.repeatedVariable v.name)
    else checkFrom (v.name :: taken) rest

/-- Every variable of a catalog has a name that a formula can use, and no two share one. -/
def check (catalog : Catalog) : Outcome Unit := checkFrom [] catalog

end Catalog
end Joinery
