import Joinery.Catalog.Variable
import Joinery.Formula.Lint
import Joinery.Log

/-!
Calculation logics: formulas with a name, and the variables of a catalog that they use.
-/
namespace Joinery

structure Logic where
  id : String
  name : String
  formula : String
  used : List Variable
  description : String
  isDefault : Bool
  deriving BEq

namespace Logic

def variablesOf (catalog : Catalog) (formula : String) : List Variable :=
  (Formula.names formula).filterMap catalog.find?

def unknownNames (catalog : Catalog) (formula : String) : List String :=
  (Formula.names formula).filter fun name => (catalog.find? name).isNone

def ofFormula (catalog : Catalog) (id name formula description : String) (isDefault : Bool) : Logic :=
  { id, name, formula, used := variablesOf catalog formula, description, isDefault }

/-- What speaks against a formula: any issue in a strict reading, otherwise its parentheses alone. -/
def objections (catalog : Catalog) (strict : Bool) (formula : String) : List String :=
  if strict then (Formula.lint (some catalog.names) formula).map Formula.Issue.message
  else if Formula.balanced (Formula.tokens formula) then []
  else [Formula.Issue.unbalanced.message]

def build (catalog : Catalog) (strict : Bool) (id name formula description : String)
    (isDefault : Bool) : Outcome Logic := do
  catalog.check
  match objections catalog strict formula with
  | [] => return ofFormula catalog id name formula description isDefault
  | issues => .error (.rejectedFormula formula issues)

def buildLog (catalog : Catalog) (name formula : String) : Log :=
  (unknownNames catalog formula).map fun unknown => .warning
    s!"Formula {Text.quoted name} references unknown variable {Text.quoted unknown}"

end Logic
end Joinery
