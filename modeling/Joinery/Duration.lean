import Joinery.Catalog.Standard
import Joinery.Duration.Environment
import Joinery.Duration.Heuristic
import Joinery.Formula.Evaluation

/-!
How long an operation takes on a component. A template names the rule that times it; where the template
lacks what the rule needs, its name is all that is left to guess from. A fault in a rule never reaches
the caller: the duration is then 0 and says so.
-/
namespace Joinery

structure Duration where
  minutes : Float
  isOk : Bool
  diagnostic : Option String

namespace Duration

inductive Rule where
  | formula (logic : Logic)
  | heuristic (name : String)
  | efficiency (settings : Efficiency)

def Rule.strategy : Rule → Strategy
  | .formula _ => .formula
  | .heuristic _ => .heuristic
  | .efficiency _ => .efficiency

def Rule.ofTemplate (t : Template) : Rule :=
  match t.strategy, t.logic, t.efficiency with
  | .formula, some logic, _ => .formula logic
  | .efficiency, _, some settings => .efficiency settings
  | _, _, _ => .heuristic t.name

def minutesPerHour : Float := 60

def toMinutes (unit : TimeUnit) (x : Float) : Float :=
  match unit with
  | .minute => x
  | .hour => x * minutesPerHour

/-- The factors are read from the left, and what they are added to comes last. -/
def efficiencyMinutes (e : Efficiency) (s : Subject) : Outcome Float := do
  let sizeFactor ← e.sizeFactor.toFloat
  let ownFactor ← e.complexityFactor.toFloat
  let complexity ← s.complexity
  let base ← e.baseTime.toFloat
  let grown := s.size.squareMetres * sizeFactor * ownFactor * complexity
  return Number.roundHundredths (toMinutes e.unit (base + grown))

def evaluateFormula (catalog : Catalog) (formula : String) (parameters : List Parameter)
    (s : Subject) : Outcome Formula.Evaluation := do
  let values ← environment catalog parameters s
  Formula.evaluate formula fun name => (values.get? name).map Datum.real

def ofEvaluation (e : Formula.Evaluation) : Duration :=
  ⟨Number.roundHundredths e.amount, e.isOk, e.diagnostic⟩

def byFormula (catalog : Catalog) (formula : String) (parameters : List Parameter)
    (s : Subject) : Outcome Duration :=
  (evaluateFormula catalog formula parameters s).map ofEvaluation

def clean (minutes : Float) : Duration := ⟨minutes, true, none⟩

def Rule.compute (rule : Rule) (parameters : List Parameter) (s : Subject) : Outcome Duration :=
  match rule with
  | .formula logic => byFormula Standard.catalog logic.formula parameters s
  | .heuristic name => do
    let hours ← guessedHours name (.ofSubject s)
    return clean (Number.roundHundredths (hours * minutesPerHour))
  | .efficiency settings => (efficiencyMinutes settings s).map clean

def faulted (f : Fault) : Duration := ⟨0, false, some (f.kind.name ++ ": " ++ f.message)⟩

def ofOutcome : Outcome Duration → Duration
  | .ok d => d
  | .error f => faulted f

def compute (t : Template) (parameters : List Parameter) (s : Subject) : Duration :=
  ofOutcome ((Rule.ofTemplate t).compute parameters s)

def computeLog (t : Template) (parameters : List Parameter) (c : Component) : Log :=
  match Rule.ofTemplate t, (Rule.ofTemplate t).compute parameters c with
  | .formula logic, .ok ⟨_, false, diagnostic⟩ =>
    let reason := diagnostic.getD ""
    [.warning
      s!"Formula {Text.quoted logic.name} for component {Text.quoted c.id} failed: {reason}"]
  | _, .ok _ => []
  | _, .error _ =>
    [.error s!"Duration for {t.code} on component {Text.quoted c.id} could not be computed"]

end Duration
end Joinery
