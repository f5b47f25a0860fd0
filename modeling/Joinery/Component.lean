import Joinery.Component.Feature
import Joinery.Component.Operation
import Joinery.Component.Size

/-!
Components: furniture parts with their geometry, material, features and operations.
-/
namespace Joinery

inductive Complexity where
  | simple
  | medium
  | complex
  deriving DecidableEq, Repr

instance : Choice Complexity where
  field := "complexity"
  options := [.simple, .medium, .complex]
  label
    | .simple => "simple"
    | .medium => "medium"
    | .complex => "complex"

def Complexity.factor : Complexity → Float
  | .simple => 1
  | .medium => 1.3
  | .complex => 1.8

/-- The factor of a label, which has to match in everything but case and surrounding blanks. -/
def complexityFactor (label : Datum) : Outcome Float := do
  let options : List Complexity := Choice.options
  let wanted := Text.lower (Text.trim (← label.asText))
  match options.find? fun c => Choice.label c == wanted with
  | some c => return c.factor
  | none => .error (.unknownComplexity label (options.map Choice.label))

structure Component where
  id : String
  name : String
  size : Size
  material : String
  quantity : Nat
  complexity : Complexity
  features : List Feature
  operations : List Operation
  code : String
  edgeCount : Nat
  notes : String
  deriving BEq

namespace Component

def operation? (c : Component) (id : String) : Outcome Operation :=
  match c.operations.find? fun p => p.id == id with
  | some p => .ok p
  | none => .error (.noOperation c.id id)

def feature? (c : Component) (id : String) : Outcome Feature :=
  match c.features.find? fun f => f.id == id with
  | some f => .ok f
  | none => .error (.noFeature c.id id)

end Component

/-- What the rules of durations see of a component: no operation, and its labels and features only as
numbers, as far as these can be taken. -/
structure Subject where
  size : Size
  material : String
  complexity : Outcome Float
  featureFactor : Outcome Float
  quantity : Int
  count : FeatureType → Int
  edgeCount : Int

def Component.subject (c : Component) : Subject where
  size := c.size
  material := c.material
  complexity := .ok c.complexity.factor
  featureFactor := Feature.factor c.features
  quantity := c.quantity
  count type := Feature.countOf type c.features
  edgeCount := c.edgeCount

instance : Coe Component Subject := ⟨Component.subject⟩

end Joinery
