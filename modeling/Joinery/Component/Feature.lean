import Joinery.Choice
import Joinery.Datum.Measure

/-!
Features of a component: what is worked into it, and how often.
-/
namespace Joinery

inductive FeatureType where
  | hole
  | groove
  | chamfer
  | rounding
  | custom
  deriving DecidableEq, Repr

instance : Choice FeatureType where
  field := "feature type"
  options := [.hole, .groove, .chamfer, .rounding, .custom]
  label
    | .hole => "hole"
    | .groove => "groove"
    | .chamfer => "chamfer"
    | .rounding => "rounding"
    | .custom => "custom"

structure Feature where
  id : String
  type : FeatureType
  count : Nat
  size : Option Float
  position : Datum
  name : String
  description : String
  deriving BEq

namespace Feature

def readSize (field : String) : Datum → Outcome (Option Float)
  | .null => .ok none
  | d => (d.nonNegative field).map some

def readCount (d : Datum) : Outcome Nat := d.count 0 "feature count"

def make (id : String) (type count size position : Datum) (name description : String) :
    Outcome Feature := do
  let type ← Choice.read type
  let count ← readCount count
  let size ← readSize "feature size" size
  return { id, type, count, size, position, name, description }

def countName? : FeatureType → Option String
  | .hole => some "holeCount"
  | .groove => some "grooveCount"
  | .chamfer => some "chamferCount"
  | .rounding => some "roundingCount"
  | .custom => none

def weight : FeatureType → Float
  | .hole => 0.10
  | .groove => 0.20
  | .chamfer => 0.15
  | .rounding => 0.25
  | .custom => 0

def countOf (type : FeatureType) (features : List Feature) : Nat :=
  ((features.filter fun f => f.type = type).map Feature.count).sum

def counts (count : FeatureType → ι) : List (String × ι) :=
  [FeatureType.hole, .groove, .chamfer, .rounding].filterMap fun type =>
    (countName? type).map fun name => (name, count type)

def shareOf (weight : Float) (count : Int) : Outcome Float :=
  (Numeral.whole count).toFloat.map (· * weight)

def share (f : Feature) : Outcome Float := shareOf (weight f.type) f.count

def factorOf (shares : Outcome (List Float)) : Outcome Float := do
  match Number.sum? (← shares) with
  | some total => return 1 + total
  | none => .error .sumTooLarge

def factor (features : List Feature) : Outcome Float := factorOf (features.mapM share)

end Feature
end Joinery
