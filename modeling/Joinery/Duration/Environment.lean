import Joinery.Component
import Joinery.Keyed

/-!
What a formula can see of a component: the fallback values of a catalog, over them the component's own
values, over those the numeric parameters of the operation, and all of them within the catalog's bounds.
-/
namespace Joinery.Duration

def fallbacks (catalog : Catalog) : Outcome (Keyed Float) := do
  let entries ← catalog.filterMapM fun v =>
    match v.fallback with
    | some n => n.toFloat.map fun x => some (v.name, x)
    | none => .ok none
  return Keyed.ofPairs entries

/-- The complexity is read first, and nothing is counted if it has no factor. -/
def ownValues (s : Subject) : Outcome (Keyed Float) := do
  let complexity ← s.complexity
  let featureFactor ← s.featureFactor
  let quantity ← (Numeral.whole s.quantity).toFloat
  let counts ← (Feature.counts s.count).mapM fun entry =>
    (Numeral.whole entry.2).toFloat.map fun x => (entry.1, x)
  return [("length", s.size.length), ("width", s.size.width), ("thickness", s.size.thickness),
    ("area", s.size.area), ("volume", s.size.volume), ("complexity", complexity),
    ("featureFactor", featureFactor), ("quantity", quantity)] ++ counts

def parameterValues (parameters : List Parameter) : Outcome (Keyed Float) :=
  parameters.filterMapM fun p =>
    p.value.finite?.map fun
      | some x => if p.name = "" then none else some (p.name, x)
      | none => none

def clampEntry (v : Variable) (values : Keyed Float) : Outcome (Keyed Float) :=
  match values.get? v.name with
  | some x => (v.clamp x).map fun clamped => values.set v.name clamped
  | none => .ok values

def environment (catalog : Catalog) (parameters : List Parameter) (s : Subject) :
    Outcome (Keyed Float) := do
  let base ← fallbacks catalog
  let own ← ownValues s
  let given ← parameterValues parameters
  catalog.foldlM (fun values v => clampEntry v values) ((base.setAll own).setAll given)

def describe (values : Keyed Datum) : Outcome String := do
  let parts ← values.mapM fun entry =>
    match entry.2 with
    | .text _ => .error .textAsNumber
    | d => d.toFloat.map fun x => entry.1 ++ "=" ++ Number.toSixDigits x
  return ", ".intercalate parts

end Joinery.Duration
