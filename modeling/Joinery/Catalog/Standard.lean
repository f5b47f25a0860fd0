import Joinery.Catalog.Template

/-!
The reference data of the workshop: its variables, logics, efficiencies and process templates.
-/
namespace Joinery.Standard

def entry (name : String) (kind : VariableKind) (unit description : String)
    (fallback : Option Numeral) : Variable :=
  { name, kind, unit, description, fallback, least := none, most := none }

def catalog : Catalog := [
  entry "length" .dimension "mm" "Component length" none,
  entry "width" .dimension "mm" "Component width" none,
  entry "thickness" .dimension "mm" "Component thickness" none,
  entry "area" .area "mm²" "Component area" none,
  entry "volume" .volume "mm³" "Component volume" none,
  entry "complexity" .complexity "" "Complexity factor" (some (.real 1)),
  entry "holeCount" .count "pcs" "Number of holes" (some (.whole 0)),
  entry "grooveCount" .count "pcs" "Number of grooves" (some (.whole 0)),
  entry "chamferCount" .count "pcs" "Number of chamfers" (some (.whole 0)),
  entry "roundingCount" .count "pcs" "Number of roundings" (some (.whole 0)),
  entry "featureFactor" .custom "" "Feature impact factor" (some (.real 1)),
  entry "quantity" .count "pcs" "Component quantity" (some (.whole 1))]

def logic (id name formula description : String) : Logic :=
  Logic.ofFormula catalog id name formula description false

def cutting : Logic :=
  { logic "1" "Basic cutting" "5 + (area / 10000) * 0.5 * complexity * featureFactor"
      "Base cutting time plus area, complexity and feature impact" with isDefault := true }

def drilling : Logic :=
  logic "2" "Drilling" "2 + holeCount * 0.5 * complexity" "Base drilling time plus hole count"

def edgeBanding : Logic :=
  logic "3" "Edge banding" "3 + (length + width) * 2 / 1000 * complexity"
    "Base banding time plus perimeter"

def grooving : Logic :=
  logic "4" "Grooving" "4 + grooveCount * 1.5 * complexity" "Base grooving time plus groove count"

def sanding : Logic :=
  logic "5" "Sanding" "4 + (area / 10000) * 0.4 * complexity" "Base sanding time plus area"

def assembly : Logic :=
  logic "6" "Assembly" "8 + (length + width) / 1000 * 0.5 * complexity"
    "Base assembly time plus size"

def painting : Logic :=
  logic "7" "Painting" "15 + (area / 10000) * 0.8 * complexity" "Base painting time plus area"

def inspection : Logic :=
  logic "8" "Inspection" "3 + (area / 10000) * 0.1" "Base inspection time plus area"

def logics : List Logic :=
  [cutting, drilling, edgeBanding, grooving, sanding, assembly, painting, inspection]

def efficiency (id processName : String) (baseTime : Int) (sizeFactor : Float)
    (description : String) : Efficiency where
  id := id
  processName := processName
  baseTime := .whole baseTime
  sizeFactor := .real sizeFactor
  complexityFactor := .real 1
  unit := .minute
  description := description

def efficiencies : List Efficiency := [
  efficiency "1" "Cutting" 5 0.5 "Precision cutting to drawing",
  efficiency "2" "Edge banding" 3 0.3 "Band the cut panel edges",
  efficiency "3" "Drilling" 2 0.1 "Drill holes per design",
  efficiency "4" "Sanding" 4 0.4 "Surface sanding",
  efficiency "5" "Assembly" 8 0.2 "Assemble the parts",
  efficiency "6" "Painting" 15 0.8 "Surface spray painting",
  efficiency "7" "Inspection" 3 0.1 "Quality inspection"]

def start : Moment := ⟨⟨2024, 1, 1⟩, 0, 0, 0, 0, some 0⟩

def template (id code name : String) (category : Category) (logic : Logic)
    (equipment materials : List String) (description : String) : Template where
  id := id
  code := code
  name := name
  category := category
  logic := some logic
  strategy := .formula
  efficiency := none
  equipment := equipment
  materials := materials
  isActive := true
  description := description
  createdAt := start
  updatedAt := start

def templates : List Template := [
  template "1" "CUT" "Cutting" .cutting cutting ["cnc_cutter"] ["board"] "Cut panels to drawing",
  template "2" "DRILL" "Drilling" .drilling drilling ["drilling_machine"] ["drill_bit"]
    "Drill holes per design",
  template "3" "EDGE" "Edge banding" .edging edgeBanding ["edge_bander"] ["edge_tape", "glue"]
    "Band the cut panel edges",
  template "4" "GROOVE" "Grooving" .cutting grooving ["grooving_machine"] ["groove_cutter"]
    "Cut grooves into panels",
  template "5" "SAND" "Sanding" .sanding sanding ["sander"] ["sandpaper"] "Sand the surfaces",
  template "6" "ASSEMBLE" "Assembly" .assembly assembly ["assembly_tools"]
    ["screws", "connectors"] "Assemble the parts",
  template "7" "PAINT" "Painting" .finishing painting ["spray_booth"] ["paint"]
    "Spray paint the surfaces",
  template "8" "INSPECT" "Inspection" .inspection inspection ["inspection_tools"] []
    "Quality inspection"]

end Joinery.Standard
