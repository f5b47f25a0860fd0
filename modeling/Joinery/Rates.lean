import Joinery.Datum.Measure
import Joinery.Keyed
import Joinery.Text.Key

/-!
Rates: prices of materials per square metre and of equipment per hour, looked up by the key of a name,
with a fallback for unknown names.
-/
namespace Joinery

structure RateTable where
  materials : Keyed Float
  equipment : Keyed Float
  materialFallback : Numeral
  equipmentFallback : Numeral

namespace Rates

def materialPrices : Keyed Float := [
  ("solid_wood", 120), ("density_board", 45), ("mdf", 45), ("particle_board", 35),
  ("multilayer_board", 60), ("plywood", 50), ("medium_fiber_board", 40),
  ("fire_rated_board", 80), ("eco_board", 70),
  ("实木板", 120), ("密度板", 45), ("中密度纤维板", 45), ("刨花板", 35), ("多层板", 60), ("胶合板", 50),
  ("中纤板", 40), ("防火板", 80), ("生态板", 70)]

def equipmentRates : Keyed Float := [
  ("cutting_saw", 80), ("cnc_cutter", 120), ("edge_bander", 100), ("drilling_machine", 90),
  ("assembly_tools", 60), ("sander", 70), ("spray_booth", 150), ("packaging_equipment", 50),
  ("切割机", 80), ("数控切割机", 120), ("封边机", 100), ("钻孔机", 90), ("组装工具", 60), ("打磨机", 70),
  ("喷漆设备", 150), ("包装设备", 50)]

def usualMaterialPrice : Float := 50
def usualEquipmentRate : Float := 80

def lookup (table : Keyed Float) (name : Datum) (fallback : Numeral) : Outcome Float := do
  match table.get? (Text.key (← name.givenText)) with
  | some x => return x
  | none => fallback.toFloat

def readEntry (kind name : String) (d : Datum) : Outcome (String × Float) := do
  let key := Text.key name
  if key = "" then .error (.emptyRateName kind)
  match ← d.finite? with
  | some x => if x < 0 then refuse (.badRate kind name d) else return (key, x)
  | none => refuse (.badRate kind name d)

/-- Rates under the keys of their names; of names with one key the last counts. -/
def readTable (kind : String) (entries : Keyed Datum) : Outcome (Keyed Float) :=
  (entries.mapM fun entry => readEntry kind entry.1 entry.2).map Keyed.ofPairs

def readMaterials (entries : Keyed Datum) : Outcome (Keyed Float) := readTable "material" entries

def readEquipment (entries : Keyed Datum) : Outcome (Keyed Float) := readTable "equipment" entries

def loose (table : Keyed Float) : Keyed Datum := table.map fun entry => (entry.1, .real entry.2)

end Rates

namespace RateTable
open Rates

def make (materials equipment : Keyed Datum) (materialFallback equipmentFallback : Numeral) :
    Outcome RateTable := do
  let materials ← readMaterials materials
  let equipment ← readEquipment equipment
  return { materials, equipment, materialFallback, equipmentFallback }

def standard : RateTable where
  materials := materialPrices
  equipment := equipmentRates
  materialFallback := .real usualMaterialPrice
  equipmentFallback := .real usualEquipmentRate

def materialPrice (t : RateTable) (material : Datum) : Outcome Float :=
  lookup t.materials material t.materialFallback

def equipmentRate (t : RateTable) (equipment : Datum) : Outcome Float :=
  if equipment.isGiven then lookup t.equipment equipment t.equipmentFallback
  else t.equipmentFallback.toFloat

def override (t : RateTable) (materials equipment : Keyed Datum) : Outcome RateTable := do
  let materials ← readMaterials materials
  let equipment ← readEquipment equipment
  make (loose (t.materials.setAll materials)) (loose (t.equipment.setAll equipment))
    t.materialFallback t.equipmentFallback

end RateTable
end Joinery
