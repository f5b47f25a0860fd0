import Joinery.Component
import Joinery.Text.Key

/-!
Durations guessed from the name of a process: the first kind of work whose keywords occur in the name
decides how the hours follow from area, edges or holes.
-/
namespace Joinery

namespace Numeral

def times : Numeral → Numeral → Outcome Numeral
  | .whole a, .whole b => .ok (.whole (a * b))
  | a, b => do return .real ((← a.toFloat) * (← b.toFloat))

def plus : Numeral → Numeral → Outcome Numeral
  | .whole a, .whole b => .ok (.whole (a + b))
  | a, b => do return .real ((← a.toFloat) + (← b.toFloat))

end Numeral

namespace Duration

inductive Work where
  | cut
  | edge
  | drill
  | assemble
  | sand
  | paint
  deriving DecidableEq, Repr

def Work.label : Work → String
  | .cut => "cut"
  | .edge => "edge"
  | .drill => "drill"
  | .assemble => "assemble"
  | .sand => "sand"
  | .paint => "paint"

def Work.keywords : Work → List String
  | .cut => ["cut", "blank", "切割", "下料"]
  | .edge => ["edge", "封边"]
  | .drill => ["drill", "punch", "钻孔", "打孔"]
  | .assemble => ["assembl", "fitting", "组装", "装配"]
  | .sand => ["sand", "polish", "打磨", "抛光"]
  | .paint => ["paint", "coat", "喷漆", "涂装"]

/-- Hours per square metre, per metre of each banded edge, or per hole. -/
def Work.baseHours : Work → Float
  | .cut => 0.5
  | .edge => 0.3
  | .drill => 0.1
  | .assemble => 0.8
  | .sand => 0.4
  | .paint => 1.2

def occursIn (needle : List Char) : List Char → Bool
  | [] => needle.isEmpty
  | c :: rest => needle.isPrefixOf (c :: rest) || occursIn needle rest

def Work.all : List Work := [.cut, .edge, .drill, .assemble, .sand, .paint]

/-- The first kind of work that has a keyword in the name. -/
def Work.ofName? (name : String) : Option Work :=
  let text := (Text.lower name).toList
  Work.all.find? fun work => work.keywords.any fun keyword => occursIn keyword.toList text

structure Workpiece where
  length : Numeral
  width : Numeral
  thickness : Numeral
  holes : Numeral
  edges : Numeral
  material : String

def Workpiece.ofSubject (s : Subject) : Workpiece where
  length := .real s.size.length
  width := .real s.size.width
  thickness := .real s.size.thickness
  holes := .whole (s.count .hole)
  edges := .whole s.edgeCount
  material := s.material

def Workpiece.squareMetres (w : Workpiece) : Outcome Float := do
  return (← (← w.length.times w.width).toFloat) / 1000000

def Workpiece.edgeMetres (w : Workpiece) : Outcome Float := do
  return 2 * (← (← w.length.plus w.width).toFloat) / 1000

def usualHours : Float := 0.5

def baseHours (work : Option Work) (w : Workpiece) : Outcome Float :=
  match work with
  | none => .ok usualHours
  | some .edge => do return (← w.edgeMetres) * Work.edge.baseHours * (← w.edges.toFloat)
  | some .drill => do return (← w.holes.toFloat) * Work.drill.baseHours
  | some work => do return (← w.squareMetres) * work.baseHours

/-- Boards thicker than this, in millimetres, cost and take more. -/
def thickBoard : Float := 25

def solidWoods : List String := ["solid_wood", "实木板"]
def fireRatedBoards : List String := ["fire_rated_board", "防火板"]

def thicknessFactor (thickness : Numeral) : Float :=
  if (Numeral.real thickBoard).below thickness then 1.2 else 1

def materialFactor (material : String) : Float :=
  let key := Text.key material
  if solidWoods.contains key then 1.3
  else if fireRatedBoards.contains key then 1.1
  else 1

def guessedHours (name : String) (w : Workpiece) : Outcome Float := do
  let hours ← baseHours (Work.ofName? name) w
  return Number.roundHundredths (hours * thicknessFactor w.thickness * materialFactor w.material)

end Duration
end Joinery
