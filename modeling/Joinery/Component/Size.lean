import Joinery.Datum.Measure

/-!
Sizes of panels in millimetres, and what follows from them.
-/
namespace Joinery

structure Size where
  length : Float
  width : Float
  thickness : Float
  deriving BEq

namespace Size

def make (length width thickness : Datum) : Outcome Size := do
  let length ← length.nonNegative "length"
  let width ← width.nonNegative "width"
  let thickness ← thickness.nonNegative "thickness"
  return { length, width, thickness }

def area (s : Size) : Float := s.length * s.width

def volume (s : Size) : Float := s.length * s.width * s.thickness

def squareMetres (s : Size) : Float := s.area / 1000000

def perimeterMetres (s : Size) : Float := 2 * (s.length + s.width) / 1000

end Size
end Joinery
