/-!
Sets of characters given as closed spans of code points.
-/
namespace Joinery.Text

abbrev Span := Nat × Nat

def Span.covers (s : Span) (n : Nat) : Bool := s.1 ≤ n && n ≤ s.2

def within (spans : List Span) (c : Char) : Bool := spans.any (·.covers c.toNat)

end Joinery.Text
