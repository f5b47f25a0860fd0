/-!
Cutting a text into runs: the longest stretches of characters of a class, and every other character
on its own.
-/
namespace Joinery.Text

def runs (p : Char → Bool) (cs : List Char) : List (List Char) :=
  cs.splitBy fun a b => p a && p b

def words (p : Char → Bool) (cs : List Char) : List (List Char) :=
  (runs p cs).filter (·.all p)

end Joinery.Text
