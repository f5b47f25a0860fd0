import Joinery.Text.Span

/-!
Blank characters: the space, the controls that separate lines, files and records, and the typographic
spaces. Zero-width characters are not blank.
-/
namespace Joinery.Text

def blankSpans : List Span := [
    (0x0009, 0x000D), (0x001C, 0x0020), (0x0085, 0x0085), (0x00A0, 0x00A0), (0x1680, 0x1680),
    (0x2000, 0x200A), (0x2028, 0x2029), (0x202F, 0x202F), (0x205F, 0x205F), (0x3000, 0x3000)]

def isBlank (c : Char) : Bool := within blankSpans c

def trimChars (drop : Char → Bool) (cs : List Char) : List Char :=
  ((cs.dropWhile drop).reverse.dropWhile drop).reverse

def trim (s : String) : String := .ofList (trimChars isBlank s.toList)

end Joinery.Text
