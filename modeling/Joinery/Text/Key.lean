import Joinery.Text.Runs
import Joinery.Text.Word
import Joinery.Text.Casing.Fold

/-!
The key of a name: its words in folded case, joined by single underscores. Names that differ only in
case, spacing or punctuation have one key.
-/
namespace Joinery.Text

def isKeyChar (c : Char) : Bool := isWordChar c && c != '_'

def keyChars (cs : List Char) : List Char :=
  ['_'].intercalate (words isKeyChar (foldCase cs))

def key (name : String) : String := .ofList (keyChars name.toList)

end Joinery.Text
