import Joinery.Text.Runs

/-!
Paths of files, brought to one spelling: no empty parts and no parts that stand for the folder itself.
Two slashes in front are kept, any other number of them is one.
-/
namespace Joinery.Path
open Text

def parts (path : String) : List String :=
  ((words (· != '/') path.toList).map String.ofList).filter (· != ".")

def root (path : String) : String :=
  match path.toList with
  | '/' :: '/' :: '/' :: _ => "/"
  | '/' :: '/' :: _ => "//"
  | '/' :: _ => "/"
  | _ => ""

def ofParts (root : String) (parts : List String) : String :=
  let spelled := root ++ "/".intercalate parts
  if spelled = "" then "." else spelled

def normalize (path : String) : String := ofParts (root path) (parts path)

def folders (path : String) : List String :=
  (List.range (parts path).length).map fun n => ofParts (root path) ((parts path).take n)

def name (path : String) : String := ((parts path).getLast?).getD ""

/-- A home folder takes the place of a leading tilde. A tilde with a name asks for the home of somebody
else, which is not known. -/
def expand (home : Option String) (path : String) : Option String :=
  match root path, parts path with
  | "", first :: rest =>
    if first = "~" then home.map fun folder => "/".intercalate (folder :: rest)
    else if first.toList.head? = some '~' then none
    else some path
  | _, _ => some path

end Joinery.Path
