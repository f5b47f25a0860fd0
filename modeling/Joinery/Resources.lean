import Joinery.Fault
import Joinery.Path

/-!
The files that are packaged with the program.
-/
namespace Joinery.Resources

def files : List String := ["__init__.py", "app_settings.json"]

def find (parts : List String) : Outcome String :=
  let path := Path.normalize ("/".intercalate (parts.flatMap Path.parts))
  if parts.all (fun part => Path.root part = "") && (path = "." || files.contains path) then .ok path
  else .error (.missingResource path)

end Joinery.Resources
