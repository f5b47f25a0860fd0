import Joinery.Fault
import Joinery.Keyed
import Joinery.Number.Literal
import Joinery.Path
import Joinery.Text.Casing.Lower
import Joinery.Text.Casing.Upper

/-!
What a run can see outside of itself: a few variables and the files.
-/
namespace Joinery
open Text

/-- What stands under a path: a text, bytes that are none, or a folder. -/
inductive Contents where
  | text (s : String)
  | bytes
  | folder
  deriving DecidableEq, Repr

/-- The files and their folders stand under the normal spelling of their paths. -/
structure Surroundings where
  home : Option String
  settings : Option String
  logLevel : Option String
  strict : Option String
  files : Keyed Contents

namespace Surroundings

def put (s : Surroundings) (path : String) (contents : Contents) : Surroundings :=
  let files := (Path.folders path).foldl (fun t folder => t.set folder .folder) s.files
  { s with files := files.set (Path.normalize path) contents }

/-- Goes along a path, part by part, with the way so far in reverse. A step up leaves a folder. -/
def walk (s : Surroundings) : List String → List String → Option (List String)
  | way, [] => some way.reverse
  | way, ".." :: rest =>
    match way, s.files.get? (Path.ofParts "" way.reverse) with
    | _ :: outer, some .folder => walk s outer rest
    | _, _ => none
  | way, part :: rest => walk s (part :: way) rest

/-- What stands under a path, spelled as it was put there or as steps from the working folder. -/
def file? (s : Surroundings) (path : String) : Option Contents :=
  (s.files.get? (Path.normalize path)).or do
    let way ← if Path.root path = "" then s.walk [] (Path.parts path) else none
    s.files.get? (Path.ofParts "" way)

/-- The words for yes and no; any other whole number but zero is a yes as well. -/
def readFlag (usual : Bool) : Option String → Bool
  | none => usual
  | some raw =>
    let word := lower (trim raw)
    if word = "" then usual
    else if ["1", "true", "yes", "on"].contains word then true
    else if ["0", "false", "no", "off"].contains word then false
    else match Number.readInt? word with
      | some n => n != 0
      | none => usual

def given (raw : Option String) : Option String := raw.filter (· != "")

def usualLogLevel : String := "INFO"

def logLevelName (s : Surroundings) : String :=
  upper (trim ((given s.logLevel).getD usualLogLevel))

def strictFormulas (s : Surroundings) : Bool := readFlag false s.strict

def settingsPath (s : Surroundings) : Outcome (Option String) :=
  (given s.settings).mapM fun raw =>
    match Path.expand s.home raw with
    | some path => .ok (Path.normalize path)
    | none => .error .unknownHome

end Surroundings
end Joinery
