import Joinery.Console.Layout
import Joinery.Sheet.Rows

/-!
The command line: reads the variables and the files that a request names, and prints its report.
-/
open Joinery Console

def readContents (path : String) : IO (Option Contents) :=
  try
    let bytes ← IO.FS.readBinFile path
    return some ((String.fromUTF8? bytes).elim .bytes .text)
  catch
    | .inappropriateType .. => return some .folder
    | _ => return none

def putFile (s : Surroundings) (path : String) : IO Surroundings := do
  return (← readContents path).elim s (s.put path)

def inputPaths : Request → List String
  | ⟨_, some (.estimate product rateFile _)⟩ => product :: rateFile.toList
  | _ => []

def surroundingsOf (paths : List String) : IO Surroundings := do
  let home ← IO.getEnv "HOME"
  let settings ← IO.getEnv "FURNITURE_ESTIMATOR_SETTINGS"
  let logLevel ← IO.getEnv "FURNITURE_ESTIMATOR_LOG_LEVEL"
  let strict ← IO.getEnv "FURNITURE_ESTIMATOR_STRICT"
  let bare : Surroundings := ⟨home, settings, logLevel, strict, []⟩
  let settingsPath := bare.settingsPath.toOption.join
  (settingsPath.toList ++ paths).foldlM putFile bare

def printReport (r : Report) : IO UInt32 := do
  for piece in r.output do
    IO.print piece.layout
  for entry in r.log do
    IO.eprintln entry.text
  return r.code.toUInt32

def main (args : List String) : IO UInt32 := do
  let paths := match Request.read args with
    | .ok r => inputPaths r
    | .error _ => []
  let surroundings ← surroundingsOf paths
  match run Sheet.readRates surroundings args with
  | .ok (.reported r) => printReport r
  | .ok (.stopped stop) =>
    match stop with
    | .help => IO.print usage
    | .misuse => IO.eprint usage
    return stop.code.toUInt32
  | .error f =>
    IO.eprintln f.message
    return 1
