import Joinery.Estimate.Defaults
import Joinery.Json.Reader
import Joinery.Json.Writer
import Joinery.Log
import Joinery.Record.Field
import Joinery.Surroundings

/-!
Settings: the packaged ones, with those of a file merged over them. Whoever needs a part of them finds
out then whether it is usable.
-/
namespace Joinery.Settings

def version : Int := 1

def packaged : Record := [
  ("version", .int version),
  ("pricing_defaults", .object [
    ("params", .object [
      ("hourly_rate", .real 50),
      ("overhead_rate", .real 0.2)])]),
  ("rate_overrides", .object [
    ("materials", .object []),
    ("equipment", .object [])])]

mutual

/-- The second value, except that two objects are merged field by field. -/
def merge (base : Datum) : Datum → Datum
  | .object fields =>
    match base with
    | .object known => .object (mergeFields known fields)
    | _ => .object fields
  | d => d

/-- Known names keep their places and new ones follow. -/
def mergeFields (known : Record) : List (String × Datum) → Record
  | [] => known
  | (name, d) :: rest =>
    mergeFields (Keyed.set known name (merge ((known.lookup name).getD .null) d)) rest

end

def parse (path : String) : Contents → Outcome Record
  | .folder => .error (.isFolder path)
  | .bytes => .error .badEncoding
  | .text s => do
    match ← Json.read (.malformedSettings (Path.name path)) s with
    | .object fields => return fields
    | _ => throw (.settingsNotAnObject (Path.name path))

/-- A fault of the settings themselves is reported as one of the file that overrides. -/
def ofOverride : Outcome Record → Outcome Record
  | .ok r => .ok r
  | .error f => .error (if f.kind = .settings then .badOverride f else f)

def merged (s : Surroundings) : Outcome Record := do
  match ← s.settingsPath with
  | none => return packaged
  | some path =>
    match s.file? path with
    | none => return packaged
    | some contents => (ofOverride (parse path contents)).map (mergeFields packaged)

def mostCopied : Nat := 495

/-- Whoever asks for settings is given a copy of them, which cannot be taken of values that lie too deep
in one another. -/
def copied (settings : Record) : Outcome Record :=
  if (Datum.object settings).deeperThan mostCopied then .error .nestedTooDeep else .ok settings

def load (s : Surroundings) : Outcome Record := (merged s).bind copied

def loadLog (s : Surroundings) : Log :=
  match s.settingsPath with
  | .ok (some path) =>
    if (s.file? path).isSome then []
    else [.warning s!"Override settings path does not exist: {path}"]
  | _ => []

def checkVersion (d : Datum) : Outcome Unit :=
  let agrees := match d with
    | .bool b => b
    | .int n => n == version
    | .real x => x == 1
    | _ => false
  if agrees then .ok () else refuse (.unknownSettingsVersion d)

def section? (settings : Record) (name : String) : Outcome Record :=
  match settings.value "pricing_defaults" with
  | .object sections =>
    match Record.value sections name with
    | .object fields => .ok fields
    | _ => .error (.noSettingsSection name)
  | _ => .error .noPricingDefaults

def readRate (fields : Record) (name : String) (usual : Float) : Outcome Numeral :=
  (fields.valueOr name (.real usual)).toFloat.map .real

def params (settings : Record) : Outcome EstimateParameters := do
  let fields ← section? settings "params"
  let read : Outcome (Numeral × Numeral) := do
    let hourlyRate ← readRate fields "hourly_rate" EstimateParameters.usualHourlyRate
    let overheadRate ← readRate fields "overhead_rate" EstimateParameters.usualOverheadRate
    return (hourlyRate, overheadRate)
  let (hourlyRate, overheadRate) ← read.within .badParameters
  EstimateParameters.make hourlyRate overheadRate

def entries (d : Datum) : Outcome Record :=
  match d with
  | .object fields => .ok fields
  | d => if d.isGiven then .error .noSuchPart else .ok []

def readOverrides (fields : Record) : Outcome RateTable := do
  let materials ← entries (fields.value "materials")
  discard (Rates.readMaterials materials)
  let equipment ← entries (fields.value "equipment")
  RateTable.standard.override materials equipment

def rates (settings : Record) : Outcome RateTable :=
  match settings.value "rate_overrides" with
  | .object fields => (readOverrides fields).within .badRates
  | d => if d.isGiven then .error .ratesNotAnObject else .ok .standard

def defaults (settings : Outcome Record) : Defaults where
  rates := settings.bind rates
  params := settings.bind params

def write (indent : Option Nat) (version data : Datum) : String :=
  Json.write (Json.settingsLayout indent) (.object [("version", version), ("data", data)])

def describe (s : Surroundings) (settings : Outcome Record) : Outcome (Keyed String) := do
  let path ← s.settingsPath
  let params ← settings.bind params
  let hourlyRate ← params.hourlyRate.toFloat
  let overheadRate ← params.overheadRate.toFloat
  return [
    ("log_level", s.logLevelName),
    ("strict_formulas", (Datum.bool s.strictFormulas).shown),
    ("settings_path", path.getD ""),
    ("hourly_rate", Number.toSixDigits hourlyRate),
    ("overhead_rate", Number.toSixDigits overheadRate)]

/-! Settings are kept once they are loaded, and copied each time that they are asked for. They are loaded
again only where a reload is asked for, and a load that fails leaves what was kept. -/

structure Loading where
  settings : Outcome Record
  kept : Option Record
  log : Log

def loadAnew (s : Surroundings) (kept : Option Record) : Loading :=
  ⟨load s, (merged s).toOption.or kept, loadLog s⟩

def loadKept (s : Surroundings) (kept : Option Record) (reload : Bool) : Loading :=
  match kept with
  | some r => if reload then loadAnew s kept else ⟨copied r, kept, []⟩
  | none => loadAnew s kept

end Joinery.Settings
