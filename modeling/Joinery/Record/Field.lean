import Joinery.Datum.Measure

/-!
Records: objects that stand for one thing of the workshop. Their fields are loosely typed, and one that
is absent or stands for nothing takes a default.
-/
namespace Joinery

def Datum.asRecord (kind : String) : Datum → Outcome Record
  | .object fields => .ok fields
  | d => .error (.notAnObject kind d)

namespace Record

def need (kind key : String) (r : Record) : Outcome Datum :=
  match r.lookup key with
  | some d => .ok d
  | none => .error (.missingField kind key)

def valueOr (r : Record) (key : String) (otherwise : Datum) : Datum := (r.lookup key).getD otherwise

def value (r : Record) (key : String) : Datum := r.valueOr key .null

def text (r : Record) (key : String) : Outcome String := (r.value key).givenText

def needText (kind key : String) (r : Record) : Outcome String := do (← r.need kind key).asText

def items (r : Record) (key : String) : Outcome (List Datum) :=
  if (r.value key).isGiven then (r.value key).elements else .ok []

def amount? (r : Record) (key : String) : Outcome (Option Numeral) :=
  match r.value key with
  | .null => .ok none
  | d => d.toFloat.map fun x => some (.real x)

def part? (r : Record) (key : String) : Option Datum :=
  if (r.value key).isGiven then some (r.value key) else none

end Record

/-- Reads records in their order, each beside what the ones before it brought. -/
def readEach (read : κ → Datum → Outcome (α × κ)) : κ → List Datum → Outcome (List α × κ)
  | known, [] => .ok ([], known)
  | known, d :: rest => do
    let (a, known) ← read known d
    let (others, known) ← readEach read known rest
    return (a :: others, known)

/-- A fault in a value or in its type is reported as a fault of the record that holds it. -/
def Outcome.within (wrap : Fault → Fault) : Outcome α → Outcome α
  | .ok a => .ok a
  | .error f => .error (if f.isOfValue || f.kind = .type then (wrap f).raised else f)

end Joinery
