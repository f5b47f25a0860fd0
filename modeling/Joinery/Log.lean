/-!
Entries of the log, for the reader of a run. An entry never changes a result.
-/
namespace Joinery

inductive LogLevel where
  | warning
  | error
  deriving DecidableEq, Repr

structure LogEntry where
  level : LogLevel
  text : String
  deriving DecidableEq, Repr

abbrev Log := List LogEntry

def loggerName (parts : List String) : String := ".".intercalate ("furniture_estimator" :: parts)

def LogEntry.warning (text : String) : LogEntry := ⟨.warning, text⟩
def LogEntry.error (text : String) : LogEntry := ⟨.error, text⟩

end Joinery
