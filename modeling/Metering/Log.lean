import Metering.Failure

/-!
# The log

What the library has to tell besides its answers goes to a log of leveled messages; a message about
a failure carries the failure.
-/

namespace Metering

/-- How important a message is. -/
inductive Level where
  | debug
  | warning
  | error
deriving DecidableEq, Repr

/-- A message of the log. -/
structure LogEntry where
  level : Level
  message : String
  failure : Option Failure
deriving DecidableEq, Repr

namespace LogEntry

/-- A message for those who look for details. -/
def debug (message : String) : LogEntry := ⟨.debug, message, none⟩

/-- A message about something that was passed over. -/
def warning (message : String) : LogEntry := ⟨.warning, message, none⟩

/-- A message about a failure that was caught. -/
def failed (message : String) (f : Failure) : LogEntry := ⟨.error, message, some f⟩

end LogEntry

end Metering
