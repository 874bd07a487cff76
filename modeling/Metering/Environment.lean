import Metering.Log
import Metering.Numeral.Integer
import Metering.OrderedMap

/-!
# Settings from the environment

Some settings are read from named texts around the program.  A number of milliseconds must be a
positive integer; anything else is reported and replaced by its default.  The whole library is
disabled by a text that reads `true`, in any case and with white space around it.
-/

namespace Metering

/-- The named texts around the program. -/
abbrev Environment := OrderedMap String String

namespace Environment

/-- The milliseconds between exports. -/
def exportInterval : String := "OTEL_METRIC_EXPORT_INTERVAL"

/-- The greatest delay between attempts, in milliseconds. -/
def exportTimeout : String := "OTEL_METRIC_EXPORT_TIMEOUT"

/-- Whether the library is disabled. -/
def disabledFlag : String := "OTEL_SDK_DISABLED"

/-- The environment with a text set or, without a text, unset. -/
def assign (e : Environment) (name : String) : Option String → Environment
  | some value => e.insert name value
  | none => e.erase name

/-- The milliseconds of a setting, and what there is to report about it. -/
def millis (e : Environment) (name : String) (default : Int) : Int × List LogEntry :=
  match e.get? name with
  | none => (default, [])
  | some value =>
    match Numeral.readInteger? value with
    | none =>
      (default, [.warning ("Found invalid value for " ++ name ++ ": " ++ Text.quote value
        ++ ", using default " ++ toString default)])
    | some n =>
      if n ≤ 0 then
        (default, [.warning (name ++ " must be positive, got " ++ toString n
          ++ ", using default " ++ toString default)])
      else (n, [])

/-- The environment disables the library. -/
def isDisabled (e : Environment) : Bool :=
  match e.get? disabledFlag with
  | none => false
  | some value => (Text.trim Text.isSpace value.toList).map Char.toLower == "true".toList

end Environment

end Metering
