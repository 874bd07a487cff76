/-!
# Clocks

A clock gives the times, in nanoseconds since the epoch, that collections put on their points.  A
manual clock moves only when told to.  What a system clock shows is not known here; its readings
never reach an answer, and zero stands for all of them.
-/

namespace Metering

/-- A source of times. -/
inductive Clock where
  | manual (time : Int)
  | system
deriving DecidableEq, Repr, Inhabited

namespace Clock

/-- Where a manual clock starts unless told otherwise: 2019-05-07, seven o'clock. -/
def defaultStart : Int := 1557212400000000000

/-- The time the clock shows. -/
def now : Clock → Int
  | .manual time => time
  | .system => 0

/-- The times of the clock are known. -/
def isManual : Clock → Bool
  | .manual _ => true
  | .system => false

/-- The clock set to a time. -/
def setTo (time : Int) : Clock → Clock
  | .manual _ => .manual time
  | .system => .system

/-- The clock moved on by nanoseconds, or back if they are negative. -/
def advance (nanos : Int) (c : Clock) : Clock := c.setTo (c.now + nanos)

/-- The nanoseconds of some milliseconds. -/
def nanosOfMillis (millis : Int) : Int := millis * 1000000

end Clock

end Metering
