import Metering.Number

/-!
# Delays between attempts

The delays double from one second until they reach a cap, and stay at the cap from then on.  While
they double they are whole numbers; the cap is a double, and one that is not positive, or NaN,
holds from the start.

No delay is too long for a timer to wait for: each is at most one second longer than all the delays
before it together, so that it would take centuries to get there.
-/

namespace Metering.Delivery

/-- The delay after the attempt of the given number, counted from zero. -/
def delay (cap : Binary64) (attempt : Nat) : Number :=
  let doubled := Number.integer (Nat.pow 2 attempt)
  if doubled.lt (.double cap) then doubled else .double cap

/-- The seconds of a number of milliseconds; nothing if it is too large for a double. -/
def seconds? (millis : Number) : Option Binary64 :=
  millis.toBinary64?.map (·.divNat 1000)

end Metering.Delivery
