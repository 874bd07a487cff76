import Metering.Numeral.Digits
import Metering.Text.Blank

/-!
# Reading integers

A written integer is an optional sign and a run of digits, with blanks allowed around it.
-/

namespace Metering.Numeral

/-- A written integer may not have more digits than this. -/
def maxDigits : Nat := 4300

/-- The integer a text stands for, if it is one. -/
def readInteger? (s : String) : Option Int :=
  let signed := sign (Text.trim Text.isBlank s.toList)
  match digitRun signed.2 with
  | (d :: ds, []) =>
    if (d :: ds).length ≤ maxDigits then
      let n : Int := ofDigits (d :: ds)
      some (if signed.1 then -n else n)
    else none
  | _ => none

end Metering.Numeral
