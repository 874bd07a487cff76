import Metering.Binary64.Basic
import Metering.Numeral.Digits
import Metering.Text.Blank

/-!
# Reading doubles

A written double is an optional sign followed by digits with at most one point among or beside
them and an optional power of ten, or by the name of an infinity or of NaN in any case.  Blanks may
surround it.  The result is the double nearest to the written decimal.
-/

namespace Metering.Numeral

open Binary64

/-- The double nearest to `± m * 10 ^ e`, where `m` has the given number of digits.  The bounds on
the leading digit's place only spare the work: beyond them every decimal is infinite or zero. -/
def ofDecimal (negative : Bool) (digits m : Nat) (e : Int) : Binary64 :=
  let place := e + digits
  if m = 0 then .finite negative 0
  else if place > 400 then .infinity negative
  else if e < -400 - (digits : Int) then .finite negative 0
  else ofRatio negative (m * unitsPerOne * Nat.pow 10 e.toNat) (Nat.pow 10 (-e).toNat)

/-- The power of ten at the end of a written double; zero when there is none. -/
def readExponent? : List Char → Option Int
  | [] => some 0
  | c :: rest =>
    if c = 'e' || c = 'E' then
      let signed := sign rest
      match digitRun signed.2 with
      | (d :: ds, []) =>
        let n : Int := ofDigits (d :: ds)
        some (if signed.1 then -n else n)
      | _ => none
    else none

/-- The digits before and after the point, and what follows them. -/
def readMantissa (s : List Char) : List Nat × List Nat × List Char :=
  let whole := digitRun s
  match whole.2 with
  | '.' :: rest => let fraction := digitRun rest; (whole.1, fraction.1, fraction.2)
  | rest => (whole.1, [], rest)

/-- The double a text stands for, if it is one. -/
def readDouble? (s : String) : Option Binary64 :=
  let signed := sign (Text.trim Text.isBlank s.toList)
  let name := String.ofList (signed.2.map Char.toLower)
  if name = "inf" || name = "infinity" then some (.infinity signed.1)
  else if name = "nan" then some .nan
  else
    let (whole, fraction, rest) := readMantissa signed.2
    let digits := (whole ++ fraction).dropWhile (· = 0)
    if whole.isEmpty && fraction.isEmpty then none
    else (readExponent? rest).map fun e =>
      ofDecimal signed.1 digits.length (ofDigits digits) (e - fraction.length)

end Metering.Numeral
