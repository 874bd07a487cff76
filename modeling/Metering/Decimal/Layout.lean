import Metering.Decimal.Shortest

/-!
# How a decimal is laid out

The digits of a number are laid out positionally while its decimal exponent is moderate and with a
power of ten otherwise.  A `Layout` holds the decisions; `Layout.standard` is the one of this
library's messages.
-/

namespace Metering.Decimal

/-- The decisions about the text of a number. -/
structure Layout where
  /-- The least decimal exponent written positionally. -/
  lowest : Int
  /-- The least decimal exponent that is again written with a power of ten. -/
  highest : Int
  /-- The least number of digits of a written exponent. -/
  exponentWidth : Nat
deriving DecidableEq, Repr

/-- Positional from `10 ^ -4` up to below `10 ^ 16`, exponents of two digits at least. -/
def Layout.standard : Layout := ⟨-4, 16, 2⟩

/-- The written exponent: a sign and at least the given number of digits. -/
def exponentText (width : Nat) (e : Int) : String :=
  let digits := toString e.natAbs
  (if e < 0 then "-" else "+") ++ "".pushn '0' (width - digits.length) ++ digits

/-- The text of a positive decimal. -/
def Layout.text (layout : Layout) (d : Digits) : String :=
  let digits := (toString d.significand).toList
  let count : Int := digits.length
  let exponent := d.exponent + count - 1
  if layout.lowest ≤ exponent && exponent < layout.highest then
    if 0 ≤ d.exponent then
      String.ofList digits ++ "".pushn '0' d.exponent.toNat ++ ".0"
    else if 0 ≤ exponent then
      let whole := (exponent + 1).toNat
      String.ofList (digits.take whole) ++ "." ++ String.ofList (digits.drop whole)
    else
      "0." ++ "".pushn '0' (-exponent - 1).toNat ++ String.ofList digits
  else
    let fraction := digits.drop 1
    String.ofList (digits.take 1) ++ (if fraction.isEmpty then "" else "." ++ String.ofList fraction)
      ++ "e" ++ exponentText layout.exponentWidth exponent

end Metering.Decimal

namespace Metering.Binary64

/-- The text of a double: the shortest decimal that reads back, always with a mark that tells it
from an integer. -/
def text : Binary64 → String
  | .nan => "nan"
  | .infinity negative => if negative then "-inf" else "inf"
  | .finite negative units =>
    (if negative then "-" else "")
      ++ (if units = 0 then "0.0" else Decimal.Layout.standard.text (Decimal.shortest units))

end Metering.Binary64
