import Metering.Binary64.Basic

/-!
# Doubles as words

A double is exchanged as a word of 64 bits: a sign, eleven bits of exponent and 52 bits of
fraction.  In units of `2 ^ -1074` the word of a finite magnitude is simple: below `2 ^ 52` it is
the number of units itself, and above, with `k` bits beyond the precision, it is `k * 2 ^ 52` plus
the leading 53 bits.  All NaNs are exchanged as one word.
-/

namespace Metering.Binary64

/-- The number of bits of a stored fraction. -/
def fractionBits : Nat := 52

/-- The weight of the exponent field in a word. -/
def exponentWeight : Nat := Nat.pow 2 fractionBits

/-- The weight of the sign in a word. -/
def signWeight : Nat := Nat.pow 2 63

/-- The exponent field of infinities and NaNs. -/
def lastExponent : Nat := 2047

/-- The double a word stands for. -/
def ofBits (word : Nat) : Binary64 :=
  let negative := decide (word / signWeight % 2 = 1)
  let exponent := word / exponentWeight % 2048
  let fraction := word % exponentWeight
  if exponent = lastExponent then
    if fraction = 0 then .infinity negative else .nan
  else if exponent = 0 then .finite negative fraction
  else .finite negative ((exponentWeight + fraction) * Nat.pow 2 (exponent - 1))

/-- The word of a finite magnitude of at most 53 significant bits, without its sign. -/
def magnitudeBits (units : Nat) : Nat :=
  let k := excess units
  k * exponentWeight + units / Nat.pow 2 k

/-- The word that stands for a double. -/
def toBits : Binary64 → Nat
  | .nan => 0x7ff8000000000000
  | .infinity negative => (if negative then signWeight else 0) + lastExponent * exponentWeight
  | .finite negative units => (if negative then signWeight else 0) + magnitudeBits units

example : ofBits 0x3ff0000000000000 = ofInt 1 := by decide +kernel
example : toBits (ofInt (-2)) = 0xc000000000000000 := by decide +kernel
example : toBits (ofBits 0x000fffffffffffff) = 0x000fffffffffffff := by decide +kernel
example : toBits (ofBits 0x7fefffffffffffff) = 0x7fefffffffffffff := by decide +kernel

end Metering.Binary64
