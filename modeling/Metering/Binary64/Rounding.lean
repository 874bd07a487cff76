/-!
# Rounding to a binary precision

Magnitudes are natural numbers of some unit.  `nearest num den` is the natural number nearest to
`num / den`, an exact tie going to the even one; `significand num den` is the nearest magnitude
that has at most `precision` significant bits, with no bound on its size.
-/

namespace Metering.Binary64

/-- The number of significant bits of a double. -/
def precision : Nat := 53

/-- The natural number nearest to `num / den`; a tie goes to the even neighbour. -/
def nearest (num den : Nat) : Nat :=
  let q := num / den
  let twice := 2 * (num % den)
  if twice < den then q
  else if twice = den then q + q % 2
  else q + 1

/-- How many low bits a magnitude has beyond the precision. -/
def excess (magnitude : Nat) : Nat :=
  magnitude.log2 + 1 - precision

/-- The magnitude of at most `precision` significant bits that is nearest to `num / den`. -/
def significand (num den : Nat) : Nat :=
  let step := Nat.pow 2 (excess (num / den))
  nearest num (den * step) * step

/-- The nearest natural number is one of the two neighbours of the quotient. -/
theorem nearest_eq_or (num den : Nat) :
    nearest num den = num / den ∨ nearest num den = num / den + 1 := by
  unfold nearest
  dsimp only
  split
  · exact Or.inl rfl
  · split
    · rcases Nat.mod_two_eq_zero_or_one (num / den) with h | h
      · exact Or.inl (by omega)
      · exact Or.inr (by omega)
    · exact Or.inr rfl

/-- A natural number is nearest to itself. -/
theorem nearest_one (n : Nat) : nearest n 1 = n := by
  simp [nearest, Nat.mod_one]

/-- A magnitude below `2 ^ precision` needs no rounding. -/
theorem significand_of_lt {n : Nat} (h : n < Nat.pow 2 precision) : significand n 1 = n := by
  have hlog : excess n = 0 := by
    unfold excess
    rcases Nat.eq_zero_or_pos n with rfl | hn
    · decide
    · have := (Nat.log2_lt (Nat.pos_iff_ne_zero.1 hn)).2 h
      omega
  simp [significand, hlog, nearest_one]

end Metering.Binary64
