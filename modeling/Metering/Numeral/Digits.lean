import Metering.Text.DecimalDigit

/-!
# Runs of digits

A written number is made of runs of digits of any script.  Single underscores may separate digits
of a run; an underscore that is not between two digits ends it.
-/

namespace Metering.Numeral

open Text

/-- The text with an underscore at its front removed, if a digit follows. -/
def skipUnderscore : List Char → List Char
  | '_' :: c :: rest => if (digitValue? c).isSome then c :: rest else '_' :: c :: rest
  | s => s

theorem length_skipUnderscore_le (s : List Char) : (skipUnderscore s).length ≤ s.length := by
  unfold skipUnderscore
  split
  · split <;> simp
  · exact Nat.le_refl _

/-- The digits at the front of a text, and what follows them. -/
def digitRun : List Char → List Nat × List Char
  | [] => ([], [])
  | c :: rest =>
    match digitValue? c with
    | none => ([], c :: rest)
    | some d =>
      let run := digitRun (skipUnderscore rest)
      (d :: run.1, run.2)
termination_by s => s.length
decreasing_by
  have := length_skipUnderscore_le rest
  simp
  omega

/-- The number that digits, most significant first, stand for. -/
def ofDigits (digits : List Nat) : Nat :=
  digits.foldl (fun n d => 10 * n + d) 0

/-- A leading sign, and what follows it; `true` for a minus. -/
def sign : List Char → Bool × List Char
  | '-' :: rest => (true, rest)
  | '+' :: rest => (false, rest)
  | s => (false, s)

end Metering.Numeral
