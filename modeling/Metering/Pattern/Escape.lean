import Metering.Pattern.CharClass

/-!
# Escapes and classes in written patterns

What follows a backslash, and what stands between square brackets.  A backslash makes any mark stand
for itself.  Before a letter or a digit it names a class, a control character or a code point, or it
is refused.

There is no table of the names that characters have.  So an escape that names a character, `\N` with
a name in braces, is refused as well, although it is good spelling (`escaped`).
-/

namespace Metering.Pattern

/-- Why a written pattern is refused. -/
inductive SpellingError where
  | badEscape
  | unfinishedClass
  | badRange
  | badRepetition
  | tooManyRepetitions
  | nothingToRepeat
  | repeatedRepetition
  | unknownGroupKind
  | unfinishedGroup
  | unopenedGroup
  | badGroupName
  | repeatedGroupName
  | unknownGroup
  | groupNotClosed
  | tooManyBranches
  | unfinishedComment
  | badFlags
  | lateFlags
  | conflictingFlags
  | variableWidth
deriving DecidableEq, Repr

/-! ### Numbers -/

/-- The value of a hexadecimal digit. -/
def hexValue? (c : Char) : Option Nat :=
  if c.isDigit then some (c.toNat - '0'.toNat)
  else if 'a' ≤ c && c ≤ 'f' then some (c.toNat - 'a'.toNat + 10)
  else if 'A' ≤ c && c ≤ 'F' then some (c.toNat - 'A'.toNat + 10)
  else none

/-- The value of an octal digit. -/
def octalValue? (c : Char) : Option Nat :=
  if '0' ≤ c && c ≤ '7' then some (c.toNat - '0'.toNat) else none

/-- The number written with the given digits at the front of a text, of which at most so many are
taken: how many were, their number, and what follows. -/
def digitsUpTo (base : Nat) (value? : Char → Option Nat) :
    Nat → Nat → List Char → Nat × Nat × List Char
  | 0, n, s => (0, n, s)
  | _, n, [] => (0, n, [])
  | most + 1, n, c :: rest =>
    match value? c with
    | none => (0, n, c :: rest)
    | some d =>
      let (count, n, rest) := digitsUpTo base value? most (base * n + d) rest
      (count + 1, n, rest)

/-- The number of hexadecimal digits of a code point after a letter. -/
def codeLength? : Char → Option Nat
  | 'x' => some 2
  | 'u' => some 4
  | 'U' => some 8
  | _ => none

/-- The code point written with a given number of hexadecimal digits, and what follows it. -/
def codePoint (length : Nat) (s : List Char) : Except SpellingError (Nat × List Char) :=
  let (count, n, rest) := digitsUpTo 16 hexValue? length 0 s
  if count = length && n ≤ 0x10ffff then .ok (n, rest) else .error .badEscape

/-! ### Escapes -/

/-- The code point of the control character that a letter names. -/
def controlCode? : Char → Option Nat
  | 'a' => some 7
  | 't' => some 9
  | 'n' => some 10
  | 'v' => some 11
  | 'f' => some 12
  | 'r' => some 13
  | _ => none

/-- The class that a letter names. -/
def namedClass? : Char → Option ClassItem
  | 'd' => some (.digit false)
  | 'D' => some (.digit true)
  | 'w' => some (.word false)
  | 'W' => some (.word true)
  | 's' => some (.space false)
  | 'S' => some (.space true)
  | _ => none

/-- What a character after a backslash stands for, with what follows, where it is no digit. -/
def escaped (c : Char) (rest : List Char) : Except SpellingError (ClassItem × List Char) :=
  match namedClass? c, controlCode? c, codeLength? c with
  | some i, _, _ => .ok (i, rest)
  | _, some n, _ => .ok (.range n n, rest)
  | _, _, some length => (codePoint length rest).map fun (n, rest) => (.range n n, rest)
  | none, none, none => if c.isAlphanum then .error .badEscape else .ok (.single c, rest)

/-- The greatest code point that three octal digits may stand for. -/
def greatestOctal : Nat := 255

/-- What a character after a backslash stands for within a class.  Digits are octal there, and `b`
is the backspace. -/
def escapedInClass (c : Char) (rest : List Char) : Except SpellingError (ClassItem × List Char) :=
  if c = 'b' then .ok (.range 8 8, rest)
  else if (octalValue? c).isSome then
    let (_, n, rest) := digitsUpTo 8 octalValue? 3 0 (c :: rest)
    if n ≤ greatestOctal then .ok (.range n n, rest) else .error .badEscape
  else escaped c rest

/-! ### Classes -/

/-- The first entry of a class, and what follows it. -/
def classEntry : List Char → Except SpellingError (ClassItem × List Char)
  | '\\' :: c :: rest => escapedInClass c rest
  | '\\' :: [] => .error .badEscape
  | c :: rest => .ok (.single c, rest)
  | [] => .error .unfinishedClass

/-- The range between two entries, which must be single characters in order. -/
def rangeBetween : ClassItem → ClassItem → Except SpellingError ClassItem
  | .range a _, .range b _ => if a ≤ b then .ok (.range a b) else .error .badRange
  | _, _ => .error .badRange

/-- The entries of a class up to its closing bracket, and what follows it.  A closing bracket that
comes first and a hyphen that comes last stand for themselves. -/
def classEntries : Nat → List ClassItem → List Char →
    Except SpellingError (List ClassItem × List Char)
  | 0, _, _ => .error .unfinishedClass
  | fuel + 1, items, s =>
    match s, items with
    | ']' :: rest, _ :: _ => .ok (items, rest)
    | s, items => do
      let (item, rest) ← classEntry s
      match rest with
      | '-' :: ']' :: rest => return (.single '-' :: item :: items, rest)
      | '-' :: rest =>
        let (upper, rest) ← classEntry rest
        classEntries fuel ((← rangeBetween item upper) :: items) rest
      | rest => classEntries fuel (item :: items) rest

/-- The class after an opening bracket, and what follows it; each entry takes a character. -/
def readClass (s : List Char) : Except SpellingError (CharClass × List Char) :=
  let (negated, s) :=
    match s with
    | '^' :: rest => (true, rest)
    | s => (false, s)
  (classEntries (s.length + 1) [] s).map fun (items, rest) => (⟨negated, items⟩, rest)

end Metering.Pattern
