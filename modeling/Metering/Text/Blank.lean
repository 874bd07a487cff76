import Metering.Text.CharRange

/-!
# Blank characters

Two tables of blanks.  `isBlank` is the white space that may surround a written number.
`isSpace` adds the four information separators U+001C to U+001F, which trimming removes too but
which no number tolerates.  `trim` removes characters of a class from both ends of a text.
-/

namespace Metering.Text

/-- The blanks that may surround a written number. -/
def blanks : List CharRange :=
  [⟨0x9, 0xd⟩, ⟨0x20, 0x20⟩, ⟨0x85, 0x85⟩, ⟨0xa0, 0xa0⟩, ⟨0x1680, 0x1680⟩, ⟨0x2000, 0x200a⟩,
   ⟨0x2028, 0x2029⟩, ⟨0x202f, 0x202f⟩, ⟨0x205f, 0x205f⟩, ⟨0x3000, 0x3000⟩]

/-- The character may stand before or after a written number. -/
def isBlank (c : Char) : Bool :=
  CharRange.covers blanks c

/-- The character is white space for trimming: a blank or an information separator. -/
def isSpace (c : Char) : Bool :=
  isBlank c || CharRange.contains ⟨0x1c, 0x1f⟩ c.toNat

/-- The text without the characters of the class at its two ends. -/
def trim (p : Char → Bool) (s : List Char) : List Char :=
  ((s.dropWhile p).reverse.dropWhile p).reverse

example : isBlank '\n' = true := by decide
example : trim isBlank [' ', 'a', ' ', 'b', '\t'] = ['a', ' ', 'b'] := by decide

end Metering.Text
