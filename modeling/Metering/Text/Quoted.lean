import Metering.Text.Printable

/-!
# Quoted text

Messages show a text between quotation marks.  The mark is the single quote, unless the text has a
single quote and no double quote.  A backslash and the mark in use are written after a backslash,
line feed, carriage return and tab have letters of their own, and any other unprintable character
is spelled by its code point in two, four or eight hexadecimal digits.

`escape` is the form of one character; `quote` concatenates the forms between two marks.
-/

namespace Metering.Text

/-- The lower-case hexadecimal digits of a number, padded with zeros to the given width. -/
def hexadecimal (width n : Nat) : List Char :=
  let digits := Nat.toDigits 16 n
  List.replicate (width - digits.length) '0' ++ digits

/-- The quotation mark for a text: single, unless that would need an escape and a double one would
not. -/
def quotationMark (s : List Char) : Char :=
  if s.contains '\'' && !s.contains '"' then '"' else '\''

/-- The spelling of an unprintable character by its code point. -/
def escapeCode (code : Nat) : List Char :=
  if code < 0x100 then '\\' :: 'x' :: hexadecimal 2 code
  else if code < 0x10000 then '\\' :: 'u' :: hexadecimal 4 code
  else '\\' :: 'U' :: hexadecimal 8 code

/-- The form of one character between two marks. -/
def escape (mark c : Char) : List Char :=
  if c = mark || c = '\\' then ['\\', c]
  else if c = '\n' then ['\\', 'n']
  else if c = '\r' then ['\\', 'r']
  else if c = '\t' then ['\\', 't']
  else if isPrintable c then [c]
  else escapeCode c.toNat

/-- The text between quotation marks, with escapes. -/
def quote (s : String) : String :=
  let mark := quotationMark s.toList
  String.ofList (mark :: (s.toList.flatMap (escape mark) ++ [mark]))

example : escape '\'' 'a' = ['a'] := by decide
example : escape '\'' '\x7f' = ['\\', 'x', '7', 'f'] := by decide +kernel
example : quotationMark ['i', 't', '\'', 's'] = '"' := by decide

end Metering.Text
