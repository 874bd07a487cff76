import Metering.Text.CharRange

/-!
# Characters that messages show as they are

Quoted text shows a printable character as itself and spells every other one as an escape.  Not
printable are the controls, the format characters, the separators other than the space, and the
private use areas.
-/

namespace Metering.Text

/-- The characters that have no shape of their own: controls, format characters, separators other
than the space, surrogates and private use. -/
def unprintable : List CharRange :=
  [⟨0x0, 0x1f⟩, ⟨0x7f, 0xa0⟩, ⟨0xad, 0xad⟩, ⟨0x600, 0x605⟩, ⟨0x61c, 0x61c⟩, ⟨0x6dd, 0x6dd⟩,
   ⟨0x70f, 0x70f⟩, ⟨0x890, 0x891⟩, ⟨0x8e2, 0x8e2⟩, ⟨0x1680, 0x1680⟩, ⟨0x180e, 0x180e⟩,
   ⟨0x2000, 0x200f⟩, ⟨0x2028, 0x202f⟩, ⟨0x205f, 0x2064⟩, ⟨0x2066, 0x206f⟩, ⟨0x3000, 0x3000⟩,
   ⟨0xd800, 0xf8ff⟩, ⟨0xfeff, 0xfeff⟩, ⟨0xfff9, 0xfffb⟩, ⟨0x110bd, 0x110bd⟩,
   ⟨0x110cd, 0x110cd⟩, ⟨0x13430, 0x13438⟩, ⟨0x1bca0, 0x1bca3⟩, ⟨0x1d173, 0x1d17a⟩,
   ⟨0xe0001, 0xe0001⟩, ⟨0xe0020, 0xe007f⟩, ⟨0xf0000, 0xffffd⟩, ⟨0x100000, 0x10fffd⟩]

/-- The character is shown as itself in quoted text. -/
def isPrintable (c : Char) : Bool :=
  !CharRange.covers unprintable c

example : isPrintable ' ' = true := by decide
example : isPrintable '\x7f' = false := by decide
example : isPrintable 'é' = true := by decide

end Metering.Text
