/-!
# Character classes

A class is a list of entries, or all characters outside of one.  Entries are ranges of code points
and the named classes.  Only names are ever matched, and names consist of ASCII letters, digits and
a few marks; so the named classes are the ASCII ones.  Patterns may still be written in any script.

Case can be ignored among the ASCII letters only or among all letters.  In the second manner four
characters beyond ASCII stand for ASCII letters too, as those letters are among their case variants.
-/

namespace Metering

/-- Which differences of case are ignored. -/
inductive Folding where
  | none
  | ascii
  | full
deriving DecidableEq, Repr

/-- The letters beyond ASCII that differ from an ASCII letter only in case. -/
def foreignVariants (c : Char) : List Nat :=
  match c.toLower with
  | 'i' => [0x130, 0x131]
  | 'k' => [0x212a]
  | 's' => [0x17f]
  | _ => []

/-- The code points that stand for a character. -/
def Folding.variants (f : Folding) (c : Char) : List Nat :=
  match f with
  | .none => [c.toNat]
  | .ascii => [c.toLower.toNat, c.toUpper.toNat]
  | .full => c.toLower.toNat :: c.toUpper.toNat :: foreignVariants c

/-- The two characters count as one. -/
def Folding.same (f : Folding) (a b : Char) : Bool :=
  match f with
  | .none => a = b
  | .ascii | .full => a.toLower = b.toLower

/-- A character of words. -/
def isWordChar (c : Char) : Bool := c.isAlphanum || c = '_'

/-- One entry of a character class: a range of code points, or one of the named classes or its
complement. -/
inductive ClassItem where
  | range (first last : Nat)
  | digit (negated : Bool)
  | word (negated : Bool)
  | space (negated : Bool)
deriving DecidableEq, Repr

namespace ClassItem

/-- The entry of one character. -/
def single (c : Char) : ClassItem := .range c.toNat c.toNat

/-- The entry has the character. -/
def has (i : ClassItem) (f : Folding) (c : Char) : Bool :=
  match i with
  | .range first last => (f.variants c).any fun n => decide (first ≤ n) && decide (n ≤ last)
  | .digit negated => c.isDigit != negated
  | .word negated => isWordChar c != negated
  | .space negated => c.isWhitespace != negated

end ClassItem

/-- A set of characters. -/
structure CharClass where
  negated : Bool
  items : List ClassItem
deriving DecidableEq, Repr

namespace CharClass

/-- The class has the character. -/
def has (k : CharClass) (f : Folding) (c : Char) : Bool :=
  (k.items.any (·.has f c)) != k.negated

/-- The class of one entry. -/
def ofItem (i : ClassItem) : CharClass := ⟨false, [i]⟩

/-- The class of one character. -/
def single (c : Char) : CharClass := ofItem (.single c)

/-- Every character but the line feed. -/
def any : CharClass := ⟨true, [.single '\n']⟩

end CharClass

end Metering
