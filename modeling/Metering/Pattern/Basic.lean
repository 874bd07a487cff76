import Metering.Pattern.CharClass

/-!
# Name patterns

A pattern describes a set of texts.  It is built from single characters of a class and from anchors
by sequence, choice and repetition.  Parts of a pattern may be numbered groups, whose last match
other parts refer to, or may look around without taking anything.

The width of a pattern is the least and the greatest number of characters that it takes.
-/

namespace Metering

/-- Conditions on a place in a text.  A name is a single line, so its lines begin and end where it
does itself. -/
inductive Anchor where
  | start
  | stop
  | wordBoundary
  | noWordBoundary
deriving DecidableEq, Repr

/-- A pattern over names.  An `atomic` part is matched in the first way there is and in no other;
`ahead` and `behind` look for a part without taking it, or for its absence; `again` takes what a
group took; `conditional` goes on by whether a group took part. -/
inductive Pattern where
  | empty
  | char (k : CharClass) (f : Folding)
  | anchor (a : Anchor)
  | sequence (first second : Pattern)
  | choice (first second : Pattern)
  | repetition (body : Pattern) (least : Nat) (most : Option Nat) (reluctant : Bool)
  | atomic (body : Pattern)
  | ahead (body : Pattern) (negated : Bool)
  | behind (body : Pattern) (distance : Nat) (negated : Bool)
  | group (n : Nat) (body : Pattern)
  | again (n : Nat) (f : Folding)
  | conditional (n : Nat) (yes no : Pattern)
deriving DecidableEq, Repr

namespace Pattern

/-- Some part of the pattern refers to the group. -/
def mentions (n : Nat) : Pattern → Bool
  | .empty | .char .. | .anchor _ => false
  | .sequence a b | .choice a b => a.mentions n || b.mentions n
  | .repetition body .. | .atomic body | .ahead body _ | .behind body .. | .group _ body =>
    body.mentions n
  | .again m _ => m = n
  | .conditional m yes no => m = n || yes.mentions n || no.mentions n

end Pattern

/-! ### Widths -/

/-- The least and the greatest number of characters that something takes, if there is a greatest. -/
structure Width where
  least : Nat
  most : Option Nat
deriving DecidableEq, Repr

namespace Width

/-- The width of what takes a given number of characters. -/
def exactly (n : Nat) : Width := ⟨n, some n⟩

/-- The width of one thing after another. -/
def add (a b : Width) : Width :=
  ⟨a.least + b.least, a.most.bind fun m => b.most.map (m + ·)⟩

/-- The width of one thing or another. -/
def join (a b : Width) : Width :=
  ⟨min a.least b.least, a.most.bind fun m => b.most.map (max m ·)⟩

/-- The width of a repetition.  What takes nothing takes nothing however often it is repeated. -/
def times (w : Width) (least : Nat) (most : Option Nat) : Width :=
  ⟨w.least * least,
    if w.most = some 0 then some 0 else w.most.bind fun m => most.map (m * ·)⟩

/-- The number of characters, if there is only one and it is not too large to look back. -/
def fixed? (w : Width) : Option Nat :=
  if w.most = some w.least && w.least ≤ 4294967295 then some w.least else none

end Width

/-- The width of a pattern, if those of the groups it refers to are known. -/
def Pattern.width (groups : Nat → Width) : Pattern → Width
  | .empty | .anchor _ | .ahead .. | .behind .. => .exactly 0
  | .char .. => .exactly 1
  | .sequence a b => (a.width groups).add (b.width groups)
  | .choice a b => (a.width groups).join (b.width groups)
  | .repetition body least most _ => (body.width groups).times least most
  | .atomic body | .group _ body => body.width groups
  | .again n _ => groups n
  | .conditional _ yes no => (yes.width groups).join (no.width groups)

end Metering
