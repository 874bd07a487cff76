import Metering.Pattern.Basic

/-!
# Matching

A match in progress is a spot: a place in the text and what the groups took on the way there.
`ends` gives the spots where a match of a pattern may end that begins at a given spot, in the order
in which they are to be tried and each only once: what follows depends on nothing but the spot.  A
text matches when one of the ways leads from its beginning to its end.

The order matters only to parts that keep to the first way of matching.
-/

namespace Metering

/-- A place in a text, and where the groups that took part began and ended on the way to it. -/
structure Spot where
  position : Nat
  groups : List (Nat × Nat × Nat)
deriving DecidableEq, Repr

namespace Spot

/-- The spot a number of characters further on. -/
def forward (s : Spot) (n : Nat) : Spot := { s with position := s.position + n }

/-- Where a group last began and ended. -/
def group? (s : Spot) (n : Nat) : Option (Nat × Nat) := s.groups.lookup n

/-- The spot after a group that began at a position and ends here. -/
def close (s : Spot) (n start : Nat) : Spot :=
  { s with groups := (n, start, s.position) :: s.groups.filter (·.1 ≠ n) }

end Spot

/-! ### Anchors and groups in a text -/

/-- The character at a position belongs to a word; there is none outside the text. -/
def isWordAt (text : Array Char) (i : Nat) : Bool := (text[i]?).any isWordChar

/-- Exactly one of the characters before and after a position belongs to a word. -/
def isWordBoundary (text : Array Char) (i : Nat) : Bool :=
  (decide (0 < i) && isWordAt text (i - 1)) != isWordAt text i

/-- The anchor holds at a position. -/
def Anchor.holds (text : Array Char) (i : Nat) : Anchor → Bool
  | .start => i = 0
  | .stop => i = text.size
  | .wordBoundary => isWordBoundary text i
  | .noWordBoundary => !isWordBoundary text i && decide (0 < text.size)

/-- The text from one position takes the same characters as from another, up to case. -/
def agree (text : Array Char) (f : Folding) (i j : Nat) : Nat → Bool
  | 0 => true
  | n + 1 =>
    match text[i]?, text[j]? with
    | some a, some b => f.same a b && agree text f (i + 1) (j + 1) n
    | _, _ => false

/-! ### Repetition -/

/-- A function applied a number of times, or until it changes nothing any more. -/
def iterate {α : Type} [DecidableEq α] (f : α → α) : Nat → α → α
  | 0, x => x
  | n + 1, x => if f x = x then x else iterate f n (f x)

/-- What is known while the ways of repeating are explored: from where and with how many rounds left
it was done, and the ends found so far in their order. -/
structure Trail where
  visited : List (Option Nat × Spot)
  found : List Spot

namespace Trail

/-- The trail with one more end. -/
def emit (t : Trail) (s : Spot) : Trail :=
  if t.found.contains s then t else { t with found := t.found ++ [s] }

/-- Explores the rounds that may still follow from a spot, each of which is a `step`; without a
number of rounds there is no bound.  A round that takes nothing is the last.  An eager repetition
ends at the spot itself only after all further rounds, a reluctant one before them.  Rounds that
follow on each other move on in the text, which bounds their number by the first argument. -/
def explore (step : Spot → List Spot) (reluctant : Bool) :
    Nat → Option Nat → Spot → Trail → Trail
  | 0, _, s, t => t.emit s
  | fuel + 1, rounds, s, t =>
    if t.visited.contains (rounds, s) then t
    else
      let t := { t with visited := (rounds, s) :: t.visited }
      if rounds = some 0 then t.emit s
      else
        let t := if reluctant then t.emit s else t
        let t := (step s).foldl (fun t next =>
          if next.position = s.position then t.emit next
          else explore step reluctant fuel (rounds.map (· - 1)) next t) t
        if reluctant then t else t.emit s

end Trail

/-! ### The ends of matches -/

namespace Pattern

/-- The spots where a match may end that begins at a spot, in the order of trying.  Only the groups
that `kept` accepts are remembered.

Rounds of a repetition never go back in the text.  So of more rounds than the text has characters
one at least takes nothing, and such a round can be left out or gone through again: as many rounds
as the text has positions stand for any greater number of them. -/
def ends (text : Array Char) (kept : Nat → Bool) : Pattern → Spot → List Spot
  | .empty, s => [s]
  | .char k f, s =>
    match text[s.position]? with
    | some c => if k.has f c then [s.forward 1] else []
    | none => []
  | .anchor a, s => if a.holds text s.position then [s] else []
  | .sequence a b, s => ((ends text kept a s).flatMap fun t => ends text kept b t).eraseDups
  | .choice a b, s => (ends text kept a s ++ ends text kept b s).eraseDups
  | .repetition body least most reluctant, s =>
    let enough := text.size + 1
    let step := fun t => ends text kept body t
    let required := iterate (fun l => (l.flatMap step).eraseDups) (min least enough) [s]
    let optional := (most.map (· - least)).filter (· < enough)
    (required.foldl (fun t u => Trail.explore step reluctant enough optional u t) ⟨[], []⟩).found
  | .atomic body, s => (ends text kept body s).take 1
  | .ahead body negated, s =>
    match ends text kept body s with
    | [] => if negated then [s] else []
    | t :: _ => if negated then [] else [{ t with position := s.position }]
  | .behind body distance negated, s =>
    let before :=
      if distance ≤ s.position then
        ends text kept body { s with position := s.position - distance }
      else []
    match before with
    | [] => if negated then [s] else []
    | t :: _ => if negated then [] else [{ t with position := s.position }]
  | .group n body, s =>
    let inside := ends text kept body s
    if kept n then inside.map (·.close n s.position) else inside
  | .again n f, s =>
    match s.group? n with
    | none => []
    | some (start, stop) =>
      if agree text f start s.position (stop - start) then [s.forward (stop - start)] else []
  | .conditional n yes no, s =>
    match s.group? n with
    | some _ => ends text kept yes s
    | none => ends text kept no s

/-- The whole text matches the pattern. -/
def matchesWhole (p : Pattern) (s : String) : Bool :=
  let text := s.toList.toArray
  (ends text (fun n => p.mentions n) p ⟨0, []⟩).any (·.position = text.size)

end Pattern

end Metering
