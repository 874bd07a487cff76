import Metering.Pattern.Token

/-!
# From tokens to patterns

The tokens are read from left to right over a stack of open brackets.  Each collects the branches
that bars have finished and the items of the branch in progress.  A repetition mark applies to the
item before it, which must be there, must not be an anchor and must not be repeated already; a
closed bracket is an item like any other.

Groups are numbered in the order in which they open, and may be referred to once they are closed.
Within a look behind, only groups that were there before it may be.  Some faults show only when all
is read: flags that exclude each other, conditions on groups that never come, and a look behind at
something of varying width.  The first fault from the left is the one that is reported.
-/

namespace Metering.Pattern

/-- A part of a branch and whether a repetition mark may follow it. -/
inductive Item where
  | single (p : Pattern)
  | anchor (p : Pattern)
  | repeated (p : Pattern)
deriving DecidableEq, Repr

/-- The pattern of an item. -/
def Item.pattern : Item → Pattern
  | .single p | .anchor p | .repeated p => p

/-- What the content of a bracket is for. -/
inductive Purpose where
  | plain
  | group (n : Nat)
  | atomic
  | ahead (negated : Bool)
  | behind (negated : Bool)
  | conditional (n : Nat)
deriving DecidableEq, Repr

/-- An open bracket: its purpose, the flags that hold in it, the number of groups that a look behind
around it can see, and what has been read, both lists from right to left. -/
structure Level where
  purpose : Purpose
  flags : List Flag
  horizon : Option Nat
  branches : List Pattern
  items : List Item
deriving DecidableEq, Repr

namespace Level

/-- A bracket of which nothing has been read. -/
def opened (purpose : Purpose) (flags : List Flag) (horizon : Option Nat) : Level :=
  ⟨purpose, flags, horizon, [], []⟩

/-- The branch in progress as a pattern. -/
def branch (l : Level) : Pattern :=
  l.items.foldr (fun item before => .sequence before item.pattern) .empty

/-- All branches as one pattern. -/
def pattern (l : Level) : Pattern :=
  l.branches.foldl (fun rest b => .choice b rest) l.branch

/-- The level with one more item. -/
def push (l : Level) (item : Item) : Level := { l with items := item :: l.items }

/-- The differences of case that are ignored. -/
def folding (l : Level) : Folding :=
  if !l.flags.contains .ignoreCase then .none
  else if l.flags.contains .ascii then .ascii
  else .full

/-- The flags within, when some are turned on and some off; a flag that chooses what counts as a
letter replaces another. -/
def flagsWithin (l : Level) (on off : List Flag) : List Flag :=
  let kept := if on.any Flag.choosesLetters then l.flags.filter (!·.choosesLetters) else l.flags
  (kept ++ on).filter fun f => !off.contains f

/-- The repetition of a pattern in a manner.  A possessive repetition keeps to the first way of each
of its rounds and to the greatest number of them. -/
def repeated (p : Pattern) (least : Nat) (most : Option Nat) : Manner → Pattern
  | .eager => .repetition p least most false
  | .reluctant => .repetition p least most true
  | .possessive => .atomic (.repetition (.atomic p) least most false)

/-- The level with its last item repeated. -/
def markLast (l : Level) (least : Nat) (most : Option Nat) (manner : Manner) :
    Except SpellingError Level :=
  match l.items with
  | .single p :: items => .ok { l with items := .repeated (repeated p least most manner) :: items }
  | .repeated _ :: _ => .error .repeatedRepetition
  | _ => .error .nothingToRepeat

/-- The level after a bar.  A condition has two branches at most. -/
def nextBranch (l : Level) : Except SpellingError Level :=
  match l.purpose, l.branches with
  | .conditional _, _ :: _ => .error .tooManyBranches
  | _, branches => .ok { l with branches := l.branch :: branches, items := [] }

/-- Nothing has been read. -/
def isBlank (l : Level) : Bool := l.branches.isEmpty && l.items.isEmpty

end Level

/-- What is known of a group: its name, and its width once it is closed. -/
structure GroupRecord where
  name : Option String
  width : Option Width
deriving DecidableEq, Repr

/-- A pattern in progress: the groups by number, the groups that conditions ask for, whether a look
behind has no fixed width, and the open brackets from the inside out. -/
structure Draft where
  groups : List GroupRecord
  asked : List Nat
  variableWidth : Bool
  inner : Level
  outer : List Level
deriving DecidableEq, Repr

namespace Draft

/-- The draft of which nothing has been read. -/
def blank : Draft := ⟨[], [], false, .opened .plain [] none, []⟩

/-! ### Groups -/

/-- The record of a group. -/
def record? (d : Draft) (n : Nat) : Option GroupRecord :=
  if n = 0 then none else d.groups[n - 1]?

/-- The width of a closed group. -/
def groupWidth (d : Draft) (n : Nat) : Width :=
  ((d.record? n).bind (·.width)).getD (.exactly 0)

/-- The number of the group that is referred to; a number stands for itself. -/
def number? (d : Draft) : GroupReference → Option Nat
  | .number n => some n
  | .name s => (d.groups.findIdx? (·.name = some s)).map (· + 1)

/-- A group that is closed and that no look behind hides. -/
def visible (d : Draft) (n : Nat) : Bool :=
  ((d.record? n).bind (·.width)).isSome && d.inner.horizon.all (n ≤ ·)

/-- The number of a group whose match is to be taken again. -/
def numberAgain (d : Draft) (r : GroupReference) : Except SpellingError Nat :=
  match d.number? r with
  | none => .error .unknownGroup
  | some n =>
    if (d.record? n).isNone then .error .unknownGroup
    else if d.visible n then .ok n
    else .error .groupNotClosed

/-- The number of a group that a condition asks for.  It may be open or come later, except within a
look behind. -/
def numberAsked (d : Draft) (r : GroupReference) : Except SpellingError Nat :=
  match d.number? r with
  | none => .error .unknownGroup
  | some n =>
    if d.inner.horizon.isSome && !d.visible n then .error .groupNotClosed else .ok n

/-! ### Reading on -/

/-- The draft with one more item in the innermost bracket. -/
def push (d : Draft) (item : Item) : Draft := { d with inner := d.inner.push item }

/-- The draft with a bracket opened. -/
def enter (d : Draft) (purpose : Purpose) (flags : List Flag) (horizon : Option Nat) : Draft :=
  { d with inner := .opened purpose flags horizon, outer := d.inner :: d.outer }

/-- The draft after an opening bracket. -/
def openBracket (d : Draft) (o : Opening) : Except SpellingError Draft :=
  let flags := d.inner.flags
  let horizon := d.inner.horizon
  match o with
  | .plain => .ok (d.enter .plain flags horizon)
  | .capturing name =>
    if name.isSome && d.groups.any (·.name = name) then .error .repeatedGroupName
    else
      let d : Draft := { d with groups := d.groups ++ [⟨name, none⟩] }
      .ok (d.enter (.group d.groups.length) flags horizon)
  | .flagged on off => .ok (d.enter .plain (d.inner.flagsWithin on off) horizon)
  | .atomic => .ok (d.enter .atomic flags horizon)
  | .ahead negated => .ok (d.enter (.ahead negated) flags horizon)
  | .behind negated =>
    .ok (d.enter (.behind negated) flags (some (horizon.getD d.groups.length)))
  | .conditional r =>
    (d.numberAsked r).map fun n =>
      let d := d.enter (.conditional n) flags horizon
      { d with asked := n :: d.asked }

/-- The item that a closed bracket makes, and what becomes known by it. -/
def closed (d : Draft) (l : Level) : Item × Draft :=
  let p := l.pattern
  let width := p.width d.groupWidth
  match l.purpose with
  | .plain => (.single p, d)
  | .group n =>
    (.single (.group n p),
      { d with groups := d.groups.modify (n - 1) fun g => { g with width := some width } })
  | .atomic => (.single (.atomic p), d)
  | .ahead negated => (.single (.ahead p negated), d)
  | .behind negated =>
    match width.fixed? with
    | some distance => (.single (.behind p distance negated), d)
    | none => (.single .empty, { d with variableWidth := true })
  | .conditional n =>
    match l.branches with
    | yes :: _ => (.single (.conditional n yes l.branch), d)
    | [] => (.single (.conditional n l.branch .empty), d)

/-- The flags for the whole pattern exclude each other. -/
def conflict (d : Draft) : Bool :=
  d.inner.flags.contains .ascii && d.inner.flags.contains .unicode

/-- The draft after a closing bracket. -/
def closeBracket (d : Draft) : Except SpellingError Draft :=
  match d.outer with
  | [] => .error (if d.conflict then .conflictingFlags else .unopenedGroup)
  | around :: outer =>
    let (item, e) := d.closed d.inner
    .ok ({ e with inner := around, outer := outer }.push item)

/-- The draft after one more token. -/
def read (d : Draft) : Token → Except SpellingError Draft
  | .char k => .ok (d.push (.single (.char k d.inner.folding)))
  | .anchor a => .ok (d.push (.anchor (.anchor a)))
  | .bar => d.inner.nextBranch.map fun l => { d with inner := l }
  | .opening o => d.openBracket o
  | .closing => d.closeBracket
  | .mark least most manner =>
    (d.inner.markLast least most manner).map fun l => { d with inner := l }
  | .again r =>
    (d.numberAgain r).map fun n => d.push (.single (.again n d.inner.folding))
  | .flags on =>
    if d.outer.isEmpty && d.inner.isBlank then
      .ok { d with inner := { d.inner with flags := d.inner.flags ++ on } }
    else .error .lateFlags
  | .breach e => .error e

/-- The pattern of a draft when all is read. -/
def finish (d : Draft) : Except SpellingError Pattern :=
  if !d.outer.isEmpty then .error .unfinishedGroup
  else if d.conflict then .error .conflictingFlags
  else if d.asked.any (d.groups.length < ·) then .error .unknownGroup
  else if d.variableWidth then .error .variableWidth
  else .ok d.inner.pattern

end Draft

/-- The pattern that a text spells. -/
def parse (s : String) : Except SpellingError Pattern := do
  (← (tokens s).foldlM Draft.read Draft.blank).finish

end Metering.Pattern
