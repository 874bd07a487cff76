import Metering.Numeral.Integer
import Metering.Pattern.Basic
import Metering.Pattern.Escape

/-!
# The written form of patterns, token by token

The characters of a written pattern are grouped into tokens: characters and classes, anchors,
repetition marks, the bar, references to groups, flags, and the brackets, of which an opening one
says what its content is for.  A brace begins a repetition mark only if it ends like one; otherwise
it stands for itself.  Comments are no tokens, and where the pattern is spaced, neither are blanks
and the rest of a line after a number sign.

Reading stops where the text breaks a rule of spelling.  The breach is the last token, so that
whoever takes the tokens from left to right meets it after the faults that stand before it.

Two kinds of good spelling are refused.  A group may be named by a word in any script, but only
words in ASCII are known here (`isGroupName`), and the flag `t`, which has no effect, is not among
the flags (`Flag.ofChar?`).
-/

namespace Metering.Pattern

/-- How a pattern is to be read.  Names are single lines, so the flags about lines change
nothing. -/
inductive Flag where
  | ignoreCase
  | manyLines
  | dotAll
  | spaced
  | ascii
  | unicode
deriving DecidableEq, Repr

namespace Flag

/-- The flag of a letter. -/
def ofChar? : Char → Option Flag
  | 'i' => some .ignoreCase
  | 'm' => some .manyLines
  | 's' => some .dotAll
  | 'x' => some .spaced
  | 'a' => some .ascii
  | 'u' => some .unicode
  | _ => none

/-- The flag chooses what counts as a letter. -/
def choosesLetters : Flag → Bool
  | .ascii | .unicode => true
  | _ => false

end Flag

/-- How a group is referred to. -/
inductive GroupReference where
  | number (n : Nat)
  | name (s : String)
deriving DecidableEq, Repr

/-- What an opening bracket begins. -/
inductive Opening where
  | plain
  | capturing (name : Option String)
  | flagged (on off : List Flag)
  | atomic
  | ahead (negated : Bool)
  | behind (negated : Bool)
  | conditional (r : GroupReference)
deriving DecidableEq, Repr

/-- In which order a repetition tries its numbers of rounds: the greatest first, the least first, or
the greatest only. -/
inductive Manner where
  | eager
  | reluctant
  | possessive
deriving DecidableEq, Repr

/-- A unit of a written pattern. -/
inductive Token where
  | char (k : CharClass)
  | anchor (a : Anchor)
  | bar
  | opening (o : Opening)
  | closing
  | mark (least : Nat) (most : Option Nat) (manner : Manner)
  | again (r : GroupReference)
  | flags (on : List Flag)
  | breach (e : SpellingError)
deriving DecidableEq, Repr

/-! ### Repetition marks -/

/-- A number in decimal digits at the front of a text, if there is one, and what follows it. -/
def number? (s : List Char) : Option Nat × List Char :=
  let digits := s.takeWhile Char.isDigit
  (if digits.isEmpty then none else (String.ofList digits).toNat?, s.dropWhile Char.isDigit)

/-- The bounds written between braces, and what follows them; nothing if the text after the opening
brace is no such thing. -/
def bounds? (s : List Char) : Option (Option Nat × Option Nat × List Char) :=
  match s with
  | '}' :: _ => none
  | s =>
    let (least, rest) := number? s
    match rest with
    | ',' :: rest =>
      match number? rest with
      | (most, '}' :: rest) => some (least, most, rest)
      | _ => none
    | '}' :: rest => some (least, least, rest)
    | _ => none

/-- The manner written after a repetition mark, and what follows it. -/
def readManner : List Char → Manner × List Char
  | '?' :: rest => (.reluctant, rest)
  | '+' :: rest => (.possessive, rest)
  | s => (.eager, s)

/-- The least number of repetitions that no mark may ask for. -/
def repetitionLimit : Nat := 4294967295

/-- The token of a repetition mark with the given bounds, and what follows it.  A bound that is too
large is found while the bounds are read, the lower one first, so before the two are compared. -/
def boundedMark (least most : Option Nat) (s : List Char) : Except SpellingError (Token × List Char) :=
  if least.any (repetitionLimit ≤ ·) || most.any (repetitionLimit ≤ ·) then
    .error .tooManyRepetitions
  else if most.any (· < least.getD 0) then .error .badRepetition
  else
    let (manner, rest) := readManner s
    .ok (.mark (least.getD 0) most manner, rest)

/-! ### Brackets -/

/-- The text up to the next stop, which must not be at its front, and what follows the stop. -/
def nameUpTo (stop : Char) (s : List Char) : Except SpellingError (String × List Char) :=
  match s.takeWhile (· ≠ stop), s.dropWhile (· ≠ stop) with
  | c :: name, _ :: rest => .ok (String.ofList (c :: name), rest)
  | _, _ => .error .badGroupName

/-- The text is a name for a group: a word of ASCII letters, digits and underscores that does not
begin with a digit. -/
def isGroupName (s : String) : Bool :=
  match s.toList with
  | c :: rest => (c.isAlpha || c = '_') && rest.all isWordChar
  | [] => false

/-- The name of a group, which ends at a stop, and what follows. -/
def groupName (stop : Char) (s : List Char) : Except SpellingError (String × List Char) := do
  let (name, rest) ← nameUpTo stop s
  if isGroupName name then return (name, rest) else throw .badGroupName

/-- The group that a condition asks for, by name or by a positive number, and what follows. -/
def conditionGroup (s : List Char) : Except SpellingError (GroupReference × List Char) := do
  let (name, rest) ← nameUpTo ')' s
  if isGroupName name then return (.name name, rest)
  else
    match Numeral.readInteger? name with
    | some (.ofNat (n + 1)) => return (.number (n + 1), rest)
    | _ => throw .badGroupName

/-- The flags at the front of a text, and what follows them. -/
def flagRun : List Char → List Flag × List Char
  | [] => ([], [])
  | c :: rest =>
    match Flag.ofChar? c with
    | none => ([], c :: rest)
    | some f =>
      let (fs, rest) := flagRun rest
      (f :: fs, rest)

/-- The flags after the question mark of a bracket: for the whole pattern if the bracket closes
after them, and for its content if a colon follows.  Flags about letters exclude each other and
cannot be turned off, and no flag is turned on and off. -/
def readFlags (s : List Char) : Except SpellingError (Token × List Char) :=
  let (on, rest) := flagRun s
  if on.contains .ascii && on.contains .unicode then .error .badFlags
  else
    match on, rest with
    | _ :: _, ')' :: rest => .ok (.flags on, rest)
    | _ :: _, ':' :: rest => .ok (.opening (.flagged on []), rest)
    | on, '-' :: rest =>
      let (off, rest) := flagRun rest
      match off, rest with
      | _ :: _, ':' :: rest =>
        if off.any Flag.choosesLetters || off.any on.contains then .error .badFlags
        else .ok (.opening (.flagged on off), rest)
      | _, _ => .error .badFlags
    | [], _ => .error .unknownGroupKind
    | _, _ => .error .badFlags

/-- The text after a comment in brackets. -/
def skipComment : List Char → Except SpellingError (List Char)
  | [] => .error .unfinishedComment
  | ['\\'] => .error .badEscape
  | '\\' :: _ :: rest => skipComment rest
  | ')' :: rest => .ok rest
  | _ :: rest => skipComment rest

/-- The text after a line. -/
def skipLine : List Char → Except SpellingError (List Char)
  | [] => .ok []
  | ['\\'] => .error .badEscape
  | '\\' :: _ :: rest => skipLine rest
  | '\n' :: rest => .ok rest
  | _ :: rest => skipLine rest

/-- A token, if there is one, and what follows it. -/
abbrev Lexeme := Except SpellingError (Option Token × List Char)

/-- The token and what follows it. -/
def Lexeme.of (t : Token) (rest : List Char) : Lexeme := .ok (some t, rest)

/-- The token and what follows it, unless there is a fault. -/
def Lexeme.ofExcept (x : Except SpellingError (Token × List Char)) : Lexeme :=
  x.map fun (t, rest) => (some t, rest)

/-- What an opening bracket begins. -/
def readOpening : List Char → Lexeme
  | '?' :: rest =>
    match rest with
    | ':' :: rest => .of (.opening .plain) rest
    | '>' :: rest => .of (.opening .atomic) rest
    | '=' :: rest => .of (.opening (.ahead false)) rest
    | '!' :: rest => .of (.opening (.ahead true)) rest
    | '<' :: '=' :: rest => .of (.opening (.behind false)) rest
    | '<' :: '!' :: rest => .of (.opening (.behind true)) rest
    | '#' :: rest => (skipComment rest).map fun rest => (none, rest)
    | 'P' :: '<' :: rest =>
      (groupName '>' rest).map fun (name, rest) => (some (.opening (.capturing (some name))), rest)
    | 'P' :: '=' :: rest =>
      (groupName ')' rest).map fun (name, rest) => (some (.again (.name name)), rest)
    | '(' :: rest =>
      (conditionGroup rest).map fun (r, rest) => (some (.opening (.conditional r)), rest)
    | rest => .ofExcept (readFlags rest)
  | rest => .of (.opening (.capturing none)) rest

/-! ### Escapes outside of classes -/

/-- What digits after a backslash stand for.  Three octal digits, or any after a zero, are a code
point; other digits are the number of a group, which has one or two of them. -/
def readDigitEscape (c : Char) (rest : List Char) : Except SpellingError (Token × List Char) :=
  let (count, n, afterOctal) := digitsUpTo 8 octalValue? 3 0 (c :: rest)
  if c = '0' || count = 3 then
    if n ≤ greatestOctal then .ok (.char (.ofItem (.range n n)), afterOctal) else .error .badEscape
  else
    let digits := (c :: rest.take 1).takeWhile Char.isDigit
    .ok (.again (.number ((String.ofList digits).toNat?.getD 0)), rest.drop (digits.length - 1))

/-- What a backslash and the text after it stand for. -/
def readEscape : List Char → Except SpellingError (Token × List Char)
  | [] => .error .badEscape
  | 'A' :: rest => .ok (.anchor .start, rest)
  | 'Z' :: rest => .ok (.anchor .stop, rest)
  | 'b' :: rest => .ok (.anchor .wordBoundary, rest)
  | 'B' :: rest => .ok (.anchor .noWordBoundary, rest)
  | c :: rest =>
    if c.isDigit then readDigitEscape c rest
    else (escaped c rest).map fun (i, rest) => (.char (.ofItem i), rest)

/-! ### Tokens -/

/-- A blank that a spaced pattern leaves out. -/
def isSpacing (c : Char) : Bool := c.isWhitespace || c = '\x0b' || c = '\x0c'

/-- The token that begins with a character.  A backslash that ends the text is found as soon as what
stands before it has been read, hence before the bounds of a mark are looked at. -/
def readToken (spaced : Bool) (c : Char) (rest : List Char) : Lexeme :=
  if spaced && isSpacing c then .ok (none, rest)
  else if spaced && c = '#' then (skipLine rest).map fun rest => (none, rest)
  else
    match c with
    | '.' => .of (.char .any) rest
    | '^' => .of (.anchor .start) rest
    | '$' => .of (.anchor .stop) rest
    | '|' => .of .bar rest
    | ')' => .of .closing rest
    | '(' => readOpening rest
    | '*' => let (manner, rest) := readManner rest; .of (.mark 0 none manner) rest
    | '+' => let (manner, rest) := readManner rest; .of (.mark 1 none manner) rest
    | '?' => let (manner, rest) := readManner rest; .of (.mark 0 (some 1) manner) rest
    | '{' =>
      match bounds? rest with
      | none => .of (.char (.single c)) rest
      | some (_, _, ['\\']) => .error .badEscape
      | some (least, most, rest) => .ofExcept (boundedMark least most rest)
    | '[' => (readClass rest).map fun (k, rest) => (some (.char k), rest)
    | '\\' => .ofExcept (readEscape rest)
    | c => .of (.char (.single c)) rest

/-- The content of a bracket is spaced. -/
def Opening.spaced (outside : Bool) : Opening → Bool
  | .flagged on off => (outside || on.contains .spaced) && !off.contains .spaced
  | _ => outside

/-- The tokens of a written pattern that is spaced or not, within brackets whose surroundings are
spaced or not. -/
def tokensAux : Nat → Bool → List Bool → List Char → List Token
  | 0, _, _, _ => []
  | _, _, _, [] => []
  | fuel + 1, spaced, outer, c :: rest =>
    match readToken spaced c rest with
    | .error e => [.breach e]
    | .ok (none, rest) => tokensAux fuel spaced outer rest
    | .ok (some t, rest) =>
      t :: match t, outer with
        | .opening o, outer => tokensAux fuel (o.spaced spaced) (spaced :: outer) rest
        | .closing, around :: outer => tokensAux fuel around outer rest
        | .flags on, outer => tokensAux fuel (spaced || on.contains .spaced) outer rest
        | _, outer => tokensAux fuel spaced outer rest

/-- The tokens of a written pattern; each takes at least one character. -/
def tokens (s : String) : List Token :=
  tokensAux s.length false [] s.toList

end Metering.Pattern
