import Descent.Text.Case

/-!
# Regular expressions

The tree of a regular expression, with character classes already turned into sets
and with the flags resolved, so that a tree means the same wherever it stands.
`Regex.emptyOnly` and `Regex.consumes` bound the length of its matches from above
and from below.
-/

namespace Descent.Pattern

open Descent.Text

/-- Conditions on a position in a text that consume nothing. The flag of the word conditions
tells whether the words of all scripts count or ASCII words alone. -/
inductive Look where
  | textStart
  | textEnd
  | lineStart
  | lineEnd
  | crlfLineStart
  | crlfLineEnd
  | wordBoundary (unicode : Bool)
  | notWordBoundary (unicode : Bool)
  | wordStart (unicode : Bool)
  | wordEnd (unicode : Bool)
  | wordStartHalf (unicode : Bool)
  | wordEndHalf (unicode : Bool)
deriving DecidableEq, Repr

/-- A position in a text: the character before it, if any, and the text after it. -/
structure Spot where
  before : Option Char
  after : List Char
deriving DecidableEq, Repr

/-- The character belongs to words. -/
def isWordChar (unicode : Bool) (c : Char) : Bool :=
  if c.toNat < 128 then isAsciiLower c || isAsciiUpper c || isAsciiDigit c || c == '_'
  else unicode && wordCharacters.contains c

/-- A word character stands before the position. -/
def Spot.wordBefore (unicode : Bool) (spot : Spot) : Bool :=
  spot.before.any (isWordChar unicode)

/-- A word character stands after the position. -/
def Spot.wordAfter (unicode : Bool) (spot : Spot) : Bool :=
  spot.after.head?.any (isWordChar unicode)

/-- The condition holds at the position. -/
def Look.holds (spot : Spot) : Look → Bool
  | .textStart => spot.before.isNone
  | .textEnd => spot.after.isEmpty
  | .lineStart => spot.before.all (· == '\n')
  | .lineEnd => spot.after.head?.all (· == '\n')
  | .crlfLineStart =>
    match spot.before with
    | none => true
    | some c => c == '\n' || (c == '\r' && spot.after.head?.all (· != '\n'))
  | .crlfLineEnd =>
    match spot.after.head? with
    | none => true
    | some c => c == '\r' || (c == '\n' && spot.before.all (· != '\r'))
  | .wordBoundary u => spot.wordBefore u != spot.wordAfter u
  | .notWordBoundary u => spot.wordBefore u == spot.wordAfter u
  | .wordStart u => !spot.wordBefore u && spot.wordAfter u
  | .wordEnd u => spot.wordBefore u && !spot.wordAfter u
  | .wordStartHalf u => !spot.wordBefore u
  | .wordEndHalf u => !spot.wordAfter u

/-- Regular expressions. In an alternation the left branch is preferred; a greedy repetition
prefers another round to going on, a lazy one the reverse. -/
inductive Regex where
  /-- The empty text. -/
  | empty
  /-- One character of a set. -/
  | chars (set : CharSet)
  /-- The empty text where a condition holds. -/
  | look (condition : Look)
  /-- One after the other. -/
  | cat (first second : Regex)
  /-- One or the other. -/
  | alt (preferred other : Regex)
  /-- At least `min` and at most `max` rounds. -/
  | rep (body : Regex) (min : Nat) (max : Option Nat) (greedy : Bool)
  /-- A group whose match could be asked for. -/
  | group (body : Regex)
deriving DecidableEq, Repr, Inhabited

namespace Regex

/-- No match is longer than the empty text. -/
def emptyOnly : Regex → Bool
  | empty => true
  | chars _ => false
  | look _ => true
  | cat r s => r.emptyOnly && s.emptyOnly
  | alt r s => r.emptyOnly && s.emptyOnly
  | rep r _ max _ => max == some 0 || r.emptyOnly
  | group r => r.emptyOnly

/-- Every match consumes something. -/
def consumes : Regex → Bool
  | empty => false
  | chars s => !s.isEmpty
  | look _ => false
  | cat r s => r.consumes || s.consumes
  | alt r s => r.consumes && s.consumes
  | rep r min _ _ => min != 0 && r.consumes
  | group r => r.consumes

/-- No match begins anywhere but at the start of the text. -/
def anchored : Regex → Bool
  | empty => false
  | chars _ => false
  | look l => l == .textStart
  | cat r s => r.anchored || (r.emptyOnly && s.anchored)
  | alt r s => r.anchored && s.anchored
  | rep r min _ _ => min != 0 && r.anchored
  | group r => r.anchored

/-- A repetition in its simplest form: rounds of the empty text count once at most, no round
at all is the empty text, and one round is the body itself. -/
def repeated (body : Regex) (min : Nat) (max : Option Nat) (greedy : Bool) : Regex :=
  let (min, max) :=
    if body.emptyOnly then (Nat.min min 1, some ((max.getD 1).min 1)) else (min, max)
  if min == 0 && max == some 0 then empty
  else if min == 1 && max == some 1 then body
  else rep body min max greedy

end Regex
end Descent.Pattern
