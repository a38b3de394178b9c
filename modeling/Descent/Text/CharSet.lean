/-!
# Sets of characters as ranges of code points

A `CharSet` lists ranges of code points, each given by its first and its last
member, in increasing order and with a gap between any two. `insert` keeps that
form, so it gives every operation on sets: union inserts the ranges of one set
into the other, and complement lists the gaps. The tables of the standard are
written as text, read by `CharSet.ofText`.
-/

namespace Descent.Text

/-- The greatest code point. -/
def maxCodePoint : Nat := 0x10FFFF

/-- A set of characters, as the ranges of code points that make it up. -/
structure CharSet where
  /-- Ranges `(first, last)`, increasing and pairwise apart. -/
  ranges : List (Nat × Nat)
deriving DecidableEq, Repr, Inhabited

namespace CharSet

/-- No character at all. -/
def empty : CharSet := ⟨[]⟩

/-- Every character. -/
def full : CharSet := ⟨[(0, maxCodePoint)]⟩

/-- The characters from `first` to `last`. -/
def ofRange (first last : Char) : CharSet := ⟨[(first.toNat, last.toNat)]⟩

/-- The set of one character. -/
def singleton (c : Char) : CharSet := ofRange c c

/-- A code point belongs to a set when one of the ranges covers it. -/
def containsNat (s : CharSet) (n : Nat) : Bool :=
  s.ranges.any fun r => r.1 ≤ n && n ≤ r.2

/-- Membership of a character. -/
def contains (s : CharSet) (c : Char) : Bool := s.containsNat c.toNat

/-- Whether the set has no characters. -/
def isEmpty (s : CharSet) : Bool := s.ranges.isEmpty

/-- All members are below 128. -/
def isAscii (s : CharSet) : Bool := s.ranges.all fun r => r.2 < 128

/-- Adds the range from `lo` to `hi` to a list of separate increasing ranges, joining
the ranges that it meets or touches. -/
def insertRange (lo hi : Nat) : List (Nat × Nat) → List (Nat × Nat)
  | [] => [(lo, hi)]
  | (a, b) :: rest =>
    if hi + 1 < a then (lo, hi) :: (a, b) :: rest
    else if b + 1 < lo then (a, b) :: insertRange lo hi rest
    else insertRange (min lo a) (max hi b) rest

/-- The set with the characters of one more range. -/
def insert (s : CharSet) (lo hi : Nat) : CharSet := ⟨insertRange lo hi s.ranges⟩

/-- The set of the given ranges, in any order and with any overlap. -/
def ofRanges (rs : List (Nat × Nat)) : CharSet :=
  ⟨rs.foldr (fun r acc => insertRange r.1 r.2 acc) []⟩

/-- The characters of both sets. -/
def union (s t : CharSet) : CharSet :=
  ⟨s.ranges.foldr (fun r acc => insertRange r.1 r.2 acc) t.ranges⟩

/-- The gaps of an increasing list of ranges, from the code point `low` on. -/
def gaps (low : Nat) : List (Nat × Nat) → List (Nat × Nat)
  | [] => if low ≤ maxCodePoint then [(low, maxCodePoint)] else []
  | (a, b) :: rest => if low < a then (low, a - 1) :: gaps (b + 1) rest else gaps (b + 1) rest

/-- The characters that are not in the set. -/
def complement (s : CharSet) : CharSet := ⟨gaps 0 s.ranges⟩

/-- The characters that two sets have in common. -/
def inter (s t : CharSet) : CharSet := (s.complement.union t.complement).complement

/-- The members of the first set that the second lacks. -/
def diff (s t : CharSet) : CharSet := (s.complement.union t).complement

/-- The characters that are in exactly one of the two sets. -/
def symmDiff (s t : CharSet) : CharSet := (s.diff t).union (t.diff s)

/-! ### Reading tables -/

/-- The blank-separated words of a text; `word` holds the current one, reversed. -/
def words (word : List Char) : List Char → List (List Char)
  | [] => if word.isEmpty then [] else [word.reverse]
  | c :: rest =>
    if c == ' ' || c == '\n' then
      if word.isEmpty then words [] rest else word.reverse :: words [] rest
    else words (c :: word) rest

/-- The value of a hexadecimal digit. -/
def hexDigit (c : Char) : Nat :=
  if '0' ≤ c && c ≤ '9' then c.toNat - 48
  else if 'A' ≤ c && c ≤ 'F' then c.toNat - 55
  else c.toNat - 87

/-- The number that hexadecimal digits write. -/
def hexValue (digits : List Char) : Nat := digits.foldl (fun n c => 16 * n + hexDigit c) 0

/-- Every `step`-th code point from `a` on, `count + 1` of them, each a range of its own. -/
def spaced (a step count : Nat) : List (Nat × Nat) :=
  (List.range (count + 1)).map fun k => (a + k * step, a + k * step)

/-- The ranges that one word of a table stands for: a code point, a first and a last code
point `A-B`, or every second code point between two bounds `A-B/2`, in hexadecimal. -/
def wordRanges (word : List Char) : List (Nat × Nat) :=
  let first := word.takeWhile (· != '-')
  let a := hexValue first
  match word.drop first.length with
  | [] => [(a, a)]
  | _ :: rest =>
    let last := rest.takeWhile (· != '/')
    let b := hexValue last
    if (rest.drop last.length).isEmpty then [(a, b)] else spaced a 2 ((b - a) / 2)

/-- Reads a table: blank-separated words in increasing order. -/
def ofText (table : String) : CharSet := ⟨(words [] table.toList).flatMap wordRanges⟩

end CharSet
end Descent.Text
