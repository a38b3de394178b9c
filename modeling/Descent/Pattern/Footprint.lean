import Descent.Pattern.Regex

/-!
# The size of a running expression

Before an expression runs it is unfolded, every repetition into as many copies as it
counts. `Regex.footprint` is the number of bytes that this takes in a machine over
the bytes of the text, where a state takes 32 bytes and a set of characters becomes
the tree of the byte sequences that encode its members. Expressions beyond
`footprintLimit` are refused.
-/

namespace Descent.Pattern

open Descent.Text

/-- The greatest footprint, ten mebibytes. -/
def footprintLimit : Nat := 10 * 1024 * 1024

/-- The bytes of the UTF-8 form of a code point, the first one first. -/
def encoding (n : Nat) : List Nat :=
  if n < 0x80 then [n]
  else if n < 0x800 then [0xC0 + n / 64, 0x80 + n % 64]
  else if n < 0x10000 then [0xE0 + n / 4096, 0x80 + n / 64 % 64, 0x80 + n % 64]
  else [0xF0 + n / 262144, 0x80 + n / 4096 % 64, 0x80 + n / 64 % 64, 0x80 + n % 64]

/-- A sequence of ranges of bytes. -/
abbrev ByteRanges := List (Nat × Nat)

/-- Where a range of code points has to be cut first, if anywhere, so that in the end the code
points of a piece are encoded by all sequences with bytes from given ranges: at the surrogates,
where the length of the encoding changes, and at multiples of powers of 64. -/
def cut? (lo hi : Nat) : Option (Nat × Nat × Nat × Nat) :=
  if lo < 0xE000 && 0xD7FF < hi then some (lo, 0xD7FF, 0xE000, hi)
  else
    match [0x7F, 0x7FF, 0xFFFF].find? fun b => lo ≤ b && b < hi with
    | some b => some (lo, b, b + 1, hi)
    | none =>
      [64, 4096, 262144].findSome? fun m =>
        if lo / m != hi / m then
          if lo % m != 0 then some (lo, lo / m * m + (m - 1), lo / m * m + m, hi)
          else if hi % m != m - 1 then some (lo, hi / m * m - 1, hi / m * m, hi)
          else none
        else none

/-- The sequences of byte ranges that encode the code points of a range, in order. -/
def byteSequences : Nat → Nat → Nat → List ByteRanges
  | 0, _, _ => []
  | fuel + 1, lo, hi =>
    if hi < lo || (0xD800 ≤ lo && hi ≤ 0xDFFF) then []
    else if hi < 0x80 then [[(lo, hi)]]
    else
      match cut? lo hi with
      | some (a, b, c, d) => byteSequences fuel a b ++ byteSequences fuel c d
      | none => [(encoding lo).zip (encoding hi)]

/-- The number of elements of a sequence behind its common beginning with the one before. -/
def newElements : ByteRanges → ByteRanges → Nat
  | _, [] => 0
  | [], b => b.length
  | x :: a, y :: b => if x == y then newElements a b else (y :: b).length

/-- The number of nodes of the tree of the sequences, which come in order. -/
def treeSize (before : ByteRanges) : List ByteRanges → Nat
  | [] => 0
  | s :: rest => newElements before s + treeSize s rest

/-- The footprint of a set of characters. -/
def setFootprint (s : CharSet) : Nat :=
  match s.ranges with
  | [] => 32
  | [(a, b)] =>
    if a == b then 32 * (encoding a).length
    else if b < 128 then 64
    else general
  | rs => if s.isAscii then 64 + 8 * rs.length else general
where
  /-- The tree, and a choice between its branches. -/
  general : Nat :=
    let sequences := s.ranges.flatMap fun r => byteSequences 64 r.1 r.2
    32 * (treeSize [] sequences + 2) + 4 * sequences.length

namespace Regex

/-- The footprint of an expression. -/
def footprint : Regex → Nat
  | empty => 32
  | chars s => setFootprint s
  | look _ => 32
  | cat r s => r.footprint + s.footprint
  | alt r s =>
    4 + r.footprint + match s with
      | alt _ _ => s.footprint
      | _ => 68 + s.footprint
  | group r => 64 + r.footprint
  | rep r min none _ =>
    match min with
    | 0 => r.footprint + if r.consumes then 40 else 112
    | _ => min * r.footprint + 40
  | rep r min (some max) _ =>
    if max ≤ min then (min * r.footprint).max 32
    else if min == 0 && max == 1 then r.footprint + 72
    else (min * r.footprint).max 32 + 32 + (max - min) * (r.footprint + 40)

end Regex
end Descent.Pattern
