import Descent.Pattern.Flags
import Descent.Pattern.Regex
import Descent.Text.Case

/-!
# Escapes

What a backslash and the characters behind it stand for: a character, a class of
characters or a condition on the place. A property is read but not yet looked up.
-/

namespace Descent.Pattern

open Descent.Text

/-- The classes of characters that a single letter names. -/
inductive LetterClass where
  | digit
  | space
  | word
deriving DecidableEq, Repr

/-- What a backslash and the characters after it stand for. -/
inductive Escape where
  /-- A character; `byteForm` marks the spelling by exactly two hexadecimal digits. -/
  | char (c : Char) (byteForm : Bool)
  | letterClass (kind : LetterClass) (negated : Bool)
  /-- A class named by a property, still by its written name. -/
  | property (name : List Char) (negated : Bool)
  | look (build : Bool → Look)

/-- Whether the character is a hexadecimal digit. -/
def isHexDigit (c : Char) : Bool :=
  isAsciiDigit c || ('a' ≤ c && c ≤ 'f') || ('A' ≤ c && c ≤ 'F')

/-- The character that a code point in hexadecimal stands for, if it is one. -/
def charOfHex? (digits : List Char) : Option Char :=
  let n := CharSet.hexValue digits
  if n < 0xD800 || (0xE000 ≤ n && n ≤ maxCodePoint) then some (Char.ofNat n) else none

/-- Reads exactly `count` hexadecimal digits, layout allowed in between and after them. -/
def hexDigits? (verbose : Bool) : Nat → List Char → Option (List Char × List Char)
  | 0, rest => some ([], rest)
  | count + 1, c :: rest =>
    if isHexDigit c then
      (hexDigits? verbose count (skipLayout verbose rest)).map fun (ds, r) => (c :: ds, r)
    else none
  | _ + 1, [] => none

/-- Reads characters up to a closing brace, layout dropped; at most `fuel` of them. -/
def bracedText? (verbose : Bool) : Nat → List Char → Option (List Char × List Char)
  | 0, _ => none
  | fuel + 1, rest =>
    match skipLayout verbose rest with
    | [] => none
    | c :: rest =>
      if c == '\x7d' then some ([], rest)
      else (bracedText? verbose fuel rest).map fun (cs, r) => (c :: cs, r)

/-- Reads the digits of a character given by its code point, after the letter that announces
them: between braces, or exactly `count` digits. -/
def hexChar? (verbose : Bool) (count : Nat) (rest : List Char) : Option (Escape × List Char) := do
  match skipLayout verbose rest with
  | [] => none
  | c :: body =>
    if c == '\x7b' then
      let (digits, rest) ← bracedText? verbose (body.length + 1) body
      if digits.isEmpty || !digits.all isHexDigit then none
      else
        let c ← charOfHex? digits
        some (.char c false, skipLayout verbose rest)
    else
      let (digits, rest) ← hexDigits? verbose count (c :: body)
      let c ← charOfHex? digits
      some (.char c (count == 2), rest)

/-- Reads the name of a property, after the letter that announces it: one character, or a text
between braces. -/
def propertyName? (verbose negated : Bool) (rest : List Char) : Option (Escape × List Char) := do
  match skipLayout verbose rest with
  | [] => none
  | c :: body =>
    if c == '\x7b' then
      let (name, rest) ← bracedText? verbose (body.length + 1) body
      some (.property name negated, rest)
    else if c == '\\' then none
    else some (.property [c] negated, skipLayout verbose body)

/-- Whether the character may stand in the name of a word boundary. -/
def isBoundaryLetter (c : Char) : Bool := isAsciiLower c || isAsciiUpper c || c == '-'

/-- Reads letters and hyphens, layout dropped after each. -/
def boundaryName (verbose : Bool) : Nat → List Char → List Char × List Char
  | 0, rest => ([], rest)
  | _ + 1, [] => ([], [])
  | fuel + 1, c :: rest =>
    if isBoundaryLetter c then
      let (name, r) := boundaryName verbose fuel (skipLayout verbose rest)
      (c :: name, r)
    else ([], c :: rest)

/-- Reads what may follow the letter of a word boundary: the kind of boundary between braces. A
brace that no letter follows is left alone, as it begins a repetition. -/
def wordBoundary? (verbose : Bool) (rest : List Char) : Option (Escape × List Char) :=
  let plain := some (.look Look.wordBoundary, rest)
  match rest with
  | [] => plain
  | c :: body =>
    if c != '\x7b' then plain
    else
      match skipLayout verbose body with
      | [] => none
      | d :: body =>
        if !isBoundaryLetter d then plain
        else
          let (name, after) := boundaryName verbose (body.length + 1) (d :: body)
          match after with
          | [] => none
          | e :: after =>
            if e != '\x7d' then none
            else match String.ofList name with
              | "start" => some (.look Look.wordStart, after)
              | "end" => some (.look Look.wordEnd, after)
              | "start-half" => some (.look Look.wordStartHalf, after)
              | "end-half" => some (.look Look.wordEndHalf, after)
              | _ => none

/-- The characters with a meaning of their own in patterns, and all other ASCII characters that
are neither letters nor digits, stand for themselves after a backslash; the angle brackets
are set aside for the bounds of words. -/
def isEscapable (c : Char) : Bool :=
  c.toNat < 128 && !(isAsciiLower c || isAsciiUpper c || isAsciiDigit c || c == '<' || c == '>')

/-- Reads what follows a backslash. -/
def escape? (verbose : Bool) : List Char → Option (Escape × List Char)
  | [] => none
  | c :: rest =>
    match c with
    | 'x' => hexChar? verbose 2 rest
    | 'u' => hexChar? verbose 4 rest
    | 'U' => hexChar? verbose 8 rest
    | 'p' => propertyName? verbose false rest
    | 'P' => propertyName? verbose true rest
    | 'd' => some (.letterClass .digit false, rest)
    | 'D' => some (.letterClass .digit true, rest)
    | 's' => some (.letterClass .space false, rest)
    | 'S' => some (.letterClass .space true, rest)
    | 'w' => some (.letterClass .word false, rest)
    | 'W' => some (.letterClass .word true, rest)
    | 'a' => some (.char '\x07' false, rest)
    | 'f' => some (.char '\x0c' false, rest)
    | 't' => some (.char '\t' false, rest)
    | 'n' => some (.char '\n' false, rest)
    | 'r' => some (.char '\r' false, rest)
    | 'v' => some (.char '\x0b' false, rest)
    | 'A' => some (.look fun _ => .textStart, rest)
    | 'z' => some (.look fun _ => .textEnd, rest)
    | 'b' => wordBoundary? verbose rest
    | 'B' => some (.look Look.notWordBoundary, rest)
    | '<' => some (.look Look.wordStart, rest)
    | '>' => some (.look Look.wordEnd, rest)
    | _ => if isEscapable c then some (.char c false, rest) else none

end Descent.Pattern
