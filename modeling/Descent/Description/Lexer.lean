import Descent.Description.Lexeme
import Descent.Description.Block
import Descent.Text.Case

/-!
# Splitting descriptions into words

White space and comments, which run from two hyphens to the end of the line,
separate words. The longest word is taken, and a name that is spelled like a
keyword is the keyword. Where no word begins the split fails with the offset of the
offending text, which for a block or a pattern without an end is its beginning.
-/

namespace Descent.Description

open Descent.Text

/-- The white space between words. -/
def isLayout (c : Char) : Bool :=
  c == ' ' || c == '\t' || c == '\r' || c == '\n' || c == '\x0c'

/-- The character may stand in a name, behind its first one. -/
def isNamePart (c : Char) : Bool :=
  isAsciiLower c || isAsciiUpper c || isAsciiDigit c || c == '_'

/-- The inside of a pattern and its length with the closing quote, given the text behind the
opening one. A backslash takes the next character with it, which is no newline; before a
quote it is dropped. -/
def patternBody? : List Char → Option (List Char × Nat)
  | [] => none
  | '"' :: _ => some ([], 1)
  | '\\' :: '"' :: rest => (patternBody? rest).map fun (text, n) => ('"' :: text, n + 2)
  | '\\' :: c :: rest =>
    if c == '\n' then none
    else (patternBody? rest).map fun (text, n) => ('\\' :: c :: text, n + 2)
  | '\\' :: [] => none
  | c :: rest => (patternBody? rest).map fun (text, n) => (c :: text, n + 1)

/-- The word that a name is. -/
def ofName (name : List Char) : Lexeme :=
  let name := String.ofList name
  match Keyword.all.find? fun k => k.spelling == name with
  | some k => .keyword k
  | none => if name.toList.head?.any isAsciiUpper then .upper name else .lower name

/-- What stands at the front of a text that is not empty: a word, or layout if there is none, and
the number of its characters. -/
def frontLexeme? : List Char → Option (Option Lexeme × Nat)
  | [] => none
  | c :: rest =>
    if isLayout c then some (none, 1)
    else if c == '-' then
      if rest.head? == some '-' then some (none, 1 + (rest.takeWhile (· != '\n')).length) else none
    else if c == '"' then
      (patternBody? rest).map fun (text, n) => (some (.pattern (String.ofList text)), n + 1)
    else if c == '\x7b' then
      (blockLength? '\x7b' '\x7d' rest).map fun n =>
        (some (.code (String.ofList (rest.take n))), n + 2)
    else if c == '[' then
      (blockLength? '[' ']' rest).map fun n =>
        (some (.bracket (String.ofList (rest.take n))), n + 2)
    else if isAsciiLower c || isAsciiUpper c || c == '_' then
      let name := c :: rest.takeWhile isNamePart
      some (some (ofName name), name.length)
    else
      (Punctuation.all.find? fun p => p.character == c).map fun p => (some (.punctuation p), 1)

/-- Splits a text that begins at the offset, with at most `fuel` words and pieces of layout. -/
def splitFrom : Nat → Nat → List Char → Except Nat (List Placed)
  | _, _, [] => .ok []
  | 0, offset, _ :: _ => .error offset
  | fuel + 1, offset, c :: rest =>
    match frontLexeme? (c :: rest) with
    | none => .error offset
    | some (lexeme, n) =>
      let stop := offset + byteLength ((c :: rest).take n)
      match splitFrom fuel stop ((c :: rest).drop n), lexeme with
      | .ok words, some l => .ok (⟨l, offset, stop⟩ :: words)
      | .ok words, none => .ok words
      | .error e, _ => .error e

/-- The words of a text with their places, or the offset of the first text that is no word. -/
def lexemes (text : List Char) : Except Nat (List Placed) := splitFrom text.length 0 text

/-- The offset of the word with an index, or the length of the text behind the last one. -/
def offsetOf (words : List Placed) (index length : Nat) : Nat :=
  (words[index]?).elim length (·.start)

end Descent.Description
