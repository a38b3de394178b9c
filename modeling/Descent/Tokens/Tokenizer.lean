import Descent.Pattern.Compiled
import Descent.Tokens.Failure
import Descent.Text.Length

/-!
# Tokenizers

A lexicon holds the patterns of what lies between tokens and the rules of tokens,
each in order of priority. A cursor stands somewhere in an input. The next token is
found by first taking all that may be skipped, then the match of the first rule
that has a non-empty one. The length of a match is where it ends, counted from the
cursor.
-/

namespace Descent

open Descent.Text Descent.Pattern

variable {κ : Type}

/-- A token rule: the kind of its tokens, its name and its pattern. -/
structure LexemeRule (κ : Type) where
  kind : κ
  name : String
  pattern : Compiled

/-- All that a tokenizer looks for, and the kind of the token at the end. -/
structure Lexicon (κ : Type) where
  skips : List Compiled
  rules : List (LexemeRule κ)
  endKind : κ

/-- A position in an input, with the number of tokens and of skipped matches so far. -/
structure Cursor where
  rest : List Char
  offset : Nat
  tokens : Nat
  skipped : Nat
deriving DecidableEq, Repr

/-- The beginning of an input. -/
def Cursor.start (input : List Char) : Cursor := ⟨input, 0, 0, 0⟩

namespace Lexicon

/-- Compiles skip patterns and token rules; `none` if a pattern is no regular expression. -/
def ofPatterns? (skips : List String) (rules : List (κ × String × String)) (endKind : κ) :
    Option (Lexicon κ) := do
  let skips ← skips.mapM compileAnchored?
  let rules ← rules.mapM fun (kind, name, pattern) =>
    (compileAnchored? pattern).map fun p => LexemeRule.mk kind name p
  some ⟨skips, rules, endKind⟩

/-- The length of what the first skip pattern with a match takes, where the match ends behind
the cursor. -/
def skipLength? (lexicon : Lexicon κ) (rest : List Char) : Option Nat :=
  lexicon.skips.findSome? fun p => (p.find rest).bind fun m => if 0 < m.2 then some m.2 else none

/-- Moves a cursor over its next `n` characters. -/
def take (cursor : Cursor) (n : Nat) : Cursor :=
  { cursor with
    rest := cursor.rest.drop n
    offset := cursor.offset + byteLength (cursor.rest.take n) }

/-- Skips as long as there is something to skip; at most `fuel` times. -/
def skipFrom (lexicon : Lexicon κ) : Nat → Cursor → Cursor
  | 0, cursor => cursor
  | fuel + 1, cursor =>
    match lexicon.skipLength? cursor.rest with
    | some n => lexicon.skipFrom fuel { take cursor n with skipped := cursor.skipped + 1 }
    | none => cursor

/-- Skips all that there is to skip; every match takes a character at least. -/
def skipAll (lexicon : Lexicon κ) (cursor : Cursor) : Cursor :=
  lexicon.skipFrom cursor.rest.length cursor

/-- The first rule with a non-empty match, and the length of the match. -/
def firstRule? (lexicon : Lexicon κ) (rest : List Char) : Option (LexemeRule κ × Nat) :=
  lexicon.rules.findSome? fun r =>
    (r.pattern.find rest).bind fun m => if m.1 < m.2 then some (r, m.2) else none

/-- The next token and the cursor behind it. Where no token begins the cursor stays in front of
the offending text, so that the failure repeats itself. -/
def next (lexicon : Lexicon κ) (cursor : Cursor) :
    Except LexicalError (κ × Token) × Cursor :=
  let cursor := lexicon.skipAll cursor
  if cursor.rest.isEmpty then
    (.ok (lexicon.endKind, .atEnd cursor.offset), { cursor with tokens := cursor.tokens + 1 })
  else
    match lexicon.firstRule? cursor.rest with
    | some (r, n) =>
      (.ok (r.kind, ⟨r.name, String.ofList (cursor.rest.take n), cursor.offset⟩),
        { take cursor n with tokens := cursor.tokens + 1 })
    | none => (.error ⟨cursor.offset, String.ofList cursor.rest⟩, cursor)

end Lexicon
end Descent
