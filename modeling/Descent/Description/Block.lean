import Descent.Text.Length

/-!
# Blocks of code

A block runs from an opening delimiter to the closing one that balances it.
Delimiters inside string literals, character literals and line comments do not
count. `blockLength?` finds the end of a block whose opening delimiter has been
taken.
-/

namespace Descent.Description

/-- Where a scan of a block stands. -/
inductive BlockState where
  /-- In plain code, with so many characters still to be passed over. -/
  | plain (pass : Nat)
  | inString
  /-- Behind a backslash in a string literal. -/
  | escaped
  | inComment
deriving DecidableEq, Repr

/-- The number of characters before the first quote, if that begins among the first `bytes`
bytes. -/
def quoteWithin? : Nat → List Char → Option Nat
  | 0, _ => none
  | _, [] => none
  | bytes + 1, c :: rest =>
    if c == '\'' then some 0
    else (quoteWithin? (bytes + 1 - c.utf8Size) rest).map (· + 1)

/-- The number of characters behind a single quote that belong to a character literal with it.
A literal is an escape with a quote among the twelve bytes behind the backslash, or one
character of one byte before a quote; any other single quote stands alone. -/
def charLiteralLength : List Char → Nat
  | '\\' :: rest =>
    match quoteWithin? 12 rest with
    | some n => n + 2
    | none => 0
  | c :: '\'' :: _ => if c.utf8Size == 1 then 2 else 0
  | _ => 0

/-- The number of characters before the delimiter that closes a block, where `depth` blocks are
open. -/
def blockScan (opening closing : Char) : BlockState → Nat → List Char → Option Nat
  | _, _, [] => none
  | state, depth, c :: rest =>
    let go (state : BlockState) (depth : Nat) :=
      (blockScan opening closing state depth rest).map (· + 1)
    match state with
    | .plain (pass + 1) => go (.plain pass) depth
    | .plain 0 =>
      if c == '"' then go .inString depth
      else if c == '\'' then go (.plain (charLiteralLength rest)) depth
      else if c == '/' && rest.head? == some '/' then go .inComment depth
      else if c == opening then go (.plain 0) (depth + 1)
      else if c == closing then if depth ≤ 1 then some 0 else go (.plain 0) (depth - 1)
      else go (.plain 0) depth
    | .inString =>
      if c == '\\' then go .escaped depth
      else if c == '"' then go (.plain 0) depth
      else go .inString depth
    | .escaped => go .inString depth
    | .inComment => go (if c == '\n' then .plain 0 else .inComment) depth

/-- The number of characters inside a block, given the text behind its opening delimiter; `none`
if the block does not end. -/
def blockLength? (opening closing : Char) (text : List Char) : Option Nat :=
  blockScan opening closing (.plain 0) 1 text

end Descent.Description
