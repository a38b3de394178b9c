import Descent.Text.Blank

/-!
# Flags

The switches that a pattern can set, and the layout that one of them allows: white
space between the parts of a pattern, and comments up to the end of the line.
-/

namespace Descent.Pattern

open Descent.Text

/-- The switches that change how a pattern is read. -/
structure Flags where
  ignoreCase : Bool := false
  multiLine : Bool := false
  dotAll : Bool := false
  swapGreed : Bool := false
  unicode : Bool := true
  crlf : Bool := false
  verbose : Bool := false
deriving DecidableEq, Repr

/-- Drops white space and comments; `inComment` tells that a comment has begun. -/
def dropLayout (inComment : Bool) : List Char → List Char
  | [] => []
  | c :: rest =>
    if inComment then dropLayout (c != '\n') rest
    else if isBlank c then dropLayout false rest
    else if c == '#' then dropLayout true rest
    else c :: rest

/-- Drops white space and comments if patterns may be laid out freely. -/
def skipLayout (verbose : Bool) (rest : List Char) : List Char :=
  if verbose then dropLayout false rest else rest

end Descent.Pattern
