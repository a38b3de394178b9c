import Descent.Artifact.Names
import Descent.Lookahead.Analysis

/-!
# Source text

Artifacts are written line by line. `rawLiteral` writes a text as a raw string
literal, with as few hashes as let the text contain no closing delimiter.
-/

namespace Descent.Artifact

open Descent.Text (quoted)

/-- A generated file. -/
structure SourceFile where
  name : String
  contents : String
deriving DecidableEq, Repr

/-- The text of lines, each with its end. -/
def ofLines (lines : List String) : String := String.join (lines.map (· ++ "\n"))

/-- The first text occurs in the second. -/
def occursIn (part : List Char) : List Char → Bool
  | [] => part.isEmpty
  | c :: rest => part.isPrefixOf (c :: rest) || occursIn part rest

/-- The closing delimiter of a raw literal with `n` hashes. -/
def rawClosing (n : Nat) : List Char := '"' :: List.replicate n '#'

/-- The least number of hashes, from `n` on, for which the closing delimiter does not occur in a
text; at most `fuel` are tried. -/
def hashesFrom (text : List Char) : Nat → Nat → Nat
  | 0, n => n
  | fuel + 1, n => if occursIn (rawClosing n) text then hashesFrom text fuel (n + 1) else n

/-- The number of hashes of the raw literal of a text. A text cannot hold more hashes than it has
characters. -/
def hashCount (text : List Char) : Nat := hashesFrom text text.length 0

/-- A text as a raw string literal. -/
def rawLiteral (text : String) : String :=
  let hashes := List.replicate (hashCount text.toList) '#'
  String.ofList ('r' :: hashes ++ '"' :: text.toList ++ '"' :: hashes)

/-- The lines at the beginning of an artifact: a banner, and the header of the grammar. -/
def prologue (g : Grammar) (names : Names) (what : String) : List String :=
  [
    "/*",
    "Produced by rdgen: " ++ what ++ " for grammar " ++ names.typeStem ++ ".",
    "Do not edit; regenerate from the grammar instead.",
    "*/",
    ""] ++ if g.header.isEmpty then [] else [g.header, ""]

end Descent.Artifact
