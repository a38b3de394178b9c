import Descent.Pattern.Reading
import Descent.Pattern.Machine
import Descent.Pattern.Footprint

/-!
# Compiled patterns

A pattern is the text of a regular expression, compiled for repeated use. A pattern
of a token is compiled behind the start of the text: the written form is put between
`^(?:` and `)`, and the whole is read as one expression.
-/

namespace Descent.Pattern

open Descent.Text

/-- A regular expression that is ready to run. -/
structure Compiled where
  node : Node
  /-- The number of labels in the node. -/
  labels : Nat
  /-- No match begins behind the start of the text. -/
  anchored : Bool

namespace Compiled

/-- Compiles an expression that is not too large. -/
def ofRegex? (r : Regex) : Option Compiled :=
  if r.footprint ≤ footprintLimit then
    let (node, labels) := r.build 0
    some ⟨node, labels, r.anchored⟩
  else none

/-- The preferred match at the first position that has one: where it starts and where it ends,
counted in characters. -/
def find (p : Compiled) (text : List Char) : Option (Nat × Nat) :=
  if p.anchored then (p.node.matchEnd p.labels ⟨none, text⟩).map fun n => (0, n)
  else p.node.findFrom p.labels none 0 text

end Compiled

/-- The written form of a token pattern, tied to the start of the text. -/
def anchoredText (pattern : String) : List Char :=
  "^(?:".toList ++ pattern.toList ++ [')']

/-- Compiles the pattern of a token; `none` if it is no regular expression. Of the properties of
characters that take a value, only category, script and script extensions are known: a pattern that
names an age or a kind of break between graphemes, words or sentences (`\p{age=6.0}`, `\p{gcb=lf}`,
`\p{wb=lf}`, `\p{sb=lf}`) counts as none. -/
def compileAnchored? (pattern : String) : Option Compiled :=
  (Regex.ofText? (anchoredText pattern)).bind Compiled.ofRegex?

end Descent.Pattern
