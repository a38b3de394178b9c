import Descent.Languages.Failure
import Descent.Tokens.Stream

/-!
# Binary trees

Trees over two leaves, written with parentheses around the two parts of a pair.
-/

namespace Descent.Languages

/-- A binary tree over the leaves `a` and `b`. -/
inductive Tree where
  | a
  | b
  | pair (left right : Tree)
deriving DecidableEq, Repr

namespace Tree

/-- The written form of a tree. -/
def display : Tree → String
  | a => "a"
  | b => "b"
  | pair left right => "(" ++ left.display ++ " " ++ right.display ++ ")"

/-- All trees of at most the given depth: the leaves, and the pairs of trees of less depth, in the
order of the left part and then of the right one. -/
def enumerate : Nat → List Tree
  | 0 => [a, b]
  | depth + 1 =>
    let smaller := enumerate depth
    [a, b] ++ smaller.flatMap fun left => smaller.map fun right => pair left right

/-- The kinds of tokens. -/
inductive Kind where
  | a
  | b
  | lparen
  | rparen
  | finish
deriving DecidableEq, Repr

/-- The name of the kind in the description. -/
def Kind.name : Kind → String
  | a => "A"
  | b => "B"
  | lparen => "LPAREN"
  | rparen => "RPAREN"
  | finish => endName

/-- The patterns of what is skipped. -/
def skipPatterns : List String := [" +"]

/-- The kinds with the names and patterns of their tokens. -/
def tokenPatterns : List (Kind × String × String) :=
  [(.a, Kind.a.name, "a"), (.b, Kind.b.name, "b"), (.lparen, Kind.lparen.name, "\\("),
    (.rparen, Kind.rparen.name, "\\)")]

/-- The lexicon; it is there, as all patterns are regular expressions. -/
def lexicon? : Option (Lexicon Kind) := Lexicon.ofPatterns? skipPatterns tokenPatterns .finish

open Descent.Parser

/-- Takes a token of which nothing but its kind matters. -/
def mark (kind : Kind) : Parser Kind ActionError Unit :=
  terminal kind kind.name fun _ => .ok ()

/-- A leaf, or two trees in parentheses. -/
def tree : Nat → Parser Kind ActionError Tree
  | 0 => unexpected []
  | fuel + 1 => do
    match ← kind with
    | .a =>
      mark .a
      return a
    | .b =>
      mark .b
      return b
    | .lparen =>
      mark .lparen
      let left ← tree fuel
      let right ← tree fuel
      mark .rparen
      return pair left right
    | _ => unexpected ([Kind.a, .b, .lparen].map Kind.name)

/-- Parses a whole input. Every parenthesis is a token, which bounds the depth of the tree. -/
def parse : Parser Kind ActionError Tree := do
  let standing ← get
  whole .finish (tree (standing.upcoming.length + 2))

/-- The tree that a text writes. -/
def read (source : String) : Except Failure Tree :=
  match lexicon? with
  | none => .error .pattern
  | some lexicon =>
    match (parse.run (.new lexicon source)).1 with
    | .ok value => .ok value
    | .error e => .error (.parse e)

end Tree
end Descent.Languages
