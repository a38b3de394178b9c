import Descent.Languages.Failure
import Descent.Tokens.Stream

/-!
# Sums

Sums of numbers; the value is the list of the operands.
-/

namespace Descent.Languages.Sum

/-- The kinds of tokens. -/
inductive Kind where
  | num
  | plus
  | finish
deriving DecidableEq, Repr

/-- The name of the kind in the description. -/
def Kind.name : Kind → String
  | num => "NUM"
  | plus => "PLUS"
  | finish => endName

/-- The patterns of what is skipped. -/
def skipPatterns : List String := ["\\s+"]

/-- The kinds with the names and patterns of their tokens. -/
def tokenPatterns : List (Kind × String × String) :=
  [(.num, Kind.num.name, "[0-9]+"), (.plus, Kind.plus.name, "\\+")]

/-- The lexicon; it is there, as all patterns are regular expressions. -/
def lexicon? : Option (Lexicon Kind) := Lexicon.ofPatterns? skipPatterns tokenPatterns .finish

open Descent.Parser

/-- Takes a number. -/
def operand : Parser Kind ActionError Int64 := terminal .num Kind.num.name numberOf

/-- The rest of a sum whose operands so far are given. -/
def tail : Nat → List Int64 → Parser Kind ActionError (List Int64)
  | 0, _ => unexpected []
  | fuel + 1, acc => do
    match ← kind with
    | .plus =>
      terminal .plus Kind.plus.name fun _ => .ok ()
      let n ← operand
      tail fuel (acc ++ [n])
    | .finish => return acc
    | .num => unexpected ([Kind.plus, .finish].map Kind.name)

/-- A number and the rest of a sum. -/
def expr (fuel : Nat) : Parser Kind ActionError (List Int64) := do
  match ← kind with
  | .num =>
    let n ← operand
    tail fuel [n]
  | _ => unexpected [Kind.num.name]

/-- Parses a whole input. Every plus sign is a token, which bounds the depth of the tail. -/
def parse : Parser Kind ActionError (List Int64) := do
  let standing ← get
  whole .finish (expr (standing.upcoming.length + 2))

/-- The operands of a sum. -/
def operands (source : String) : Except Failure (List Int64) :=
  match lexicon? with
  | none => .error .pattern
  | some lexicon =>
    match (parse.run (.new lexicon source)).1 with
    | .ok value => .ok value
    | .error e => .error (.parse e)

end Descent.Languages.Sum
