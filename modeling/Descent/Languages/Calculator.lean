import Descent.Files.Operations
import Descent.Languages.Failure
import Descent.Tokens.Stream

/-!
# The calculator

Sums and products of integers with the usual precedence, grouping to the left,
parentheses and negation. The tails of sums and products carry the value so far.
-/

namespace Descent.Languages.Calculator

/-- The kinds of tokens. -/
inductive Kind where
  | num
  | plus
  | minus
  | star
  | slash
  | lparen
  | rparen
  | finish
deriving DecidableEq, Repr

/-- The name of the kind in the description. -/
def Kind.name : Kind → String
  | num => "NUM"
  | plus => "PLUS"
  | minus => "MINUS"
  | star => "STAR"
  | slash => "SLASH"
  | lparen => "LPAREN"
  | rparen => "RPAREN"
  | finish => endName

/-- White space, and comments up to the end of the line. -/
def skipPatterns : List String := ["\\s+", "#[^\\n]*"]

/-- The kinds with the names and patterns of their tokens. -/
def tokenPatterns : List (Kind × String × String) :=
  [(.num, Kind.num.name, "[0-9]+"), (.plus, Kind.plus.name, "\\+"),
    (.minus, Kind.minus.name, "-"), (.star, Kind.star.name, "\\*"),
    (.slash, Kind.slash.name, "/"), (.lparen, Kind.lparen.name, "\\("),
    (.rparen, Kind.rparen.name, "\\)")]

/-- The lexicon; it is there, as all patterns are regular expressions. -/
def lexicon? : Option (Lexicon Kind) := Lexicon.ofPatterns? skipPatterns tokenPatterns .finish

/-- The tokens with which a factor, and so a term and an expression, begins. -/
def operandNames : List String := [Kind.num, .minus, .lparen].map Kind.name

/-- An operation as the action of a rule. -/
def operate (r : Except ArithmeticError Int64) : Parser Kind ActionError Int64 :=
  Parser.act (r.mapError .arithmetic)

open Descent.Parser

/-- Takes a token of which nothing but its kind matters. -/
def mark (kind : Kind) : Parser Kind ActionError Unit :=
  terminal kind kind.name fun _ => .ok ()

mutual

/-- A term and the rest of a sum. -/
def expr : Nat → Parser Kind ActionError Int64
  | 0 => unexpected operandNames
  | fuel + 1 => do
    match ← kind with
    | .num | .minus | .lparen =>
      let left ← term fuel
      exprTail fuel left
    | _ => unexpected operandNames

/-- The rest of a sum whose value so far is given. -/
def exprTail : Nat → Int64 → Parser Kind ActionError Int64
  | 0, _ => unexpected []
  | fuel + 1, acc => do
    match ← kind with
    | .plus =>
      mark .plus
      let right ← term fuel
      exprTail fuel (← operate (add acc right))
    | .minus =>
      mark .minus
      let right ← term fuel
      exprTail fuel (← operate (sub acc right))
    | .rparen | .finish => return acc
    | _ => unexpected ([Kind.plus, .minus, .rparen, .finish].map Kind.name)

/-- A factor and the rest of a product. -/
def term : Nat → Parser Kind ActionError Int64
  | 0 => unexpected operandNames
  | fuel + 1 => do
    match ← kind with
    | .num | .minus | .lparen =>
      let left ← factor fuel
      termTail fuel left
    | _ => unexpected operandNames

/-- The rest of a product whose value so far is given. -/
def termTail : Nat → Int64 → Parser Kind ActionError Int64
  | 0, _ => unexpected []
  | fuel + 1, acc => do
    match ← kind with
    | .star =>
      mark .star
      let right ← factor fuel
      termTail fuel (← operate (mul acc right))
    | .slash =>
      mark .slash
      let right ← factor fuel
      termTail fuel (← operate (div acc right))
    | .plus | .minus | .rparen | .finish => return acc
    | _ => unexpected ([Kind.plus, .minus, .star, .slash, .rparen, .finish].map Kind.name)

/-- A number, an expression in parentheses, or the negative of a factor. -/
def factor : Nat → Parser Kind ActionError Int64
  | 0 => unexpected operandNames
  | fuel + 1 => do
    match ← kind with
    | .num => terminal .num Kind.num.name numberOf
    | .lparen =>
      mark .lparen
      let value ← expr fuel
      mark .rparen
      return value
    | .minus =>
      mark .minus
      let value ← factor fuel
      operate (neg value)
    | _ => unexpected operandNames

end

/-- Parses a whole input. Between two tokens at most four rules begin, which bounds the depth of
the rules by the number of tokens. -/
def parse : Parser Kind ActionError Int64 := do
  let standing ← get
  whole .finish (expr (4 * (standing.upcoming.length + 2)))

/-- The value of an expression. -/
def eval (source : String) : Except Failure Int64 :=
  match lexicon? with
  | none => .error .pattern
  | some lexicon =>
    match (parse.run (.new lexicon source)).1 with
    | .ok value => .ok value
    | .error e => .error (.parse e)

/-- The value of the expression in a file. -/
def evalFileIn {m : Type → Type} [Monad m] (system : Files.FileOperations m) (path : String) :
    m (Except Failure Int64) := do
  match ← system.readText path with
  | .error e => return .error (.file path e)
  | .ok source => return eval source

/-- The value of the expression in a file of a tree. -/
def evalFile (files : Files.FileTree) (path : String) : Except Failure Int64 :=
  ((evalFileIn Files.FileTree.operations path).run files).1

end Descent.Languages.Calculator
