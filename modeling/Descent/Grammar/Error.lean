import Descent.Text.Quoted

/-!
# Faults of grammars

The reasons for which a grammar is refused, and the messages that report them.
-/

namespace Descent

/-- The two kinds of symbols. -/
inductive SymbolKind where
  | terminal
  | nonterminal
deriving DecidableEq, Repr

/-- The kind as it is named in messages. -/
def SymbolKind.display : SymbolKind → String
  | .terminal => "terminal"
  | .nonterminal => "non-terminal"

/-- Why a grammar is refused. -/
inductive GrammarError where
  | duplicateTokenRule (name : String)
  | duplicateSkip (name : String)
  | unknownSkip (name : String)
  | unknownStart (name : String)
  | unknownSymbol (rule name : String) (kind : SymbolKind)
  /-- Two alternatives of a rule cannot be told apart by the next token. -/
  | notLL1 (rule : String) (first second : Nat) (tokens : List String)
  | duplicateParserRule (name : String)
  /-- A token rule has the name of the end of input. -/
  | reservedTokenName (name : String)
  /-- A rule waits for a token that is always skipped. -/
  | skippedTerminal (rule name : String)
  | invalidPattern (name reason : String)
deriving DecidableEq, Repr

open Text (quoted)

/-- The message of a fault of a grammar. -/
def GrammarError.message : GrammarError → String
  | .duplicateTokenRule name => "duplicate token rule " ++ quoted name
  | .duplicateSkip name => "duplicate token " ++ quoted name ++ " in skip list"
  | .unknownSkip name => "skip list names unknown token rule " ++ quoted name
  | .unknownStart name => "no rule for start non-terminal " ++ quoted name
  | .unknownSymbol rule name kind =>
    "rule " ++ quoted rule ++ " references unknown " ++ kind.display ++ " " ++ quoted name
  | .notLL1 rule first second tokens =>
    "grammar is not LL(1): alternatives " ++ toString first ++ " and " ++ toString second ++
      " of rule " ++ quoted rule ++ " conflict on " ++ ", ".intercalate tokens
  | .duplicateParserRule name => "duplicate parser rule " ++ quoted name
  | .reservedTokenName name =>
    "token rule name " ++ quoted name ++ " is reserved for end of input"
  | .skippedTerminal rule name =>
    "rule " ++ quoted rule ++ " references skipped token " ++ quoted name
  | .invalidPattern name reason => "invalid pattern for token " ++ quoted name ++ ": " ++ reason

end Descent
