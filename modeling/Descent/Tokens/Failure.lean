import Descent.Tokens.Token

/-!
# Failures of a parse

A parse fails in the lexer, at a token that does not fit, or in an action. An
action fails for reasons of its own, so their type is a parameter.
-/

namespace Descent

/-- No token begins at the offset, where the remainder of the input stands. -/
structure LexicalError where
  offset : Nat
  remainder : String
deriving DecidableEq, Repr

/-- The message of a text in which no token begins. -/
def LexicalError.message (e : LexicalError) : String :=
  "unmatched data in input at offset " ++ toString e.offset ++ ": " ++ Text.quoted e.remainder

/-- A token does not fit the grammar. -/
inductive SyntaxError where
  /-- One of the expected tokens had to stand here. -/
  | unexpected (expected : List String) (found : Token)
  /-- The start rule is complete, but the input goes on. -/
  | trailing (found : Token)
deriving DecidableEq, Repr

/-- The message of a token that does not fit. -/
def SyntaxError.message : SyntaxError → String
  | .unexpected expected found =>
    "expected " ++ ", ".intercalate expected ++ " but found " ++ found.display
  | .trailing found => "expected end of input but found " ++ found.display

/-- What a parse can fail with, where actions fail with values of `α`. -/
inductive ParseError (α : Type) where
  | lexical (e : LexicalError)
  | unfit (e : SyntaxError)
  | action (cause : α)
deriving DecidableEq, Repr

namespace ParseError

variable {α : Type}

/-- The message of a failure; `describe` gives the message of an action's reason. -/
def message (describe : α → String) : ParseError α → String
  | .lexical e => e.message
  | .unfit e => e.message
  | .action cause => "action failed: " ++ describe cause

/-- The failure of the lexer, if it is one. -/
def lexical? : ParseError α → Option LexicalError
  | .lexical e => some e
  | _ => none

/-- The syntax error, if the failure is one. -/
def unfit? : ParseError α → Option SyntaxError
  | .unfit e => some e
  | _ => none

/-- The failure of an action, if it is one. -/
def action? : ParseError α → Option α
  | .action cause => some cause
  | _ => none

end ParseError
end Descent
