import Descent.Languages.Arithmetic
import Descent.Tokens.Failure
import Descent.Files.Tree

/-!
# Failures of the small languages

Actions fail in arithmetic or on a number that is too large; besides, reading a file
may fail.
-/

namespace Descent.Languages

/-- Why an action fails. -/
inductive ActionError where
  | arithmetic (e : ArithmeticError)
  /-- The digits write a number beyond the greatest integer. -/
  | numberTooLarge
  /-- A reason given as a text. -/
  | other (text : String)
deriving DecidableEq, Repr

/-- The message of a failed action. -/
def ActionError.message : ActionError → String
  | arithmetic e => e.message
  | numberTooLarge => "number too large to fit in target type"
  | other text => text

/-- Why a text or a file has no value. -/
inductive Failure where
  /-- A token pattern of the language is no regular expression. -/
  | pattern
  | parse (e : ParseError ActionError)
  /-- The file at the path cannot be read. -/
  | file (path : String) (e : Files.FileError)
deriving DecidableEq, Repr

namespace Failure

/-- The message of a failed calculation. -/
def message : Failure → String
  | pattern => "invalid token pattern"
  | parse e => e.message ActionError.message
  | file path e => "cannot read " ++ path ++ ": " ++ e.message

/-- The failure of the lexer, if it is one. -/
def lexical? : Failure → Option LexicalError
  | parse e => e.lexical?
  | _ => none

/-- The syntax error, if the failure is one. -/
def unfit? : Failure → Option SyntaxError
  | parse e => e.unfit?
  | _ => none

/-- The arithmetic error that an action failed with. -/
def arithmetic? : Failure → Option ArithmeticError
  | parse (.action (.arithmetic e)) => some e
  | _ => none

end Failure

/-- The value of decimal digits. -/
def digitsValue (digits : List Char) : Nat :=
  digits.foldl (fun n c => 10 * n + (c.toNat - '0'.toNat)) 0

/-- The integer that a token of digits writes. -/
def numberOf (t : Token) : Except ActionError Int64 :=
  match exact (digitsValue t.text.toList) with
  | .ok n => .ok n
  | .error _ => .error .numberTooLarge

end Descent.Languages
