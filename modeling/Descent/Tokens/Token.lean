import Descent.Text.Quoted

/-!
# Tokens

A token is a piece of input that the rule of some name matched. At the end of the
input stands a token without text, whose name no token rule may have.
-/

namespace Descent

/-- The name of the token at the end of the input. -/
def endName : String := "_END"

/-- A piece of input: the rule that matched it, its text, and the offset of its first byte. -/
structure Token where
  name : String
  text : String
  offset : Nat
deriving DecidableEq, Repr

namespace Token

/-- The token at the end of an input of the given length. -/
def atEnd (offset : Nat) : Token := ⟨endName, "", offset⟩

/-- The name alone tells the token at the end. -/
def isEnd (t : Token) : Bool := t.name == endName

/-- The form of a token in messages. -/
def display (t : Token) : String :=
  if t.isEnd then "end of input" else t.name ++ "(" ++ Text.quoted t.text ++ ")"

end Token
end Descent
