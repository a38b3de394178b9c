import Descent.Text.Quoted

/-!
# Words of grammar descriptions

A grammar description is a text. Its words are keywords, names, patterns, blocks of
code and punctuation.
-/

namespace Descent.Description

/-- The reserved words. -/
inductive Keyword where
  | header
  | token
  | skip
  | start
  | returns
  | eps
deriving DecidableEq, Repr

/-- The keyword as it is spelled. -/
def Keyword.spelling : Keyword → String
  | header => "header"
  | token => "token"
  | skip => "skip"
  | start => "start"
  | returns => "returns"
  | eps => "eps"

/-- All reserved words. -/
def Keyword.all : List Keyword := [header, token, skip, start, returns, eps]

/-- The words of one character. -/
inductive Punctuation where
  | equals
  | semicolon
  | comma
  | pipe
  | colon
deriving DecidableEq, Repr

/-- The mark as it is written. -/
def Punctuation.character : Punctuation → Char
  | equals => '='
  | semicolon => ';'
  | comma => ','
  | pipe => '|'
  | colon => ':'

/-- All words of one character. -/
def Punctuation.all : List Punctuation := [equals, semicolon, comma, pipe, colon]

/-- A word of a grammar description. -/
inductive Lexeme where
  | keyword (k : Keyword)
  /-- A name that begins with a capital letter: a token. -/
  | upper (name : String)
  /-- Any other name: a rule or a variable. -/
  | lower (name : String)
  /-- A pattern, without its quotes and with the quotes inside it as they are meant. -/
  | pattern (text : String)
  /-- The inside of a block in braces. -/
  | code (text : String)
  /-- The inside of a block in square brackets. -/
  | bracket (text : String)
  | punctuation (p : Punctuation)
deriving DecidableEq, Repr

/-- The form of a word in messages. -/
def Lexeme.display : Lexeme → String
  | keyword k => "\x60" ++ k.spelling ++ "\x60"
  | upper name => "\x60" ++ name ++ "\x60"
  | lower name => "\x60" ++ name ++ "\x60"
  | pattern text => "pattern " ++ Text.quoted text
  | code _ => "action block"
  | bracket _ => "bracket block"
  | punctuation p => "\x60" ++ String.ofList [p.character] ++ "\x60"

/-- A word with the offsets of its first byte and of the byte behind it. -/
structure Placed where
  lexeme : Lexeme
  start : Nat
  stop : Nat
deriving DecidableEq, Repr

end Descent.Description
