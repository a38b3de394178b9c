import Descent.Grammar.Basic
import Descent.Text.Blank
import Descent.Text.Quoted
import Descent.Text.Case

/-!
# Lists of arguments

The inside of a bracket block is a list separated by commas. A comma separates only
where no bracket is open. Angle brackets nest as well if the block holds types,
except in an arrow. A binding is a name and a type with a colon between them.
-/

namespace Descent.Description

open Descent.Text

/-- What a character adds to the depth of nesting, given the character before it. -/
def nesting (angles : Bool) (before c : Char) : Int :=
  if c == '(' || c == '[' || c == '\x7b' then 1
  else if c == ')' || c == ']' || c == '\x7d' then -1
  else if angles && c == '<' then 1
  else if angles && c == '>' && before != '-' then -1
  else 0

/-- Cuts a text at its commas of depth zero; `piece` is the current piece, reversed. -/
def cutAtCommas (angles : Bool) (depth : Int) (before : Char) (piece : List Char) :
    List Char → List (List Char)
  | [] => [piece.reverse]
  | c :: rest =>
    if c == ',' && depth == 0 then piece.reverse :: cutAtCommas angles depth c [] rest
    else cutAtCommas angles (depth + nesting angles before c) c (c :: piece) rest

/-- The elements of a list, without the white space around them; a blank text has none. -/
def splitTopLevel (angles : Bool) (text : String) : List String :=
  if text.toList.all isBlank then []
  else (cutAtCommas angles 0 '\x00' [] text.toList).map fun p => String.ofList (trim p)

/-- Why a text is no binding. -/
inductive BindingError where
  | noColon (text : String)
  | badName (name : String)
  | noType (name : String)
deriving DecidableEq, Repr

/-- The message of a binding that cannot be read. -/
def BindingError.message : BindingError → String
  | noColon text => "expected \x60name: type\x60, found " ++ quoted text
  | badName name => "invalid binding name " ++ quoted name
  | noType name => "missing type for " ++ quoted name

/-- The text is the name of a variable. -/
def isVariableName (name : List Char) : Bool :=
  name.head?.any (fun c => isAsciiLower c || c == '_') &&
    name.all fun c => isAsciiLower c || isAsciiUpper c || isAsciiDigit c || c == '_'

/-- Reads a binding. -/
def readBinding (text : String) : Except BindingError Binding :=
  let before := text.toList.takeWhile (· != ':')
  match text.toList.drop before.length with
  | [] => .error (.noColon text)
  | _ :: after =>
    let name := trim before
    let type := trim after
    if !isVariableName name then .error (.badName (String.ofList name))
    else if type.isEmpty then .error (.noType (String.ofList name))
    else .ok ⟨String.ofList name, String.ofList type⟩

end Descent.Description
