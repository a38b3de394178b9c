import Descent.Description.Lexer
import Descent.Description.Item
import Descent.Grammar.Validation

/-!
# Reading grammar descriptions

A description is split into words, the words are read as declarations, and these are
assembled to a grammar, which is then checked. There is one start declaration and at
most one header.
-/

namespace Descent.Description

open Descent.Text

/-- Why a text does not describe a grammar. -/
inductive ReadError where
  /-- No word begins at the offset. -/
  | words (offset : Nat)
  /-- The words at the offset are no declaration. -/
  | declarations (offset : Nat) (complaint : Complaint)
  | secondHeader
  | secondStart
  | noStart
  | invalid (e : GrammarError)
deriving DecidableEq, Repr

/-- The message of a description that cannot be read. -/
def ReadError.message : ReadError → String
  | .words offset => "invalid grammar syntax at offset " ++ toString offset
  | .declarations offset c =>
    "grammar syntax error at offset " ++ toString offset ++ ": " ++ c.message
  | .secondHeader => "more than one \x60header\x60 block"
  | .secondStart => "more than one \x60start\x60 declaration"
  | .noStart => "missing \x60start\x60 declaration"
  | .invalid e => e.message

/-- The parts of a grammar as they are collected from the declarations. -/
structure Parts where
  header : Option String := none
  start : Option String := none
  tokenRules : List TokenRule := []
  skipNames : List String := []
  parserRules : List ParserRule := []

namespace Parts

/-- Adds a declaration. -/
def add (parts : Parts) : Item → Except ReadError Parts
  | .header text =>
    if parts.header.isSome then .error .secondHeader else .ok { parts with header := some text }
  | .start name =>
    if parts.start.isSome then .error .secondStart else .ok { parts with start := some name }
  | .token rule => .ok { parts with tokenRules := parts.tokenRules ++ [rule] }
  | .skip names => .ok { parts with skipNames := parts.skipNames ++ names }
  | .rule rule => .ok { parts with parserRules := parts.parserRules ++ [rule] }

/-- The parts that a series of declarations gives. -/
def ofItems (items : List Item) : Except ReadError Parts := items.foldlM add {}

/-- Assembles the grammar and checks it. -/
def toGrammar (parts : Parts) : Except ReadError Grammar :=
  match parts.start with
  | none => .error .noStart
  | some start =>
    let header := String.ofList (trim (parts.header.getD "").toList)
    match Grammar.validate header parts.tokenRules parts.skipNames start parts.parserRules with
    | .ok g => .ok g
    | .error e => .error (.invalid e)

end Parts

/-- The declarations of a description. -/
def readItems (source : String) : Except ReadError (List Item) :=
  match lexemes source.toList with
  | .error offset => .error (.words offset)
  | .ok words =>
    match Item.readAll (words.map (·.lexeme)) with
    | .error c =>
      .error (.declarations (offsetOf words c.first (byteLength source.toList)) c)
    | .ok items => .ok items

/-- The grammar that a description describes. -/
def read (source : String) : Except ReadError Grammar := do
  let parts ← Parts.ofItems (← readItems source)
  parts.toGrammar

end Descent.Description
