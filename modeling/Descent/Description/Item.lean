import Descent.Description.Recognizer
import Descent.Description.Arguments

/-!
# Declarations

A description is a series of declarations: the header, token rules, lists of skipped
tokens, the start rule, and parser rules. `Item.recognizer` reads one declaration.
-/

namespace Descent.Description

/-- A declaration. -/
inductive Item where
  | header (text : String)
  | token (rule : TokenRule)
  | skip (names : List String)
  | start (name : String)
  | rule (rule : ParserRule)
deriving DecidableEq, Repr

open Recognizer

/-- A word that is the keyword. -/
def keyword (k : Keyword) : Recognizer Unit := just (.keyword k)

/-- A word that is the mark. -/
def punctuation (p : Punctuation) : Recognizer Unit := just (.punctuation p)

/-- The name of a token. -/
def tokenName : Recognizer String :=
  labelled "token name" <| word [] fun
    | .upper name => some name
    | _ => none

/-- The name of a rule or a variable. -/
def ruleName : Recognizer String :=
  labelled "rule name" <| word [] fun
    | .lower name => some name
    | _ => none

/-- A block of code. -/
def codeBlock : Recognizer String :=
  labelled "action block" <| word [] fun
    | .code text => some text
    | _ => none

/-- A block in square brackets. -/
def bracketBlock : Recognizer String :=
  labelled "bracket block" <| word [] fun
    | .bracket text => some text
    | _ => none

/-- A quoted pattern. -/
def patternText : Recognizer String :=
  labelled "pattern" <| word [] fun
    | .pattern text => some text
    | _ => none

/-- The header keyword and a block. -/
def headerItem : Recognizer Item := ((keyword .header).after codeBlock).map .header

/-- A token name and its pattern. -/
def tokenItem : Recognizer Item :=
  (((((keyword .token).after tokenName).before (punctuation .equals)).both patternText).before
    (punctuation .semicolon)).map fun (name, pattern) => .token ⟨name, pattern⟩

/-- Token names separated by commas. -/
def skipItem : Recognizer Item :=
  (((keyword .skip).after (tokenName.separated (punctuation .comma))).before
    (punctuation .semicolon)).map .skip

/-- The name of the start rule. -/
def startItem : Recognizer Item :=
  (((keyword .start).after ruleName).before (punctuation .semicolon)).map .start

/-- The variable that an atom is bound to. -/
def bindingName : Recognizer (Option String) := (ruleName.before (punctuation .equals)).optional

/-- The variable of an atom that is bound to none. -/
def unbound : String := "_"

/-- A token, with code behind it. -/
def terminalAtom : Recognizer Atom :=
  ((bindingName.both tokenName).both codeBlock.optional).map fun ((binding, name), action) =>
    ⟨binding.getD unbound, name, .terminal, action⟩

/-- A rule with its arguments, and code behind it. -/
def nonterminalAtom : Recognizer Atom :=
  (((bindingName.both ruleName).both bracketBlock.optional).both codeBlock.optional).map
    fun (((binding, name), arguments), action) =>
      ⟨binding.getD unbound, name,
        .nonterminal ((arguments.map (splitTopLevel false)).getD []), action⟩

/-- A reference to a terminal or to a rule. -/
def atom : Recognizer Atom := labelled "atom" (terminalAtom.orElse nonterminalAtom)

/-- The empty text, with code before and behind it. -/
def epsilonAlternative : Recognizer Alternative :=
  ((codeBlock.optional.before (keyword .eps)).both codeBlock.optional).map fun (init, code) =>
    .epsilon init code

/-- At least one atom, with code before it. -/
def sequenceAlternative : Recognizer Alternative :=
  (codeBlock.optional.both atom.some1).map fun (init, atoms) => .sequence init atoms

/-- The empty text or a sequence. -/
def alternative : Recognizer Alternative :=
  labelled "alternative" (epsilonAlternative.orElse sequenceAlternative)

/-- The bindings of a list, or the first error. -/
def readBindings (texts : List String) : Except BindingError (List Binding) :=
  texts.mapM readBinding

/-- What a rule returns: exactly one binding. -/
inductive ReturnsError where
  | binding (e : BindingError)
  | notOne

/-- What a rule returns, read from the text of its block. -/
def readReturns (text : String) : Except ReturnsError Binding :=
  match splitTopLevel true text with
  | [single] =>
    match readBinding single with
    | .ok b => .ok b
    | .error e => .error (.binding e)
  | _ => .error .notOne

/-- Makes a parser rule of its parts; the arguments are checked before the return binding. -/
def makeRule (name : String) (arguments : Option String) (returns : String)
    (alternatives : List Alternative) : Except String ParserRule :=
  let complaint (text : String) := "rule " ++ Text.quoted name ++ text
  match readBindings (splitTopLevel true (arguments.getD "")) with
  | .error e => .error (complaint (": " ++ e.message))
  | .ok arguments =>
    match readReturns returns with
    | .error (.binding e) => .error (complaint (": " ++ e.message))
    | .error .notOne => .error (complaint " must return exactly one \x60name: type\x60")
    | .ok returns => .ok ⟨name, arguments, returns, alternatives⟩

/-- A rule with its arguments, its return binding and its alternatives. -/
def ruleItem : Recognizer Item :=
  checked (fun (((name, arguments), returns), alternatives) =>
      (makeRule name arguments returns alternatives).map .rule)
    ((((((ruleName.both bracketBlock.optional).before (keyword .returns)).both
      bracketBlock).before (punctuation .colon)).both
      (alternative.separated (punctuation .pipe))).before (punctuation .semicolon))

namespace Item

/-- One declaration. -/
def recognizer : Recognizer Item :=
  headerItem.orElse <| tokenItem.orElse <| skipItem.orElse <| startItem.orElse ruleItem

/-- The declarations that a series of words stands for. -/
def readAll (words : List Lexeme) : Except Complaint (List Item) := recognizer.many.readAll words

end Item
end Descent.Description
