import Descent.Description.Item
import Descent.Proofs.Description.Recognizers
import Mathlib.Data.List.Forall2

/-!
# The forms of declarations

The grammar of declarations, as relations between a declaration and words. A description
has the form of its declarations one after the other.
-/

namespace Descent.Description

variable {α : Type}

/-- The word in front of words of the form. -/
def Led (separator : Lexeme) (Form : α → List Lexeme → Prop) (a : α) (words : List Lexeme) : Prop :=
  ∃ rest, Form a rest ∧ words = separator :: rest

/-- Words of the form of one value, and behind them a separator and words of the form for each
further value. -/
inductive Separated (separator : Lexeme) (Form : α → List Lexeme → Prop) :
    List α → List Lexeme → Prop where
  | mk {a : α} {as : List α} {words rest : List Lexeme} (h : Form a words)
      (hrest : Series (Led separator Form) as rest) :
      Separated separator Form (a :: as) (words ++ rest)

/-- The word of a block of code, if there is one. -/
def codeWords (code : Option String) : List Lexeme := code.toList.map .code

/-- The word of a block in square brackets, if there is one. -/
def bracketWords (text : Option String) : List Lexeme := text.toList.map .bracket

/-- A variable and the word behind it, if there is one. -/
def bindingWords : Option String → List Lexeme
  | none => []
  | some name => [.lower name, .punctuation .equals]

/-- The elements of the text of a block in square brackets; there are none without a block. -/
def argumentsOf (text : Option String) : List String := (text.map (splitTopLevel false)).getD []

/-- An atom: a token, or a rule with its arguments, with the variable in front of it and code
behind it. -/
inductive AtomForm : Atom → List Lexeme → Prop where
  | terminal (binding : Option String) (name : String) (action : Option String) :
      AtomForm ⟨binding.getD unbound, name, .terminal, action⟩
        (bindingWords binding ++ .upper name :: codeWords action)
  | nonterminal (binding : Option String) (name : String) (arguments action : Option String) :
      AtomForm ⟨binding.getD unbound, name, .nonterminal (argumentsOf arguments), action⟩
        (bindingWords binding ++ .lower name :: (bracketWords arguments ++ codeWords action))

/-- An alternative: the keyword of the empty text with code before and behind it, or atoms with code
before them. -/
inductive AlternativeForm : Alternative → List Lexeme → Prop where
  | epsilon (init code : Option String) :
      AlternativeForm (.epsilon init code) (codeWords init ++ .keyword .eps :: codeWords code)
  | sequence (init : Option String) {atoms : List Atom} {words : List Lexeme} (hne : atoms ≠ [])
      (h : Series AtomForm atoms words) :
      AlternativeForm (.sequence init atoms) (codeWords init ++ words)

/-- The elements of a list of arguments are bindings. -/
def AreBindings (pieces : List String) (bindings : List Binding) : Prop :=
  List.Forall₂ (fun piece b => readBinding piece = .ok b) pieces bindings

/-- A rule: its name, its arguments, what it returns, and its alternatives. -/
inductive RuleForm : ParserRule → List Lexeme → Prop where
  | mk (name : String) {arguments : Option String} {returns : String} {bindings : List Binding}
      {piece : String} {result : Binding} {alternatives : List Alternative} {words : List Lexeme}
      (harguments : AreBindings (splitTopLevel true (arguments.getD "")) bindings)
      (hreturns : splitTopLevel true returns = [piece]) (hresult : readBinding piece = .ok result)
      (halternatives : Separated (.punctuation .pipe) AlternativeForm alternatives words) :
      RuleForm ⟨name, bindings, result, alternatives⟩
        (.lower name :: (bracketWords arguments ++ .keyword .returns :: .bracket returns ::
          .punctuation .colon :: (words ++ [.punctuation .semicolon])))

/-- A declaration. -/
inductive ItemForm : Item → List Lexeme → Prop where
  | header (text : String) : ItemForm (.header text) [.keyword .header, .code text]
  | token (name pattern : String) : ItemForm (.token ⟨name, pattern⟩)
      [.keyword .token, .upper name, .punctuation .equals, .pattern pattern,
        .punctuation .semicolon]
  | skip {names : List String} {words : List Lexeme}
      (h : Separated (.punctuation .comma) (fun name words => words = [.upper name]) names words) :
      ItemForm (.skip names) (.keyword .skip :: (words ++ [.punctuation .semicolon]))
  | start (name : String) :
      ItemForm (.start name) [.keyword .start, .lower name, .punctuation .semicolon]
  | rule {r : ParserRule} {words : List Lexeme} (h : RuleForm r words) : ItemForm (.rule r) words

end Descent.Description
