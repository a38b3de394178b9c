import Descent.Tokens.Token

/-!
# Grammars

A grammar has token rules, some of which are skipped between tokens, and parser
rules, whose alternatives are sequences of atoms. Fragments of code belong to the
language in which parsers are written; they are kept as they stand.
-/

namespace Descent

/-- A token rule: a name and a pattern. -/
structure TokenRule where
  name : String
  pattern : String
deriving DecidableEq, Repr, Inhabited

/-- A name with its type: an argument of a rule, or what the rule returns. -/
structure Binding where
  name : String
  type : String
deriving DecidableEq, Repr, Inhabited

/-- What an atom refers to: a token, or a rule that is called with arguments. -/
inductive Reference where
  | terminal
  | nonterminal (arguments : List String)
deriving DecidableEq, Repr, Inhabited

/-- An element of a sequence: the variable it is bound to, the name of the token or rule, and
code to run behind it. -/
structure Atom where
  binding : String
  name : String
  reference : Reference
  action : Option String
deriving DecidableEq, Repr, Inhabited

/-- The atom refers to a token. -/
def Atom.isTerminal (a : Atom) : Bool := a.reference matches .terminal

/-- An alternative of a rule, with code to run at its beginning. -/
inductive Alternative where
  /-- Matches the empty text and runs code. -/
  | epsilon (init code : Option String)
  /-- Matches its atoms one after the other. -/
  | sequence (init : Option String) (atoms : List Atom)
deriving DecidableEq, Repr, Inhabited

namespace Alternative

/-- The code that is run before the first atom. -/
def init : Alternative → Option String
  | epsilon init _ => init
  | sequence init _ => init

/-- The atoms of a sequence; none for the empty text. -/
def atoms : Alternative → List Atom
  | epsilon _ _ => []
  | sequence _ atoms => atoms

end Alternative

/-- A parser rule; the order of its alternatives is their priority. -/
structure ParserRule where
  name : String
  arguments : List Binding
  returns : Binding
  alternatives : List Alternative
deriving DecidableEq, Repr, Inhabited

/-- The atoms of all alternatives, in order. -/
def ParserRule.atoms (r : ParserRule) : List Atom := r.alternatives.flatMap Alternative.atoms

/-- A grammar. The start rule is given by its position among the parser rules. -/
structure Grammar where
  header : String
  tokenRules : List TokenRule
  skipNames : List String
  start : Nat
  parserRules : List ParserRule
deriving DecidableEq, Repr, Inhabited

namespace Grammar

/-- Whether the name is that of a skipped token rule. -/
def isSkip (g : Grammar) (name : String) : Bool := g.skipNames.contains name

/-- The rules of the skipped tokens, in the order of the skip list. -/
def skipRules (g : Grammar) : List TokenRule :=
  g.skipNames.filterMap fun name => g.tokenRules.find? fun t => t.name == name

/-- The rules of the tokens that a lexer hands on, in the order of their declarations. -/
def lexemes (g : Grammar) : List TokenRule := g.tokenRules.filter fun t => !g.isSkip t.name

/-- The parser rule with the given name. -/
def rule? (g : Grammar) (name : String) : Option ParserRule :=
  g.parserRules.find? fun r => r.name == name

/-- The rule that a parse begins with. -/
def startRule (g : Grammar) : ParserRule := g.parserRules.getD g.start default

end Grammar
end Descent
