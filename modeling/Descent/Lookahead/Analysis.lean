import Descent.Lookahead.Conflict
import Descent.Grammar.Basic
import Descent.Grammar.Error
import Descent.Grammar.SymbolTable

/-!
# The analysis of a grammar

The analysis numbers the terminals of a grammar, with the end of input behind them,
and its rules, computes the lookahead sets and refuses a grammar with a conflict.
-/

namespace Descent

/-- What one token of lookahead tells in a grammar without conflicts. -/
structure Analysis where
  terminals : SymbolTable
  nonterminals : SymbolTable
  first : List FirstSet
  follow : List TokenSet
  markers : List (List TokenSet)
deriving DecidableEq, Inhabited

/-- The label of the empty text in printed sets. -/
def epsilonLabel : String := "ε"

/-- The number of an atom's symbol. -/
def Atom.symbol (terminals nonterminals : SymbolTable) (rule : String) (a : Atom) :
    Except GrammarError Symbol :=
  if a.isTerminal then
    match terminals.id? a.name with
    | some t => .ok (.term t)
    | none => .error (.unknownSymbol rule a.name .terminal)
  else
    match nonterminals.id? a.name with
    | some n => .ok (.rule n)
    | none => .error (.unknownSymbol rule a.name .nonterminal)

namespace Grammar

/-- The terminals in the order of their declarations, the end of input last. -/
def terminals (g : Grammar) : SymbolTable := .ofList (g.lexemes.map (·.name) ++ [endName])

/-- The parser rules in the order of their declarations. -/
def nonterminals (g : Grammar) : SymbolTable := .ofList (g.parserRules.map (·.name))

/-- The rules with numbers for names. -/
def productions (g : Grammar) : Except GrammarError Productions :=
  g.parserRules.mapM fun r =>
    r.alternatives.mapM fun alt => alt.atoms.mapM (Atom.symbol g.terminals g.nonterminals r.name)

end Grammar

namespace Analysis

/-- The fault that a conflict of the grammar is. -/
def faultOf (g : Grammar) (c : Conflict) : GrammarError :=
  let labels := if c.overlap.epsilon then [epsilonLabel] else []
  .notLL1 (g.parserRules.getD c.rule default).name c.first c.second
    (labels ++ c.overlap.tokens.ids.filterMap g.terminals.name?)

/-- Analyses a grammar; fails if it has a conflict. -/
def ofGrammar (g : Grammar) : Except GrammarError Analysis := do
  let prods ← g.productions
  let first := firstSets prods
  let follow := followSets prods first g.start (g.terminals.size - 1)
  match findConflict prods first follow with
  | some c => .error (faultOf g c)
  | none => .ok ⟨g.terminals, g.nonterminals, first, follow, markerSets prods first follow⟩

/-- The number of the end of input. -/
def endId (a : Analysis) : Nat := a.terminals.size - 1

/-- The name of a terminal; a number that is none counts as the end of input. -/
def tokenName (a : Analysis) (t : Nat) : String := (a.terminals.name? t).getD endName

/-- The names of the members of a set. -/
def tokenNames (a : Analysis) (s : TokenSet) : List String := s.ids.map a.tokenName

/-- The terminals that select an alternative of a rule. -/
def markersOf (a : Analysis) (rule alt : Nat) : TokenSet := (a.markers.getD rule []).getD alt ∅

/-- The terminals that select any alternative of a rule. -/
def expected (a : Analysis) (rule : Nat) : TokenSet := .unionAll (a.markers.getD rule [])

/-- A line of the printed table. -/
def tableLine (lead label : String) (members : List String) : String :=
  lead ++ label ++ " = \x7b" ++ ", ".intercalate members ++ "\x7d\n"

/-- The FIRST, FOLLOW and marker sets of all rules, one set a line, each behind `lead`. -/
def table (a : Analysis) (lead : String) : String :=
  let rules := a.nonterminals.names
  let firsts := (rules.zip a.first).map fun (rule, s) =>
    tableLine lead ("FIRST(" ++ rule ++ ")")
      ((if s.epsilon then [epsilonLabel] else []) ++ a.tokenNames s.tokens)
  let follows := (rules.zip a.follow).map fun (rule, s) =>
    tableLine lead ("FOLLOW(" ++ rule ++ ")") (a.tokenNames s)
  let markers := (rules.zip a.markers).flatMap fun (rule, alts) =>
    alts.zipIdx.map fun (s, i) =>
      tableLine lead ("MARKERS(" ++ rule ++ ", " ++ toString i ++ ")") (a.tokenNames s)
  String.join (firsts ++ follows ++ markers)

end Analysis
end Descent
