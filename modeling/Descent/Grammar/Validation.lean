import Descent.Grammar.Basic
import Descent.Grammar.Error
import Descent.Grammar.SymbolTable
import Descent.Pattern.Compiled

/-!
# Valid grammars

`Grammar.validate` makes a grammar of its parts. The parts are checked one after
the other in a fixed order, and the first fault that is found is reported, with the
first offender in the order of the text.
-/

namespace Descent

/-- Turns the failure of a check on distinct names into a fault. -/
def distinct (names : List String) (fault : String → GrammarError) :
    Except GrammarError SymbolTable :=
  match SymbolTable.unique names with
  | .ok t => .ok t
  | .error name => .error (fault name)

/-- Passes if there is no fault. -/
def noFault : Option GrammarError → Except GrammarError Unit
  | some e => .error e
  | none => .ok ()

namespace ParserRule

/-- The first atom of a rule that names no token or no rule. -/
def unknownAtom? (terminals nonterminals : SymbolTable) (r : ParserRule) : Option GrammarError :=
  r.atoms.findSome? fun a =>
    if a.isTerminal then
      if terminals.contains a.name then none else some (.unknownSymbol r.name a.name .terminal)
    else
      if nonterminals.contains a.name then none
      else some (.unknownSymbol r.name a.name .nonterminal)

/-- The first atom of a rule that waits for a skipped token. -/
def skippedAtom? (skipNames : List String) (r : ParserRule) : Option GrammarError :=
  (r.atoms.find? fun a => a.isTerminal && skipNames.contains a.name).map fun a =>
    .skippedTerminal r.name a.name

end ParserRule

/-- The reason given for a pattern that cannot be compiled, whatever is wrong with it. -/
def patternReason : String := "not a regular expression"

/-- The fault of a token rule whose pattern is no regular expression. -/
def TokenRule.patternFault? (t : TokenRule) : Option GrammarError :=
  if (Pattern.compileAnchored? t.pattern).isSome then none
  else some (.invalidPattern t.name patternReason)

/-- Makes a grammar of its parts, or reports the first fault. -/
def Grammar.validate (header : String) (tokenRules : List TokenRule) (skipNames : List String)
    (start : String) (parserRules : List ParserRule) : Except GrammarError Grammar := do
  let ruleNames := parserRules.map (·.name)
  let terminals ← distinct (tokenRules.map (·.name)) .duplicateTokenRule
  let _ ← distinct skipNames .duplicateSkip
  noFault <| (skipNames.find? fun s => !terminals.contains s).map .unknownSkip
  let startIndex ← match ruleNames.idxOf? start with
    | some i => .ok i
    | none => .error (.unknownStart start)
  noFault <| parserRules.findSome? (·.unknownAtom? terminals (.ofList ruleNames))
  let _ ← distinct ruleNames .duplicateParserRule
  noFault <| (tokenRules.find? fun t => t.name == endName).map fun t => .reservedTokenName t.name
  noFault <| parserRules.findSome? (·.skippedAtom? skipNames)
  noFault <| tokenRules.findSome? (·.patternFault?)
  .ok ⟨header, tokenRules, skipNames, startIndex, parserRules⟩

end Descent
