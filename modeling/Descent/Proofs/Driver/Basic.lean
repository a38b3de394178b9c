import Descent.Proofs.Grammar.Numbering
import Descent.Tokens.Stream

/-!
# The driver of a grammar

The driver is what the artifact of the parser does when it runs, with the actions left
out: in place of what they compute it builds a derivation tree. The depth of calls is
bounded, and a run that would need more calls fails with a failure of its own, which
no bound that is large enough brings about.
-/

namespace Descent

/-- A derivation tree: a token, or a rule with the position of an alternative and a tree for each of
its atoms. -/
inductive ParseTree where
  | token (kind : String)
  | node (rule : String) (alternative : Nat) (parts : List ParseTree)

mutual

/-- The kinds of the tokens of a tree, from left to right. -/
def ParseTree.yield : ParseTree → List String
  | .token kind => [kind]
  | .node _ _ parts => yieldAll parts

/-- The kinds of the tokens of trees in a row. -/
def ParseTree.yieldAll : List ParseTree → List String
  | [] => []
  | tree :: rest => tree.yield ++ yieldAll rest

end

/-- The calls are nested more deeply than is allowed. -/
inductive CallLimit where
  | reached
deriving DecidableEq, Repr

namespace Grammar

/-- The alternatives, each with its position, that make up the arms of a rule; of those that the kind
selects the first one counts. -/
def arm? (g : Grammar) (a : Analysis) (name kind : String) : Option (Alternative × Nat) :=
  g.parserRules[g.ruleId name]?.bind fun r =>
    r.alternatives.zipIdx.find? fun (_, i) =>
      (a.tokenNames (a.markersOf (g.ruleId name) i)).contains kind

open Descent.Parser

/-- Runs an atom: a terminal is checked and taken, a rule is called. -/
def runAtom (call : String → Parser String CallLimit ParseTree) (x : Atom) :
    Parser String CallLimit ParseTree :=
  if x.isTerminal then terminal x.name x.name fun _ => .ok (.token x.name) else call x.name

/-- Runs the atoms of an alternative one after the other. -/
def runAtoms (call : String → Parser String CallLimit ParseTree) :
    List Atom → Parser String CallLimit (List ParseTree)
  | [] => return []
  | x :: rest => do
    let part ← runAtom call x
    let parts ← runAtoms call rest
    return part :: parts

/-- Runs a rule: the kind of the current token selects the arm. -/
def runRule (g : Grammar) (a : Analysis) : Nat → String → Parser String CallLimit ParseTree
  | 0, _ => act (.error .reached)
  | depth + 1, name => do
    match g.arm? a name (← kind) with
    | some (alt, i) =>
      let parts ← runAtoms (g.runRule a depth) alt.atoms
      return .node name i parts
    | none => unexpected (a.tokenNames (a.expected (g.ruleId name)))

/-- Runs the start rule on the whole input. -/
def drive (g : Grammar) (a : Analysis) (depth : Nat) : Parser String CallLimit ParseTree :=
  whole endName (g.runRule a depth g.startRule.name)

/-- The trees derive the atoms: a terminal stands for its token, and any other atom for a rule of
which some alternative is derived. -/
inductive Derivation (g : Grammar) : List Atom → List ParseTree → Prop where
  | nil : Derivation g [] []
  | token {x : Atom} {rest : List Atom} {parts : List ParseTree} (hx : x.isTerminal = true)
      (h : Derivation g rest parts) : Derivation g (x :: rest) (.token x.name :: parts)
  | node {x : Atom} {rest : List Atom} {parts inner : List ParseTree} {r : ParserRule}
      {alt : Alternative} {i : Nat} (hx : x.isTerminal = false) (hr : r ∈ g.parserRules)
      (hname : r.name = x.name) (halt : r.alternatives[i]? = some alt)
      (hinner : Derivation g alt.atoms inner) (h : Derivation g rest parts) :
      Derivation g (x :: rest) (.node x.name i inner :: parts)

/-- The tree is a derivation tree of the rule with the name. -/
def IsTreeOf (g : Grammar) (name : String) (tree : ParseTree) : Prop :=
  ∃ r ∈ g.parserRules, r.name = name ∧ ∃ alt i inner, r.alternatives[i]? = some alt ∧
    g.Derivation alt.atoms inner ∧ tree = .node name i inner

end Grammar
end Descent
