import Descent.Languages.Tree
import Descent.Proofs.Languages.Implementation

/-!
# Trees and their description

The description of the grammar of trees, what its code means, and the parser of trees
compared with it.
-/

namespace Descent.Languages.Tree

open Descent.Parser

instance : Inhabited Tree := ⟨a⟩

/-- The description of the grammar. -/
def description : String :=
  "-- Binary trees over the leaves `a` and `b`: `(a (b a))`.
-- No epsilon alternatives and single-character tokens, so the text of a
-- tree determines its derivation exactly.

header \x7b
use crate::Tree;
\x7d

token A = \"a\";
token B = \"b\";
token LPAREN = \"\\(\";
token RPAREN = \"\\)\";
token WS = \" +\";

skip WS;
start tree;

tree returns [res: Tree]
    : A \x7b res = Tree::Leaf('a'); \x7d
    | B \x7b res = Tree::Leaf('b'); \x7d
    | LPAREN left=tree right=tree RPAREN \x7b res = Tree::pair(left, right); \x7d
    ;
"

/-- The code that returns the leaf `a`. -/
def aCode : String := " res = Tree::Leaf('a'); "

/-- The code that returns the leaf `b`. -/
def bCode : String := " res = Tree::Leaf('b'); "

/-- The code that returns a pair. -/
def pairCode : String := " res = Tree::pair(left, right); "

/-- The alternative of the leaf `a`. -/
def aAlternative : Alternative := .sequence none [⟨"_", "A", .terminal, some aCode⟩]

/-- The alternative of the leaf `b`. -/
def bAlternative : Alternative := .sequence none [⟨"_", "B", .terminal, some bCode⟩]

/-- The alternative of two trees in parentheses. -/
def pairAlternative : Alternative :=
  .sequence none [⟨"_", "LPAREN", .terminal, none⟩, ⟨"left", "tree", .nonterminal [], none⟩,
    ⟨"right", "tree", .nonterminal [], none⟩, ⟨"_", "RPAREN", .terminal, some pairCode⟩]

/-- The grammar that is described. -/
def grammar : Grammar where
  header := "use crate::Tree;"
  tokenRules := [⟨"A", "a"⟩, ⟨"B", "b"⟩, ⟨"LPAREN", "\\("⟩, ⟨"RPAREN", "\\)"⟩, ⟨"WS", " +"⟩]
  skipNames := ["WS"]
  start := 0
  parserRules :=
    [⟨"tree", [], ⟨"res", "Tree"⟩, [aAlternative, bAlternative, pairAlternative]⟩]

/-- What the analysis of the grammar computes. -/
def analysis : Analysis where
  terminals := .ofList ["A", "B", "LPAREN", "RPAREN", endName]
  nonterminals := .ofList ["tree"]
  first := [⟨.ofList [0, 1, 2], false⟩]
  follow := [.ofList [0, 1, 2, 3, 4]]
  markers := [[.ofList [0], .ofList [1], .ofList [2]]]

set_option maxRecDepth 20000 in
/-- The description is read as the grammar of trees. -/
theorem read_description : Description.read description = .ok grammar :=
  Description.read_ofList (by decide +kernel)

/-- The grammar of trees has no conflicts. -/
theorem analysed : Analysis.ofGrammar grammar = .ok analysis := by decide +kernel

/-- The patterns of trees are compiled. -/
theorem isSome_lexicon? : lexicon?.isSome = true := by decide +kernel

private theorem name_injective : Function.Injective Kind.name := by
  intro k l h
  cases k <;> cases l <;> first | rfl | exact absurd h (by decide)

/-- What the code means. Nothing fails. -/
def meaning : Meaning Tree ActionError where
  run code scope :=
    if code = aCode then .ok (scope.bind "res" (.value a))
    else if code = bCode then .ok (scope.bind "res" (.value b))
    else if code = pairCode then
      .ok (scope.bind "res" (.value (pair (scope.value "left") (scope.value "right"))))
    else .ok scope
  argument text scope := scope.value text

section

variable (scope : Scope Tree)

private theorem run_aCode : meaning.run aCode scope = .ok (scope.bind "res" (.value a)) := by
  simp [meaning]

private theorem run_bCode : meaning.run bCode scope = .ok (scope.bind "res" (.value b)) := by
  simp [meaning, aCode, bCode]

/-- The code of a pair binds the pair of the two parts. -/
theorem run_pairCode : meaning.run pairCode scope =
    .ok (scope.bind "res" (.value (pair (scope.value "left") (scope.value "right")))) := by
  simp [meaning, aCode, bCode, pairCode]

end

/-- The kinds that select an arm. -/
theorem arm?_tree (k : Kind) : grammar.arm? analysis "tree" k.name =
    match k with
    | .a => some (aAlternative, 0)
    | .b => some (bAlternative, 1)
    | .lparen => some (pairAlternative, 2)
    | .rparen | .finish => none := by
  cases k <;> decide +kernel

/-- A tree imitates the driver. -/
theorem tree_imitates (depth : Nat) :
    Imitates Kind.name id (tree depth) (grammar.enactRule analysis meaning depth "tree" []) := by
  induction depth with
  | zero => exact .limit
  | succ depth ih =>
      refine .kind_bind fun k => ?_
      have harm := arm?_tree k
      cases k with
      | a =>
          simp only [harm]
          rw [aAlternative, Meaning.enactAlternative_sequence]
          refine .token_atom name_injective (g := fun _ _ => _) (fun t => run_aCode _) fun t _ => ?_
          exact .pure a
      | b =>
          simp only [harm]
          rw [bAlternative, Meaning.enactAlternative_sequence]
          refine .token_atom name_injective (g := fun _ _ => _) (fun t => run_bCode _) fun t _ => ?_
          exact .pure b
      | lparen =>
          simp only [harm]
          rw [pairAlternative, Meaning.enactAlternative_sequence]
          refine .mark_atom name_injective (.call_atom ih (fun left => rfl) fun left =>
            .call_atom ih (fun right => rfl) fun right => ?_)
          refine .token_atom name_injective (g := fun _ _ => _) (fun t => run_pairCode _) fun t _ => ?_
          exact .pure (pair left right)
      | rparen | finish =>
          simp only [harm]
          exact .unexpected _

/-- A tree takes a parenthesis before it calls itself. -/
theorem ranked : grammar.Ranked (fun _ => 0) (fun _ => false) 0 where
  le_top _ := Nat.le_refl 0
  taking _ _ h := nomatch h
  descends := by decide

/-- The parser of trees can be compared with the driver of its grammar. -/
theorem compared :
    Compared (fun n => tree (n + 2)) Kind.name id meaning grammar analysis (· + 2) where
  imitates n := tree_imitates (n + 2)
  enough := ⟨_, _, 0, ranked, fun n => by omega⟩

/-- The parser of trees implements the description of its grammar. -/
theorem implements_description :
    Implements parse lexicon? Kind.name id meaning description :=
  compared.implements name_injective rfl read_description analysed isSome_lexicon? (by decide)
    (by decide) rfl

end Descent.Languages.Tree
