import Descent.Languages.Sum
import Descent.Proofs.Languages.Implementation

/-!
# Sums and their description

The description of the grammar of sums, what its code means, and the parser of sums
compared with it.
-/

namespace Descent.Languages.Sum

open Descent.Parser

/-- The description of the grammar. -/
def description : String :=
  "-- Sums of non-negative integers: `1 + 2 + 3`.
-- The parser returns the operands in source order.

header \x7b
use rdparse::ParseError;
\x7d

token NUM = \"[0-9]+\";
token PLUS = \"\\+\";
token WS = \"\\s+\";

skip WS;
start expr;

expr returns [res: Vec<i64>]
    : n=NUM \x7b let value: i64 = n.text.parse::<i64>().map_err(ParseError::action)?; \x7d
      rest=tail[vec![value]] \x7b res = rest; \x7d
    ;

tail[acc: Vec<i64>] returns [res: Vec<i64>]
    : PLUS n=NUM \x7b let mut acc = acc; acc.push(n.text.parse::<i64>().map_err(ParseError::action)?); \x7d
      rest=tail[acc] \x7b res = rest; \x7d
    | eps \x7b res = acc; \x7d
    ;
"

/-- The code that reads the first operand. -/
def firstCode : String := " let value: i64 = n.text.parse::<i64>().map_err(ParseError::action)?; "

/-- The code that reads another operand. -/
def pushCode : String :=
  " let mut acc = acc; acc.push(n.text.parse::<i64>().map_err(ParseError::action)?); "

/-- The code that returns what the rest of a sum returns. -/
def restCode : String := " res = rest; "

/-- The code that returns the operands so far. -/
def accCode : String := " res = acc; "

/-- The alternative of a number and the rest of a sum. -/
def firstAlternative : Alternative :=
  .sequence none [⟨"n", "NUM", .terminal, some firstCode⟩,
    ⟨"rest", "tail", .nonterminal ["vec![value]"], some restCode⟩]

/-- The alternative of a plus sign, a number and the rest of a sum. -/
def plusAlternative : Alternative :=
  .sequence none [⟨"_", "PLUS", .terminal, none⟩, ⟨"n", "NUM", .terminal, some pushCode⟩,
    ⟨"rest", "tail", .nonterminal ["acc"], some restCode⟩]

/-- The alternative of the end of a sum. -/
def endAlternative : Alternative := .epsilon none (some accCode)

/-- The grammar that is described. -/
def grammar : Grammar where
  header := "use rdparse::ParseError;"
  tokenRules := [⟨"NUM", "[0-9]+"⟩, ⟨"PLUS", "\\+"⟩, ⟨"WS", "\\s+"⟩]
  skipNames := ["WS"]
  start := 0
  parserRules :=
    [⟨"expr", [], ⟨"res", "Vec<i64>"⟩, [firstAlternative]⟩,
      ⟨"tail", [⟨"acc", "Vec<i64>"⟩], ⟨"res", "Vec<i64>"⟩, [plusAlternative, endAlternative]⟩]

/-- What the analysis of the grammar computes. -/
def analysis : Analysis where
  terminals := .ofList ["NUM", "PLUS", endName]
  nonterminals := .ofList ["expr", "tail"]
  first := [⟨.ofList [0], false⟩, ⟨.ofList [1], true⟩]
  follow := [.ofList [2], .ofList [2]]
  markers := [[.ofList [0]], [.ofList [1], .ofList [2]]]

set_option maxRecDepth 20000 in
/-- The description is read as the grammar of sums. -/
theorem read_description : Description.read description = .ok grammar :=
  Description.read_ofList (by decide +kernel)

/-- The grammar of sums has no conflicts. -/
theorem analysed : Analysis.ofGrammar grammar = .ok analysis := by decide +kernel

/-- The patterns of sums are compiled. -/
theorem isSome_lexicon? : lexicon?.isSome = true := by decide +kernel

private theorem name_injective : Function.Injective Kind.name := by
  intro k l h
  cases k <;> cases l <;> first | rfl | exact absurd h (by decide)

/-- What a variable of a function holds: a number, or the operands so far. -/
inductive Value where
  | number (n : Int64)
  | operands (l : List Int64)
deriving Inhabited

/-- The operands that a value consists of. -/
def Value.list : Value → List Int64
  | number n => [n]
  | operands l => l

/-- What the code means. -/
def meaning : Meaning Value ActionError where
  run code scope :=
    if code = firstCode then
      (numberOf (scope.token "n")).map fun n => scope.bind "value" (.value (.number n))
    else if code = pushCode then
      (numberOf (scope.token "n")).map fun n =>
        scope.bind "acc" (.value (.operands ((scope.value "acc").list ++ [n])))
    else if code = restCode then .ok (scope.bind "res" (.value (scope.value "rest")))
    else if code = accCode then .ok (scope.bind "res" (.value (scope.value "acc")))
    else .ok scope
  argument text scope :=
    if text = "vec![value]" then .operands (scope.value "value").list else scope.value text

section

variable (scope : Scope Value)

/-- The code of the first number binds its value, or fails where it is out of range. -/
theorem run_firstCode : meaning.run firstCode scope =
    (numberOf (scope.token "n")).map fun n => scope.bind "value" (.value (.number n)) := by
  simp [meaning]

/-- The code of a further number puts its value behind the operands, or fails where it is out of
range. -/
theorem run_pushCode : meaning.run pushCode scope =
    (numberOf (scope.token "n")).map fun n =>
      scope.bind "acc" (.value (.operands ((scope.value "acc").list ++ [n]))) := by
  simp [meaning, firstCode, pushCode]

private theorem run_restCode :
    meaning.run restCode scope = .ok (scope.bind "res" (.value (scope.value "rest"))) := by
  simp [meaning, firstCode, pushCode, restCode]

private theorem run_accCode :
    meaning.run accCode scope = .ok (scope.bind "res" (.value (scope.value "acc"))) := by
  simp [meaning, firstCode, pushCode, restCode, accCode]

end

/-- The kinds that select an arm. -/
theorem arm?_expr (k : Kind) : grammar.arm? analysis "expr" k.name =
    match k with
    | .num => some (firstAlternative, 0)
    | _ => none := by
  cases k <;> decide +kernel

/-- The arm of the tail of a sum on each kind of token. -/
theorem arm?_tail (k : Kind) : grammar.arm? analysis "tail" k.name =
    match k with
    | .num => none
    | .plus => some (plusAlternative, 0)
    | .finish => some (endAlternative, 1) := by
  cases k <;> decide +kernel

/-- The rest of a sum imitates the driver. -/
theorem tail_imitates (depth : Nat) (acc : List Int64) :
    Imitates Kind.name Value.operands (tail depth acc)
      (grammar.enactRule analysis meaning depth "tail" [.operands acc]) := by
  induction depth generalizing acc with
  | zero => exact .limit
  | succ depth ih =>
      refine .kind_bind fun k => ?_
      have harm := arm?_tail k
      cases k with
      | num =>
          simp only [harm]
          exact .unexpected _
      | finish =>
          simp only [harm]
          rw [endAlternative, Meaning.enactAlternative_epsilon, Meaning.perform_some, run_accCode,
            Meaning.attempt_ok, pure_bind]
          exact .pure acc
      | plus =>
          simp only [harm]
          rw [plusAlternative, Meaning.enactAlternative_sequence]
          refine .mark_atom name_injective (.token_atom name_injective
            (g := fun t n => ((grammar.opening "tail" [.operands acc]).bind "n" (.token t)).bind "acc"
              (.value (.operands (acc ++ [n])))) (fun t => ?_) fun t n => ?_)
          · rw [Meaning.perform_some, run_pushCode]
            rfl
          · exact .last_atom (ih _) fun l => ⟨_, run_restCode _, rfl⟩

/-- A sum imitates the driver, which has one call more. -/
theorem expr_imitates (depth : Nat) :
    Imitates Kind.name Value.operands (expr depth)
      (grammar.enactRule analysis meaning (depth + 1) "expr" []) := by
  refine .kind_bind fun k => ?_
  have harm := arm?_expr k
  cases k with
  | num =>
      simp only [harm]
      rw [firstAlternative, Meaning.enactAlternative_sequence]
      refine .token_atom name_injective
        (g := fun t n => ((grammar.opening "expr" []).bind "n" (.token t)).bind "value"
          (.value (.number n))) (fun t => ?_) fun t n => ?_
      · rw [Meaning.perform_some, run_firstCode]
        rfl
      · exact .last_atom (tail_imitates depth [n]) fun l => ⟨_, run_restCode _, rfl⟩
  | plus | finish =>
      simp only [harm]
      exact .unexpected _

/-- A sum takes its first number before it calls the tail, and the tail takes tokens before it calls
itself. -/
theorem ranked : grammar.Ranked (fun _ => 0) (fun _ => false) 0 where
  le_top _ := Nat.le_refl 0
  taking _ _ h := nomatch h
  descends := by decide

/-- The parser of sums can be compared with the driver of its grammar. -/
theorem compared : Compared (fun n => expr (n + 2)) Kind.name Value.operands meaning grammar analysis
    (· + 3) where
  imitates n := expr_imitates (n + 2)
  enough := ⟨_, _, 0, ranked, fun n => by omega⟩

/-- The parser of sums implements the description of its grammar. -/
theorem implements_description :
    Implements parse lexicon? Kind.name Value.operands meaning description :=
  compared.implements name_injective rfl read_description analysed isSome_lexicon? (by decide)
    (by decide) rfl

end Descent.Languages.Sum
