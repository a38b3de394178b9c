import Descent.Languages.Calculator
import Descent.Proofs.Languages.Implementation

/-!
# The calculator and its description

The description of the grammar of the calculator, what its code means, and the parser
of the calculator compared with it.
-/

namespace Descent.Languages.Calculator

open Descent.Parser

/-- The description of the grammar. -/
def description : String :=
  "-- Integer calculator.
--
--   expr   := term (('+' | '-') term)*
--   term   := factor (('*' | '/') factor)*
--   factor := NUM | '(' expr ')' | '-' factor
--
-- Repetition is written as right recursion with an accumulator argument,
-- which keeps the binary operators left-associative.

header \x7b
use crate::arith;
use rdparse::ParseError;
\x7d

token NUM = \"[0-9]+\";
token PLUS = \"\\+\";
token MINUS = \"-\";
token STAR = \"\\*\";
token SLASH = \"/\";
token LPAREN = \"\\(\";
token RPAREN = \"\\)\";
token WS = \"\\s+\";
token COMMENT = \"#[^\\n]*\";

skip WS, COMMENT;
start expr;

expr returns [res: i64]
    : lhs=term rest=expr_tail[lhs] \x7b res = rest; \x7d
    ;

expr_tail[acc: i64] returns [res: i64]
    : PLUS rhs=term \x7b let acc = arith::add(acc, rhs).map_err(ParseError::action)?; \x7d
      rest=expr_tail[acc] \x7b res = rest; \x7d
    | MINUS rhs=term \x7b let acc = arith::sub(acc, rhs).map_err(ParseError::action)?; \x7d
      rest=expr_tail[acc] \x7b res = rest; \x7d
    | eps \x7b res = acc; \x7d
    ;

term returns [res: i64]
    : lhs=factor rest=term_tail[lhs] \x7b res = rest; \x7d
    ;

term_tail[acc: i64] returns [res: i64]
    : STAR rhs=factor \x7b let acc = arith::mul(acc, rhs).map_err(ParseError::action)?; \x7d
      rest=term_tail[acc] \x7b res = rest; \x7d
    | SLASH rhs=factor \x7b let acc = arith::div(acc, rhs).map_err(ParseError::action)?; \x7d
      rest=term_tail[acc] \x7b res = rest; \x7d
    | eps \x7b res = acc; \x7d
    ;

factor returns [res: i64]
    : n=NUM \x7b res = n.text.parse::<i64>().map_err(ParseError::action)?; \x7d
    | LPAREN e=expr RPAREN \x7b res = e; \x7d
    | MINUS f=factor \x7b res = arith::neg(f).map_err(ParseError::action)?; \x7d
    ;
"

/-- The code that adds the next term. -/
def addCode : String := " let acc = arith::add(acc, rhs).map_err(ParseError::action)?; "

/-- The code that subtracts the next term. -/
def subCode : String := " let acc = arith::sub(acc, rhs).map_err(ParseError::action)?; "

/-- The code that multiplies with the next factor. -/
def mulCode : String := " let acc = arith::mul(acc, rhs).map_err(ParseError::action)?; "

/-- The code that divides by the next factor. -/
def divCode : String := " let acc = arith::div(acc, rhs).map_err(ParseError::action)?; "

/-- The code that returns what the rest of a sum or a product returns. -/
def restCode : String := " res = rest; "

/-- The code that returns the value so far. -/
def accCode : String := " res = acc; "

/-- The code that returns a number. -/
def numberCode : String := " res = n.text.parse::<i64>().map_err(ParseError::action)?; "

/-- The code that returns the value in parentheses. -/
def groupCode : String := " res = e; "

/-- The code that returns the negative of a factor. -/
def negCode : String := " res = arith::neg(f).map_err(ParseError::action)?; "

/-- The alternative of an operand and the rest of the operations. -/
def chainAlternative (operand tail : String) : Alternative :=
  .sequence none [⟨"lhs", operand, .nonterminal [], none⟩,
    ⟨"rest", tail, .nonterminal ["lhs"], some restCode⟩]

/-- The alternative of an operator, its right operand and the rest of the operations. -/
def stepAlternative (operator operand tail code : String) : Alternative :=
  .sequence none [⟨"_", operator, .terminal, none⟩,
    ⟨"rhs", operand, .nonterminal [], some code⟩,
    ⟨"rest", tail, .nonterminal ["acc"], some restCode⟩]

/-- The alternative of the end of the operations. -/
def endAlternative : Alternative := .epsilon none (some accCode)

/-- The alternative of a number. -/
def numberAlternative : Alternative := .sequence none [⟨"n", "NUM", .terminal, some numberCode⟩]

/-- The alternative of an expression in parentheses. -/
def groupAlternative : Alternative :=
  .sequence none [⟨"_", "LPAREN", .terminal, none⟩, ⟨"e", "expr", .nonterminal [], none⟩,
    ⟨"_", "RPAREN", .terminal, some groupCode⟩]

/-- The alternative of the negative of a factor. -/
def negAlternative : Alternative :=
  .sequence none [⟨"_", "MINUS", .terminal, none⟩,
    ⟨"f", "factor", .nonterminal [], some negCode⟩]

/-- The grammar that is described. -/
def grammar : Grammar where
  header := "use crate::arith;\nuse rdparse::ParseError;"
  tokenRules := [⟨"NUM", "[0-9]+"⟩, ⟨"PLUS", "\\+"⟩, ⟨"MINUS", "-"⟩, ⟨"STAR", "\\*"⟩,
    ⟨"SLASH", "/"⟩, ⟨"LPAREN", "\\("⟩, ⟨"RPAREN", "\\)"⟩, ⟨"WS", "\\s+"⟩,
    ⟨"COMMENT", "#[^\\n]*"⟩]
  skipNames := ["WS", "COMMENT"]
  start := 0
  parserRules :=
    [⟨"expr", [], ⟨"res", "i64"⟩, [chainAlternative "term" "expr_tail"]⟩,
      ⟨"expr_tail", [⟨"acc", "i64"⟩], ⟨"res", "i64"⟩,
        [stepAlternative "PLUS" "term" "expr_tail" addCode,
          stepAlternative "MINUS" "term" "expr_tail" subCode, endAlternative]⟩,
      ⟨"term", [], ⟨"res", "i64"⟩, [chainAlternative "factor" "term_tail"]⟩,
      ⟨"term_tail", [⟨"acc", "i64"⟩], ⟨"res", "i64"⟩,
        [stepAlternative "STAR" "factor" "term_tail" mulCode,
          stepAlternative "SLASH" "factor" "term_tail" divCode, endAlternative]⟩,
      ⟨"factor", [], ⟨"res", "i64"⟩, [numberAlternative, groupAlternative, negAlternative]⟩]

/-- What the analysis of the grammar computes. -/
def analysis : Analysis where
  terminals := .ofList
    ["NUM", "PLUS", "MINUS", "STAR", "SLASH", "LPAREN", "RPAREN", endName]
  nonterminals := .ofList ["expr", "expr_tail", "term", "term_tail", "factor"]
  first := [⟨.ofList [0, 2, 5], false⟩, ⟨.ofList [1, 2], true⟩, ⟨.ofList [0, 2, 5], false⟩,
    ⟨.ofList [3, 4], true⟩, ⟨.ofList [0, 2, 5], false⟩]
  follow := [.ofList [6, 7], .ofList [6, 7], .ofList [1, 2, 6, 7], .ofList [1, 2, 6, 7],
    .ofList [1, 2, 3, 4, 6, 7]]
  markers := [[.ofList [0, 2, 5]], [.ofList [1], .ofList [2], .ofList [6, 7]], [.ofList [0, 2, 5]],
    [.ofList [3], .ofList [4], .ofList [1, 2, 6, 7]], [.ofList [0], .ofList [5], .ofList [2]]]

set_option maxRecDepth 40000 in
/-- The description is read as the grammar of the calculator. -/
theorem read_description : Description.read description = .ok grammar :=
  Description.read_ofList (by decide +kernel)

/-- The grammar of the calculator has no conflicts. -/
theorem analysed : Analysis.ofGrammar grammar = .ok analysis := by decide +kernel

/-- The patterns of the calculator are compiled. -/
theorem isSome_lexicon? : lexicon?.isSome = true := by decide +kernel

private theorem name_injective : Function.Injective Kind.name := by
  intro k l h
  cases k <;> cases l <;> first | rfl | exact absurd h (by decide)

/-- Gives the variable `acc` the value of an operation. -/
def assignAcc (scope : Scope Int64) (r : Except ArithmeticError Int64) :
    Except ActionError (Scope Int64) :=
  (r.mapError .arithmetic).map fun v => scope.bind "acc" (.value v)

/-- What the code means. -/
def meaning : Meaning Int64 ActionError where
  run code scope :=
    if code = addCode then assignAcc scope (add (scope.value "acc") (scope.value "rhs"))
    else if code = subCode then assignAcc scope (sub (scope.value "acc") (scope.value "rhs"))
    else if code = mulCode then assignAcc scope (mul (scope.value "acc") (scope.value "rhs"))
    else if code = divCode then assignAcc scope (div (scope.value "acc") (scope.value "rhs"))
    else if code = restCode then .ok (scope.bind "res" (.value (scope.value "rest")))
    else if code = accCode then .ok (scope.bind "res" (.value (scope.value "acc")))
    else if code = numberCode then
      (numberOf (scope.token "n")).map fun v => scope.bind "res" (.value v)
    else if code = groupCode then .ok (scope.bind "res" (.value (scope.value "e")))
    else if code = negCode then
      ((neg (scope.value "f")).mapError .arithmetic).map fun v => scope.bind "res" (.value v)
    else .ok scope
  argument text scope := scope.value text

section

variable (scope : Scope Int64)

/-- The code of a sum adds the right operand to what was added up. -/
theorem run_addCode : meaning.run addCode scope =
    assignAcc scope (add (scope.value "acc") (scope.value "rhs")) := by
  simp [meaning]

/-- The code of a difference subtracts the right operand. -/
theorem run_subCode : meaning.run subCode scope =
    assignAcc scope (sub (scope.value "acc") (scope.value "rhs")) := by
  simp [meaning, addCode, subCode]

/-- The code of a product multiplies by the right operand. -/
theorem run_mulCode : meaning.run mulCode scope =
    assignAcc scope (mul (scope.value "acc") (scope.value "rhs")) := by
  simp [meaning, addCode, subCode, mulCode]

/-- The code of a quotient divides by the right operand. -/
theorem run_divCode : meaning.run divCode scope =
    assignAcc scope (div (scope.value "acc") (scope.value "rhs")) := by
  simp [meaning, addCode, subCode, mulCode, divCode]

private theorem run_restCode :
    meaning.run restCode scope = .ok (scope.bind "res" (.value (scope.value "rest"))) := by
  simp [meaning, addCode, subCode, mulCode, divCode, restCode]

private theorem run_accCode :
    meaning.run accCode scope = .ok (scope.bind "res" (.value (scope.value "acc"))) := by
  simp [meaning, addCode, subCode, mulCode, divCode, restCode, accCode]

/-- The code of a number binds its value, or fails where it is out of range. -/
theorem run_numberCode : meaning.run numberCode scope =
    (numberOf (scope.token "n")).map fun v => scope.bind "res" (.value v) := by
  simp [meaning, addCode, subCode, mulCode, divCode, restCode, accCode, numberCode]

private theorem run_groupCode :
    meaning.run groupCode scope = .ok (scope.bind "res" (.value (scope.value "e"))) := by
  simp [meaning, addCode, subCode, mulCode, divCode, restCode, accCode, numberCode, groupCode]

/-- The code of a minus sign binds the negative of the value. -/
theorem run_negCode : meaning.run negCode scope =
    ((neg (scope.value "f")).mapError .arithmetic).map fun v => scope.bind "res" (.value v) := by
  simp [meaning, addCode, subCode, mulCode, divCode, restCode, accCode, numberCode, groupCode,
    negCode]

end

/-- The kinds that select an arm. -/
theorem arm?_expr (k : Kind) : grammar.arm? analysis "expr" k.name =
    match k with
    | .num | .minus | .lparen => some (chainAlternative "term" "expr_tail", 0)
    | _ => none := by
  cases k <;> decide +kernel

/-- The arm of the tail of a sum on each kind of token. -/
theorem arm?_exprTail (k : Kind) : grammar.arm? analysis "expr_tail" k.name =
    match k with
    | .plus => some (stepAlternative "PLUS" "term" "expr_tail" addCode, 0)
    | .minus => some (stepAlternative "MINUS" "term" "expr_tail" subCode, 1)
    | .rparen | .finish => some (endAlternative, 2)
    | _ => none := by
  cases k <;> decide +kernel

/-- The arm of a product on each kind of token. -/
theorem arm?_term (k : Kind) : grammar.arm? analysis "term" k.name =
    match k with
    | .num | .minus | .lparen => some (chainAlternative "factor" "term_tail", 0)
    | _ => none := by
  cases k <;> decide +kernel

/-- The arm of the tail of a product on each kind of token. -/
theorem arm?_termTail (k : Kind) : grammar.arm? analysis "term_tail" k.name =
    match k with
    | .star => some (stepAlternative "STAR" "factor" "term_tail" mulCode, 0)
    | .slash => some (stepAlternative "SLASH" "factor" "term_tail" divCode, 1)
    | .plus | .minus | .rparen | .finish => some (endAlternative, 2)
    | _ => none := by
  cases k <;> decide +kernel

/-- The arm of a factor on each kind of token. -/
theorem arm?_factor (k : Kind) : grammar.arm? analysis "factor" k.name =
    match k with
    | .num => some (numberAlternative, 0)
    | .lparen => some (groupAlternative, 1)
    | .minus => some (negAlternative, 2)
    | _ => none := by
  cases k <;> decide +kernel

/-- The parser imitates the driver in the run of an alternative of a rule, called with the values. -/
def ImitatesArm (depth : Nat) (rule : String) (values : List Int64) (alt : Alternative)
    (p : Parser Kind ActionError Int64) : Prop :=
  Imitates Kind.name id p
    (meaning.enactAlternative (grammar.enactRule analysis meaning depth)
      (grammar.opening rule values) alt >>= fun scope => pure (scope.value "res"))

/-- All rules imitate the driver at one depth of calls. -/
structure AllImitate (depth : Nat) : Prop where
  expr : Imitates Kind.name id (expr depth) (grammar.enactRule analysis meaning depth "expr" [])
  exprTail : ∀ acc, Imitates Kind.name id (exprTail depth acc)
    (grammar.enactRule analysis meaning depth "expr_tail" [acc])
  term : Imitates Kind.name id (term depth) (grammar.enactRule analysis meaning depth "term" [])
  termTail : ∀ acc, Imitates Kind.name id (termTail depth acc)
    (grammar.enactRule analysis meaning depth "term_tail" [acc])
  factor : Imitates Kind.name id (factor depth)
    (grammar.enactRule analysis meaning depth "factor" [])

section

variable {depth : Nat} {rule operand tail : String} {p : Parser Kind ActionError Int64}
  {q : Int64 → Parser Kind ActionError Int64}

/-- An operand and the rest of the operations imitate their alternative. -/
theorem imitatesArm_chain
    (hp : Imitates Kind.name id p (grammar.enactRule analysis meaning depth operand []))
    (hq : ∀ acc, Imitates Kind.name id (q acc) (grammar.enactRule analysis meaning depth tail [acc]))
    (values : List Int64) :
    ImitatesArm depth rule values (chainAlternative operand tail) (p >>= q) := by
  rw [ImitatesArm, chainAlternative, Meaning.enactAlternative_sequence]
  refine .call_atom hp (fun b => rfl) fun b => .last_atom ?_ fun c => ⟨_, run_restCode _, rfl⟩
  exact hq b

/-- An operation and the rest of the operations imitate their alternative. -/
theorem imitatesArm_step {operator : Kind} {code : String} {acc : Int64}
    {operation : Int64 → Int64 → Except ArithmeticError Int64}
    (hcode : ∀ scope, meaning.run code scope =
      assignAcc scope (operation (scope.value "acc") (scope.value "rhs")))
    (harguments : (grammar.opening rule [acc]).value "acc" = acc)
    (hp : Imitates Kind.name id p (grammar.enactRule analysis meaning depth operand []))
    (hq : ∀ acc, Imitates Kind.name id (q acc)
      (grammar.enactRule analysis meaning depth tail [acc])) :
    ImitatesArm depth rule [acc] (stepAlternative operator.name operand tail code) (do
      mark operator
      let right ← p
      q (← operate (operation acc right))) := by
  rw [ImitatesArm, stepAlternative, Meaning.enactAlternative_sequence]
  refine .mark_atom name_injective (.call_operate_atom
    (r := fun right => (operation acc right).mapError ActionError.arithmetic)
    (g := fun b c => ((grammar.opening rule [acc]).bind "rhs" (.value b)).bind "acc" (.value c))
    hp (fun b => ?_) fun b c => .last_atom (hq c) fun d => ⟨_, run_restCode _, rfl⟩)
  have hacc : ((grammar.opening rule [acc]).bind "rhs" (.value b)).value "acc" = acc := harguments
  rw [Meaning.perform_some, hcode, assignAcc, id, hacc]
  rfl

/-- The end of the operations imitates its alternative. -/
theorem imitatesArm_end {acc : Int64}
    (harguments : (grammar.opening rule [acc]).value "acc" = acc) :
    ImitatesArm depth rule [acc] endAlternative (pure acc) := by
  rw [ImitatesArm, endAlternative, Meaning.enactAlternative_epsilon, Meaning.perform_some,
    run_accCode, Meaning.attempt_ok, pure_bind, harguments]
  exact .pure acc

end

section

variable {depth : Nat} (h : AllImitate depth)
include h

/-- The rule of sums imitates its driver if all rules do at one depth less. -/
theorem imitates_expr_succ : Imitates Kind.name id (expr (depth + 1))
    (grammar.enactRule analysis meaning (depth + 1) "expr" []) := by
  refine .kind_bind fun k => ?_
  have harm := arm?_expr k
  cases k with
  | num | minus | lparen =>
      simp only [harm]
      exact imitatesArm_chain h.term h.exprTail []
  | plus | star | slash | rparen | finish =>
      simp only [harm]
      exact .unexpected _

/-- The tail of a sum imitates its driver if all rules do at one depth less. -/
theorem imitates_exprTail_succ (acc : Int64) : Imitates Kind.name id (exprTail (depth + 1) acc)
    (grammar.enactRule analysis meaning (depth + 1) "expr_tail" [acc]) := by
  refine .kind_bind fun k => ?_
  have harm := arm?_exprTail k
  cases k with
  | plus =>
      simp only [harm]
      exact imitatesArm_step run_addCode rfl h.term h.exprTail
  | minus =>
      simp only [harm]
      exact imitatesArm_step run_subCode rfl h.term h.exprTail
  | rparen | finish =>
      simp only [harm]
      exact imitatesArm_end rfl
  | num | star | slash | lparen =>
      simp only [harm]
      exact .unexpected _

/-- The rule of products imitates its driver if all rules do at one depth less. -/
theorem imitates_term_succ : Imitates Kind.name id (term (depth + 1))
    (grammar.enactRule analysis meaning (depth + 1) "term" []) := by
  refine .kind_bind fun k => ?_
  have harm := arm?_term k
  cases k with
  | num | minus | lparen =>
      simp only [harm]
      exact imitatesArm_chain h.factor h.termTail []
  | plus | star | slash | rparen | finish =>
      simp only [harm]
      exact .unexpected _

/-- The tail of a product imitates its driver if all rules do at one depth less. -/
theorem imitates_termTail_succ (acc : Int64) : Imitates Kind.name id (termTail (depth + 1) acc)
    (grammar.enactRule analysis meaning (depth + 1) "term_tail" [acc]) := by
  refine .kind_bind fun k => ?_
  have harm := arm?_termTail k
  cases k with
  | star =>
      simp only [harm]
      exact imitatesArm_step run_mulCode rfl h.factor h.termTail
  | slash =>
      simp only [harm]
      exact imitatesArm_step run_divCode rfl h.factor h.termTail
  | plus | minus | rparen | finish =>
      simp only [harm]
      exact imitatesArm_end rfl
  | num | lparen =>
      simp only [harm]
      exact .unexpected _

/-- The rule of factors imitates its driver if all rules do at one depth less. -/
theorem imitates_factor_succ : Imitates Kind.name id (factor (depth + 1))
    (grammar.enactRule analysis meaning (depth + 1) "factor" []) := by
  refine .kind_bind fun k => ?_
  have harm := arm?_factor k
  cases k with
  | num =>
      simp only [harm]
      rw [numberAlternative, Meaning.enactAlternative_sequence, ← bind_pure (terminal _ _ _)]
      refine .token_atom name_injective (g := fun t v =>
        ((grammar.opening "factor" []).bind "n" (.token t)).bind "res" (.value v)) (fun t => ?_)
        fun t v => .pure v
      rw [Meaning.perform_some, run_numberCode, Scope.token_bind (by decide), if_pos rfl]
  | lparen =>
      simp only [harm]
      rw [groupAlternative, Meaning.enactAlternative_sequence]
      exact .mark_atom name_injective (.call_atom h.expr (fun v => rfl) fun v =>
        .token_atom name_injective (g := fun _ _ => _) (fun t => run_groupCode _) fun t _ => .pure v)
  | minus =>
      simp only [harm]
      rw [negAlternative, Meaning.enactAlternative_sequence]
      exact .mark_atom name_injective (.last_operate_atom h.factor
        (r := fun v => (neg v).mapError ActionError.arithmetic)
        (g := fun v w => ((grammar.opening "factor" []).bind "f" (.value v)).bind "res" (.value w))
        (fun v => run_negCode _) fun v w => rfl)
  | plus | star | slash | rparen | finish =>
      simp only [harm]
      exact .unexpected _

end

/-- All rules of the calculator imitate their drivers, at every depth. -/
theorem allImitate (depth : Nat) : AllImitate depth := by
  induction depth with
  | zero => exact ⟨.limit, fun _ => .limit, .limit, fun _ => .limit, .limit⟩
  | succ depth h =>
      exact ⟨imitates_expr_succ h, imitates_exprTail_succ h, imitates_term_succ h,
        imitates_termTail_succ h, imitates_factor_succ h⟩

/-- The depth of the rules that call one another at one token. -/
def rank (rule : String) : Nat := if rule = "expr" then 2 else if rule = "term" then 1 else 0

/-- The rules that take a token for certain. -/
def takes (rule : String) : Bool := rule ∈ ["expr", "term", "factor"]

/-- An expression calls a term, and this a factor, before a token is taken. -/
theorem ranked : grammar.Ranked rank takes 2 where
  le_top rule := by
    unfold rank
    split
    · exact Nat.le_refl 2
    · split <;> omega
  taking := by decide
  descends := by decide

/-- The calculator can be compared with the driver of its grammar. -/
theorem compared : Compared (fun n => expr (4 * (n + 2))) Kind.name id meaning grammar analysis
    (fun n => 4 * (n + 2)) where
  imitates n := (allImitate (4 * (n + 2))).expr
  enough := by
    refine ⟨rank, takes, 2, ranked, fun n => ?_⟩
    have hrank := ranked.le_top grammar.startRule.name
    omega

/-- The parser of the calculator implements the description of its grammar. -/
theorem implements_description :
    Implements parse lexicon? Kind.name id meaning description :=
  compared.implements name_injective rfl read_description analysed isSome_lexicon? (by decide)
    (by decide) rfl

end Descent.Languages.Calculator
