import Descent.Languages.Calculator
import Descent.Proofs.Tokens.Fetching
import Descent.Proofs.Tokens.Relocation

/-!
# Properties of the rules of expressions

The rules of expressions are put together from a few steps: they look at the kind of the
current token, take a token, act on values or fail. A property that these steps have, and
that is kept where parsers follow one another, holds of every rule at every depth of calls.
-/

namespace Descent

open Descent.Parser

variable {κ α : Type} [DecidableEq κ]

/-- The property holds of the steps of which parsers are made, and of parsers that follow one
another if it holds of each. Of a token no step looks at more than its kind and its text. -/
structure Parser.Compositional (P : ∀ ⦃β : Type⦄, Parser κ α β → Prop) : Prop where
  bind : ∀ {β γ : Type} {p : Parser κ α β} {k : β → Parser κ α γ}, P p → (∀ b, P (k b)) →
    P (p >>= k)
  pure : ∀ {β : Type} (b : β), P (pure b : Parser κ α β)
  kind : P (kind : Parser κ α κ)
  unexpected : ∀ {β : Type} (names : List String), P (unexpected names : Parser κ α β)
  act : ∀ {β : Type} (r : Except α β), P (act r)
  terminal : ∀ {β : Type} (expected : κ) (name : String) {g : Token → Except α β},
    (∀ t u, t.text = u.text → g t = g u) → P (terminal expected name g)

/-- That parsers move by fetching tokens is kept where they follow one another. -/
theorem Parser.compositional_fetching : Compositional fun _ (p : Parser κ α _) => p.Fetching where
  bind := Fetching.bind
  pure := fetching_pure
  kind := fetching_kind
  unexpected := fetching_unexpected
  act := fetching_act
  terminal expected name _ _ := fetching_terminal expected name _

/-- That parsers do not depend on places is kept where they follow one another. -/
theorem Parser.compositional_placeless :
    Compositional fun _ (p : Parser κ α _) => p.Placeless where
  bind := Placeless.bind
  pure := placeless_pure
  kind := placeless_kind
  unexpected := placeless_unexpected
  act := placeless_act
  terminal := placeless_terminal

namespace Languages

/-- The number of a token depends on its text only. -/
theorem numberOf_congr {t u : Token} (h : t.text = u.text) : numberOf t = numberOf u := by
  -- the function is unfolded as a whole, as its value at a token makes the bound be counted out
  have hdef : numberOf = numberOf := rfl
  conv at hdef => rhs; delta numberOf
  rw [congrFun hdef t, congrFun hdef u, h]

namespace Calculator

variable {P : ∀ ⦃β : Type⦄, Parser Kind ActionError β → Prop}

/-- The property holds of the rules at one depth of calls. -/
structure AllRules (P : ∀ ⦃β : Type⦄, Parser Kind ActionError β → Prop) (fuel : Nat) : Prop where
  expr : P (expr fuel)
  exprTail : ∀ acc, P (exprTail fuel acc)
  term : P (term fuel)
  termTail : ∀ acc, P (termTail fuel acc)
  factor : P (factor fuel)

section

variable (hP : Compositional P)
include hP

private theorem mark_of_compositional (kind : Kind) : P (mark kind) :=
  hP.terminal _ _ fun _ _ _ => rfl

/-- An operation and the rest of the operations. -/
theorem step_of_compositional {kind : Kind} {p : Parser Kind ActionError Int64}
    {q : Int64 → Parser Kind ActionError Int64} (compute : Int64 → Except ArithmeticError Int64)
    (hp : P p) (hq : ∀ acc, P (q acc)) :
    P (do
      mark kind
      let right ← p
      q (← operate (compute right))) :=
  hP.bind (mark_of_compositional hP kind) fun _ => hP.bind hp fun _ => hP.bind (hP.act _) hq

section

variable {fuel : Nat} (h : AllRules P fuel)
include h

private theorem expr_of_compositional : P (expr (fuel + 1)) := by
  refine hP.bind hP.kind fun k => ?_
  cases k with
  | num | minus | lparen => exact hP.bind h.term h.exprTail
  | plus | star | slash | rparen | finish => exact hP.unexpected _

private theorem exprTail_of_compositional (acc : Int64) : P (exprTail (fuel + 1) acc) := by
  refine hP.bind hP.kind fun k => ?_
  cases k with
  | plus | minus => exact step_of_compositional hP _ h.term h.exprTail
  | rparen | finish => exact hP.pure acc
  | num | star | slash | lparen => exact hP.unexpected _

private theorem term_of_compositional : P (term (fuel + 1)) := by
  refine hP.bind hP.kind fun k => ?_
  cases k with
  | num | minus | lparen => exact hP.bind h.factor h.termTail
  | plus | star | slash | rparen | finish => exact hP.unexpected _

private theorem termTail_of_compositional (acc : Int64) : P (termTail (fuel + 1) acc) := by
  refine hP.bind hP.kind fun k => ?_
  cases k with
  | star | slash => exact step_of_compositional hP _ h.factor h.termTail
  | plus | minus | rparen | finish => exact hP.pure acc
  | num | lparen => exact hP.unexpected _

private theorem factor_of_compositional : P (factor (fuel + 1)) := by
  refine hP.bind hP.kind fun k => ?_
  cases k with
  | num => exact hP.terminal _ _ fun _ _ => numberOf_congr
  | lparen =>
      exact hP.bind (mark_of_compositional hP _) fun _ => hP.bind h.expr fun value =>
        hP.bind (mark_of_compositional hP _) fun _ => hP.pure value
  | minus =>
      exact hP.bind (mark_of_compositional hP _) fun _ => hP.bind h.factor fun _ => hP.act _
  | plus | star | slash | rparen | finish => exact hP.unexpected _

end

/-- The property holds of the rules, whatever the depth of calls. -/
theorem allRules (fuel : Nat) : AllRules P fuel := by
  -- the rules call one another one call deeper, so they are treated together
  induction fuel with
  | zero =>
      exact ⟨hP.unexpected _, fun _ => hP.unexpected _, hP.unexpected _,
        fun _ => hP.unexpected _, hP.unexpected _⟩
  | succ fuel h =>
      exact ⟨expr_of_compositional hP h, exprTail_of_compositional hP h,
        term_of_compositional hP h, termTail_of_compositional hP h, factor_of_compositional hP h⟩

end

end Calculator
end Languages
end Descent
