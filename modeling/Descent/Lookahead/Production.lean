import Descent.Lookahead.TokenSet

/-!
# Productions

The rules of a grammar with all names replaced by numbers, which is all that the
analysis of lookahead needs.
-/

namespace Descent

/-- A symbol of a production: a terminal or the rule with a number. -/
inductive Symbol where
  | term (t : Nat)
  | rule (n : Nat)
deriving DecidableEq, Repr

/-- The alternatives of the rule at each number, each a sequence of symbols. -/
abbrev Productions := List (List (List Symbol))

/-- The terminal that a symbol is. -/
def Symbol.terminal? : Symbol → Option Nat
  | term t => some t
  | rule _ => none

namespace Productions

/-- The alternatives of a rule. -/
def alternatives (prods : Productions) (n : Nat) : List (List Symbol) := prods.getD n []

/-- The terminals that occur in the productions. -/
def terminals (prods : Productions) : TokenSet :=
  .ofList (prods.flatten.flatten.filterMap Symbol.terminal?)

end Productions

/-- Applies a step until nothing changes any more, at most `fuel` times. -/
def settle {α : Type} [DecidableEq α] (step : α → α) : Nat → α → α
  | 0, x => x
  | fuel + 1, x => if step x = x then x else settle step fuel (step x)

end Descent
