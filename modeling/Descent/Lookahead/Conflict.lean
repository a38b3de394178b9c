import Descent.Lookahead.Follow

/-!
# Conflicts

Two alternatives of a rule are in conflict if the next terminal cannot always decide
between them: both can begin with the same terminal, both can be empty, or one can
be empty and the other begins with a terminal that can follow the rule.
-/

namespace Descent

/-- Two alternatives of a rule, and what they cannot be told apart on. -/
structure Conflict where
  rule : Nat
  first : Nat
  second : Nat
  overlap : FirstSet
deriving DecidableEq

/-- What an alternative with the FIRST set `a` and a later choice `b` cannot be told apart on. The
FOLLOW set of the rule counts where `a` can be empty. -/
def overlap? (follow : TokenSet) (a b : FirstSet) : Option FirstSet :=
  if !(a.inter b).isEmpty then some (a.inter b)
  else if a.epsilon && !(b.tokens ∩ follow).isEmpty then some ⟨b.tokens ∩ follow, false⟩
  else none

/-- The first ordered pair of different alternatives of a rule that are in conflict. -/
def ruleConflict? (rule : Nat) (follow : TokenSet) (firsts : List FirstSet) : Option Conflict :=
  firsts.zipIdx.findSome? fun (a, i) =>
    firsts.zipIdx.findSome? fun (b, j) =>
      if i = j then none else (overlap? follow a b).map fun o => ⟨rule, i, j, o⟩

/-- The first conflict of the productions. -/
def findConflict (prods : Productions) (first : List FirstSet) (follow : List TokenSet) :
    Option Conflict :=
  prods.zipIdx.findSome? fun (alternatives, rule) =>
    ruleConflict? rule (followAt follow rule) (alternatives.map (firstOf first))

end Descent
