import Descent.Lookahead.Production

/-!
# FIRST sets

The FIRST set of a sequence of symbols holds the terminals with which a text derived
from the sequence can begin, and the empty text if that can be derived. The sets of
the rules are the least ones that agree with the sets of their alternatives. They
are found in rounds, each of which computes all sets anew from those of the round
before.
-/

namespace Descent

/-- Terminals, and possibly the empty text. -/
structure FirstSet where
  tokens : TokenSet
  epsilon : Bool
deriving DecidableEq, Inhabited

namespace FirstSet

/-- The FIRST set of nothing at all. -/
def empty : FirstSet := ⟨∅, false⟩

/-- The FIRST set of a choice. -/
def union (s t : FirstSet) : FirstSet := ⟨s.tokens ∪ t.tokens, s.epsilon || t.epsilon⟩

/-- What two FIRST sets have in common. -/
def inter (s t : FirstSet) : FirstSet := ⟨s.tokens ∩ t.tokens, s.epsilon && t.epsilon⟩

/-- Whether the set has no terminals and does not admit the empty word. -/
def isEmpty (s : FirstSet) : Bool := s.tokens.isEmpty && !s.epsilon

end FirstSet

/-- The FIRST set of a rule in a list of sets. -/
def firstAt (first : List FirstSet) (n : Nat) : FirstSet := first.getD n .empty

/-- The FIRST set of a sequence, given those of the rules. A leading terminal is all there is; a
leading rule adds what follows it only if it can be empty. -/
def firstOf (first : List FirstSet) : List Symbol → FirstSet
  | [] => ⟨∅, true⟩
  | .term t :: _ => ⟨TokenSet.empty.insert t, false⟩
  | .rule n :: rest =>
    let head := firstAt first n
    if head.epsilon then
      let tail := firstOf first rest
      ⟨head.tokens ∪ tail.tokens, tail.epsilon⟩
    else ⟨head.tokens, false⟩

/-- The FIRST set of a rule with the given alternatives. -/
def firstOfAlternatives (first : List FirstSet) (alternatives : List (List Symbol)) : FirstSet :=
  alternatives.foldr (fun alt acc => (firstOf first alt).union acc) .empty

/-- The sets of all rules, computed anew from given ones. -/
def firstRound (prods : Productions) (first : List FirstSet) : List FirstSet :=
  prods.map (firstOfAlternatives first)

/-- A number of rounds after which nothing changes: every round but the last adds a terminal or
the empty text to the set of some rule. -/
def roundBound (rules terminals : Nat) : Nat := rules * (terminals + 1) + 1

/-- The FIRST sets of all rules. -/
def firstSets (prods : Productions) : List FirstSet :=
  settle (firstRound prods) (roundBound prods.length prods.terminals.size)
    (prods.map fun _ => .empty)

end Descent
