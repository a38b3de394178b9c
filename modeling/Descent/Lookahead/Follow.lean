import Descent.Lookahead.First

/-!
# FOLLOW sets and markers

The FOLLOW set of a rule holds the terminals that can stand right behind it in a
derivation, and the end of input if nothing need stand there. The marker set of an
alternative holds the terminals that select it: those with which it can begin, and
if it can be empty those that can follow its rule.
-/

namespace Descent

/-- The FOLLOW set of a rule in a list of sets. -/
def followAt (follow : List TokenSet) (n : Nat) : TokenSet := follow.getD n ∅

/-- What stands behind each occurrence of a rule in a sequence. -/
def suffixesAfter (n : Nat) : List Symbol → List (List Symbol)
  | [] => []
  | s :: rest => if s = .rule n then rest :: suffixesAfter n rest else suffixesAfter n rest

/-- What an occurrence of a rule adds to its FOLLOW set: the terminals that can begin the suffix
behind it, and if the suffix can be empty the FOLLOW set of the rule around. -/
def followOfSuffix (first : List FirstSet) (around : TokenSet) (suffix : List Symbol) : TokenSet :=
  let f := firstOf first suffix
  if f.epsilon then f.tokens ∪ around else f.tokens

/-- All that the occurrences of the rule `n` add to its FOLLOW set. -/
def followGains (prods : Productions) (first : List FirstSet) (follow : List TokenSet) (n : Nat) :
    TokenSet :=
  TokenSet.unionAll <| prods.zipIdx.flatMap fun (alternatives, rule) =>
    alternatives.flatMap fun alt =>
      (suffixesAfter n alt).map (followOfSuffix first (followAt follow rule))

/-- Adds to all sets what the occurrences of the rules give. -/
def followRound (prods : Productions) (first : List FirstSet) (follow : List TokenSet) :
    List TokenSet :=
  (List.range prods.length).map fun n => followAt follow n ∪ followGains prods first follow n

/-- The sets before the first round: the end of input can follow the start rule. -/
def followSeed (prods : Productions) (start endId : Nat) : List TokenSet :=
  (List.range prods.length).map fun n => if n = start then TokenSet.empty.insert endId else ∅

/-- The terminals that occur in FIRST sets. -/
def firstTerminals (first : List FirstSet) : TokenSet := .unionAll (first.map (·.tokens))

/-- The FOLLOW sets of all rules. -/
def followSets (prods : Productions) (first : List FirstSet) (start endId : Nat) :
    List TokenSet :=
  settle (followRound prods first)
    (roundBound prods.length (prods.terminals ∪ firstTerminals first).size)
    (followSeed prods start endId)

/-- The terminals that select an alternative of a rule with the given FOLLOW set. -/
def markerSet (first : List FirstSet) (follow : TokenSet) (alt : List Symbol) : TokenSet :=
  followOfSuffix first follow alt

/-- The marker sets of all alternatives of all rules. -/
def markerSets (prods : Productions) (first : List FirstSet) (follow : List TokenSet) :
    List (List TokenSet) :=
  prods.zipIdx.map fun (alternatives, rule) =>
    alternatives.map (markerSet first (followAt follow rule))

end Descent
