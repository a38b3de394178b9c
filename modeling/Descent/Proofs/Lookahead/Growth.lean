import Descent.Proofs.Lookahead.Follow
import Mathlib.Logic.Function.Iterate

/-!
# The rounds rise and end

From one round to the next no set loses a member, although the FIRST sets of a round are
all rebuilt and only those of FOLLOW are added to. A set has no more members than there are
terminals, and one more for the empty text or the end of input, so both loops end of
themselves: rounds with a change are no more than the places for a member in all sets.
-/

namespace Descent

variable {prods : Productions} {first : List FirstSet} {start endId : Nat}

/-- What a round of FIRST sets keeps holds of every round. -/
theorem firstRising_iterate (prods : Productions) (k : Nat) :
    FirstRising prods ((firstRound prods)^[k] (prods.map fun _ => .empty)) := by
  induction k with
  | zero => exact firstRising_start prods
  | succ k ih =>
      rw [Function.iterate_succ_apply']
      exact ih.round

/-- What a round of FOLLOW sets keeps holds of every round. -/
theorem followRising_iterate (k : Nat) :
    FollowRising prods first start endId
      ((followRound prods first)^[k] (followSeed prods start endId)) := by
  induction k with
  | zero => exact followRising_seed
  | succ k ih =>
      rw [Function.iterate_succ_apply']
      exact ih.round

/-- Both loops rise and end. In every round each set holds the set of the round before, and for `r`
rules and `t` terminals, which for FOLLOW sets are also those of the given FIRST sets, the loops end of
themselves, with the sets that are computed, after at most `r * (t + 1) + 1` rounds. -/
theorem rounds_rise_and_end (prods : Productions) (first : List FirstSet) (start endId : Nat) :
    (∀ k n, firstAt ((firstRound prods)^[k] (prods.map fun _ => .empty)) n ≤
      firstAt ((firstRound prods)^[k + 1] (prods.map fun _ => .empty)) n) ∧
    (∃ k ≤ prods.length * (prods.terminals.size + 1) + 1,
      Rounds (firstRound prods) (prods.map fun _ => .empty) k (firstSets prods)) ∧
    (∀ k n, followAt ((followRound prods first)^[k] (followSeed prods start endId)) n ⊆
      followAt ((followRound prods first)^[k + 1] (followSeed prods start endId)) n) ∧
    ∃ k ≤ prods.length * ((prods.terminals ∪ firstTerminals first).size + 1) + 1,
      Rounds (followRound prods first) (followSeed prods start endId) k
        (followSets prods first start endId) := by
  refine ⟨fun k n => ?_, rounds_firstSets prods, fun k n => ?_,
    rounds_followSets prods first start endId⟩
  · rw [Function.iterate_succ_apply']
    exact (firstRising_iterate prods k).rising n
  · rw [Function.iterate_succ_apply']
    exact followAt_subset_followRound (followRising_iterate k).length n

end Descent
