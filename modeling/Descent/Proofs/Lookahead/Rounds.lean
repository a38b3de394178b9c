import Descent.Lookahead.Production
import Mathlib.Algebra.Group.Action.Defs
import Mathlib.Algebra.Order.BigOperators.Group.Finset
import Mathlib.Data.List.GetD

/-!
# Rounds that come to rest

`settle` repeats a step until nothing changes, within a given number of rounds. What
each step keeps holds of the result. A table of sets that only grow, each up to a
fixed size, has come to rest by then: every round but the last makes some set larger.
So the bound on the rounds takes nothing away from the loop without one.
-/

namespace Descent

section

variable {α : Type} {step : α → α} {P : α → Prop}

/-- The rounds of a loop that repeats a step until nothing changes: begun at `x` it ends with `y`
after `k` rounds, the last of which is the only one without a change. -/
inductive Rounds (step : α → α) : α → Nat → α → Prop where
  | rest {x : α} (h : step x = x) : Rounds step x 1 x
  | again {x y : α} {k : Nat} (h : step x ≠ x) (hrest : Rounds step (step x) k y) :
      Rounds step x (k + 1) y

/-- Rounds end where a further step changes nothing. -/
theorem Rounds.step_eq {x y : α} {k : Nat} (h : Rounds step x k y) : step y = y := by
  induction h with
  | rest h => exact h
  | again _ _ ih => exact ih

variable [DecidableEq α]

/-- What every step keeps holds after all rounds. -/
theorem settle_induction (hstep : ∀ x, P x → P (step x)) (fuel : Nat) {x : α} (hx : P x) :
    P (settle step fuel x) := by
  induction fuel generalizing x with
  | zero => exact hx
  | succ fuel ih =>
      rw [settle]
      split
      · exact hx
      · exact ih (hstep x hx)

/-- If each change adds to a bounded weight, the loop ends within enough rounds. -/
theorem rounds_settle (weight : α → Nat) (bound : Nat) (hstep : ∀ x, P x → P (step x))
    (hgrow : ∀ x, P x → step x ≠ x → weight x < weight (step x))
    (hbound : ∀ x, P x → weight x ≤ bound) (fuel : Nat) {x : α} (hx : P x)
    (hfuel : bound < weight x + fuel) :
    ∃ k ≤ fuel, Rounds step x k (settle step fuel x) := by
  induction fuel generalizing x with
  | zero =>
      have hb := hbound x hx
      omega
  | succ fuel ih =>
      rw [settle]
      split
      · next hfixed => exact ⟨1, by omega, .rest hfixed⟩
      · next hchanged =>
          have hw := hgrow x hx hchanged
          obtain ⟨k, hk, hrest⟩ := ih (hstep x hx) (by omega)
          exact ⟨k + 1, by omega, .again hchanged hrest⟩

end

section

variable {σ : Type} [DecidableEq σ] {le : σ → σ → Prop} {weight : σ → Nat}
  {step : List σ → List σ} {P : List σ → Prop} {rows limit : Nat}

/-- The weight of a table of sets. -/
def tableWeight (weight : σ → Nat) (d : σ) (rows : Nat) (l : List σ) : Nat :=
  ∑ n ∈ Finset.range rows, weight (l.getD n d)

private theorem tableWeight_lt {d : σ} (hlt : ∀ s t, le s t → s ≠ t → weight s < weight t)
    {l m : List σ} (hl : l.length = rows) (hm : m.length = rows)
    (hle : ∀ n, le (l.getD n d) (m.getD n d)) (hne : m ≠ l) :
    tableWeight weight d rows l < tableWeight weight d rows m := by
  have hweak : ∀ n, weight (l.getD n d) ≤ weight (m.getD n d) := by
    intro n
    by_cases he : l.getD n d = m.getD n d
    · rw [he]
    · exact Nat.le_of_lt (hlt _ _ (hle n) he)
  obtain ⟨n, hn, hdiff⟩ : ∃ n, n < rows ∧ l.getD n d ≠ m.getD n d := by
    by_contra hall
    simp only [not_exists, not_and, not_not] at hall
    refine hne (List.ext_getElem (hm.trans hl.symm) fun n hn hn' => ?_)
    have he := hall n (by omega)
    rw [List.getD_eq_getElem _ _ hn, List.getD_eq_getElem _ _ hn'] at he
    exact he.symm
  exact Finset.sum_lt_sum (fun n _ => hweak n)
    ⟨n, Finset.mem_range.mpr hn, hlt _ _ (hle n) hdiff⟩

/-- A table of `rows` sets that grow up to the weight `limit` rests within `rows * limit` rounds and
one more. -/
theorem rounds_settle_table (d : σ) (hlt : ∀ s t, le s t → s ≠ t → weight s < weight t)
    (hstep : ∀ l, P l → P (step l)) (hlen : ∀ l, P l → l.length = rows)
    (hgrow : ∀ l, P l → ∀ n, le (l.getD n d) ((step l).getD n d))
    (hlimit : ∀ l, P l → ∀ n, weight (l.getD n d) ≤ limit) {l : List σ} (hl : P l) :
    ∃ k ≤ rows * limit + 1, Rounds step l k (settle step (rows * limit + 1) l) := by
  refine rounds_settle (tableWeight weight d rows) (rows * limit) hstep ?_ ?_ (rows * limit + 1) hl
    (by omega)
  · intro x hx hne
    exact tableWeight_lt hlt (hlen x hx) (hlen _ (hstep x hx)) (hgrow x hx) hne
  · intro x hx
    have hsum := Finset.sum_le_card_nsmul (Finset.range rows) (fun n => weight (x.getD n d)) limit
      fun n _ => hlimit x hx n
    simpa only [tableWeight, Finset.card_range, smul_eq_mul] using hsum

end

end Descent
