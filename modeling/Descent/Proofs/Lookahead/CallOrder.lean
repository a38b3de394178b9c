import Descent.Proofs.Lookahead.Markers
import Mathlib.Order.WellFounded

/-!
# Calls at one token come to an end

Before a parser consumes a token it may call one rule after the other. In productions
without conflicts these calls cannot go round in a circle. A rule that can begin with
the token takes the alternative that shows so, and what it calls either shows so in
fewer steps or vanishes. A rule that the token follows takes the alternative that
vanishes, and all it calls vanishes in fewer steps.
-/

namespace Descent.Productions

variable {prods : Productions} {start endId t n m : Nat} {s : Symbol} {form : List Symbol}

/-- The symbol is a rule that is done at the terminal without consuming it: the alternative that the
terminal selects consists of such rules. -/
inductive Passes (prods : Productions) (start endId t : Nat) : Symbol → Prop where
  | rule {n : Nat} {alt : List Symbol} (halt : alt ∈ prods.alternatives n)
      (ht : t ∈ prods.markers start endId n alt)
      (hall : ∀ s ∈ alt, Passes prods start endId t s) : Passes prods start endId t (.rule n)

/-- The alternative that the terminal selects in the rule `n` has the rule `m` behind rules that are
done without consuming the terminal. -/
def CallsAt (prods : Productions) (start endId t n m : Nat) : Prop :=
  ∃ before suffix, before ++ .rule m :: suffix ∈ prods.alternatives n ∧
    t ∈ prods.markers start endId n (before ++ .rule m :: suffix) ∧
    ∀ s ∈ before, prods.Passes start endId t s

private theorem Vanishes.lt_length (h : prods.Vanishes (.rule n)) : n < prods.length := by
  cases h with
  | rule halt _ => exact lt_length_of_mem_alternatives halt

/-- A rule in a vanishing alternative can be followed by what can follow the rule around it. -/
theorem mem_following_of_vanishes {before suffix : List Symbol}
    (halt : before ++ .rule m :: suffix ∈ prods.alternatives n)
    (hall : ∀ s ∈ before ++ .rule m :: suffix, prods.Vanishes s)
    (ht : t ∈ prods.following start endId n) : t ∈ prods.following start endId m := by
  have hm : prods.Vanishes (.rule m) := hall _ (by simp)
  have hsuffix : ∀ s ∈ suffix, prods.Vanishes s := fun s hs => hall s (by simp [hs])
  exact mem_following hm.lt_length ⟨before, halt⟩
    (mem_followOfSuffix.mpr (Or.inr ⟨epsilon_firstOf_of_vanishes hsuffix, ht⟩))

/-- A rule can be followed by what can begin its suffix. -/
theorem mem_following_of_begins {before suffix : List Symbol} (hm : m < prods.length)
    (halt : before ++ .rule m :: suffix ∈ prods.alternatives n)
    (ht : prods.SequenceBegins t suffix) : t ∈ prods.following start endId m :=
  mem_following hm ⟨before, halt⟩ (mem_followOfSuffix.mpr (Or.inl (mem_firstOf_of_begins ht)))

section

variable (hfree : prods.ConflictFree start endId)
include hfree

/-- What can begin with a terminal is not done at it without consuming it. -/
theorem Begins.not_passes (h : prods.Begins t s) : ¬ prods.Passes start endId t s := by
  induction h with
  | terminal =>
      intro hp
      cases hp
  | @rule n before after s halt hbefore hs ih =>
      intro hp
      cases hp with
      | rule halt' ht hall =>
          have hsel : t ∈ prods.markers start endId n (before ++ s :: after) :=
            mem_markers_iff.mpr (Or.inl ⟨before, s, after, rfl, hbefore, hs⟩)
          obtain rfl := hfree.unique halt halt' hsel ht
          exact ih (hall s (by simp))

/-- From a vanishing rule that the terminal can follow, the calls at the terminal come to an end. -/
theorem Vanishes.acc_callsAt (h : prods.Vanishes s) : ∀ n, s = .rule n →
    t ∈ prods.following start endId n → Acc (flip (prods.CallsAt start endId t)) n := by
  induction h with
  | @rule k alt halt hall ih =>
      intro n hn ht
      cases hn
      refine Acc.intro k fun m ⟨before, suffix, hcall, hsel, _⟩ => ?_
      have hvanish : t ∈ prods.markers start endId k alt := mem_markers_iff.mpr (Or.inr ⟨hall, ht⟩)
      obtain rfl := hfree.unique hcall halt hsel hvanish
      exact ih (.rule m) (by simp) m rfl (mem_following_of_vanishes halt hall ht)

/-- From a rule that can begin with the terminal, the calls at the terminal come to an end. -/
theorem Begins.acc_callsAt (h : prods.Begins t s) : ∀ n, s = .rule n →
    Acc (flip (prods.CallsAt start endId t)) n := by
  induction h with
  | terminal =>
      intro n hn
      cases hn
  | @rule k before after s halt hbefore hs ih =>
      intro n hn
      cases hn
      refine Acc.intro k fun m ⟨u, v, hcall, hsel, hpass⟩ => ?_
      have hbegin : t ∈ prods.markers start endId k (before ++ s :: after) :=
        mem_markers_iff.mpr (Or.inl ⟨before, s, after, rfl, hbefore, hs⟩)
      have hsame := hfree.unique hcall halt hsel hbegin
      -- the call stands behind, in front of or at the symbol that begins with the terminal
      rcases append_eq_append_cons hsame with ⟨c, rfl, -⟩ | ⟨c, rfl, hv⟩
      · exact absurd (hpass s (by simp)) (hs.not_passes hfree)
      · cases c with
        | nil => exact ih m (List.cons.inj hv).1.symm
        | cons x c =>
            obtain ⟨rfl, rfl⟩ := List.cons.inj hv
            have hm : prods.Vanishes (.rule m) := hbefore _ (by simp)
            have hrest : prods.SequenceBegins t (c ++ s :: after) :=
              ⟨c, s, after, rfl, fun x hx => hbefore x (by simp [hx]), hs⟩
            exact hm.acc_callsAt hfree m rfl
              (mem_following_of_begins hm.lt_length hcall hrest)

/-- In productions without conflicts the calls at a terminal are well-founded. -/
theorem wellFounded_callsAt (t : Nat) :
    WellFounded (flip (prods.CallsAt start endId t)) := by
  refine ⟨fun n => Acc.intro n fun m hcall => ?_⟩
  obtain ⟨before, suffix, halt, ht, _⟩ := id hcall
  -- a rule that calls has an alternative that the terminal selects
  rcases mem_markers_iff.mp ht with hb | ⟨hv, hf⟩
  · exact ((SequenceBegins.rule halt hb).acc_callsAt hfree n rfl).inv hcall
  · exact ((Vanishes.rule halt hv).acc_callsAt hfree n rfl hf).inv hcall

end

end Descent.Productions
