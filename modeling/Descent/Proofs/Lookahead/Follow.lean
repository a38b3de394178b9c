import Descent.Proofs.Lookahead.First
import Descent.Proofs.Lookahead.FollowLaws

/-!
# FOLLOW sets are exact

The rounds of FOLLOW sets only add to what is there and come to rest in time. What
they say stays true, since a suffix that can be empty can be made to vanish from a
derivation. At rest they cover a sentential form: whatever stands behind a rule in
the form is in the FOLLOW set of the rule. Every derivation keeps a form covered.
-/

namespace Descent

open Productions

variable {prods : Productions} {first : List FirstSet} {follow : List TokenSet}
  {t n start endId : Nat}

/-- The terminals that FOLLOW sets can ever hold. -/
def followUniverse (prods : Productions) (first : List FirstSet) (endId : Nat) : TokenSet :=
  (prods.terminals ∪ firstTerminals first).insert endId

/-- What each round of FOLLOW sets keeps: the number of rules, the seed, and the terminals in use. -/
structure FollowRising (prods : Productions) (first : List FirstSet) (start endId : Nat)
    (follow : List TokenSet) : Prop where
  length : follow.length = prods.length
  seeded : start < prods.length → endId ∈ followAt follow start
  bounded : ∀ n, followAt follow n ⊆ followUniverse prods first endId

/-- A round loses nothing. -/
theorem followAt_subset_followRound (h : follow.length = prods.length) (n : Nat) :
    followAt follow n ⊆ followAt (followRound prods first follow) n := by
  intro x hx
  by_cases hn : n < prods.length
  · exact (mem_followAt_followRound hn).mpr (Or.inl hx)
  · rw [followAt_of_length_le (by omega)] at hx
    exact absurd hx (TokenSet.not_mem_empty x)

/-- What can begin a suffix is a terminal of the productions or of the FIRST sets. -/
theorem Productions.Occurs.mem_firstOf {r : Nat} {suffix : List Symbol}
    (ho : prods.Occurs r n suffix) (ht : t ∈ (firstOf first suffix).tokens) :
    t ∈ prods.terminals ∨ ∃ m, t ∈ (firstAt first m).tokens := by
  obtain ⟨before, halt⟩ := ho
  rcases mem_firstOf_origin ht with ht | ⟨m, ht⟩
  · have hmem : .term t ∈ before ++ .rule n :: suffix :=
      List.mem_append_right _ (List.mem_cons_of_mem _ ht)
    exact Or.inl (mem_terminals halt hmem)
  · exact Or.inr ⟨m, ht⟩

private theorem mem_firstTerminals {m : Nat} (ht : t ∈ (firstAt first m).tokens) :
    t ∈ firstTerminals first := by
  rw [firstTerminals, TokenSet.mem_unionAll]
  by_cases hm : m < first.length
  · rw [firstAt, List.getD_eq_getElem _ _ hm] at ht
    exact ⟨_, List.mem_map.mpr ⟨_, List.getElem_mem hm, rfl⟩, ht⟩
  · rw [firstAt, List.getD_eq_default _ _ (by omega)] at ht
    exact absurd ht (TokenSet.not_mem_empty t)

/-- A round of FOLLOW sets keeps what each round keeps. -/
theorem FollowRising.round (h : FollowRising prods first start endId follow) :
    FollowRising prods first start endId (followRound prods first follow) where
  length := length_followRound
  seeded := fun hs => followAt_subset_followRound h.length start endId (h.seeded hs)
  bounded := by
    intro n x hx
    by_cases hn : n < prods.length
    · rcases (mem_followAt_followRound hn).mp hx with hx | ⟨r, suffix, ho, hx⟩
      · exact h.bounded n x hx
      · rcases mem_followOfSuffix.mp hx with hx | ⟨_, hx⟩
        · rw [followUniverse, TokenSet.mem_insert, TokenSet.mem_union]
          exact Or.inr ((ho.mem_firstOf hx).imp_right fun ⟨_, hm⟩ => mem_firstTerminals hm)
        · exact h.bounded r x hx
    · rw [followAt_of_length_le (by simp only [length_followRound]; omega)] at hx
      exact absurd hx (TokenSet.not_mem_empty x)

/-- The FOLLOW sets before the first round have what each round keeps. -/
theorem followRising_seed : FollowRising prods first start endId
    (followSeed prods start endId) where
  length := length_followSeed
  seeded := fun hs => (mem_followAt_followSeed hs).mpr ⟨rfl, rfl⟩
  bounded := by
    intro n x hx
    by_cases hn : n < prods.length
    · obtain ⟨_, rfl⟩ := (mem_followAt_followSeed hn).mp hx
      exact TokenSet.mem_insert.mpr (Or.inl rfl)
    · rw [followAt_of_length_le (by simp only [length_followSeed]; omega)] at hx
      exact absurd hx (TokenSet.not_mem_empty x)

/-- The FOLLOW sets have what each round keeps. -/
theorem followRising_followSets :
    FollowRising prods first start endId (followSets prods first start endId) :=
  settle_induction (fun _ h => h.round) _ followRising_seed

/-- The rounds that are made are enough for the loop to end, whatever the FIRST sets. -/
theorem rounds_followSets (prods : Productions) (first : List FirstSet) (start endId : Nat) :
    ∃ k ≤ roundBound prods.length (prods.terminals ∪ firstTerminals first).size,
      Rounds (followRound prods first) (followSeed prods start endId) k
        (followSets prods first start endId) := by
  refine rounds_settle_table (P := FollowRising prods first start endId) (∅ : TokenSet)
    (fun _ _ => TokenSet.size_lt_of_subset_of_ne) (fun _ h => h.round) (fun _ h => h.length)
    (fun _ h => followAt_subset_followRound h.length) ?_ followRising_seed
  intro l h n
  have hsize := TokenSet.size_le_of_subset (h.bounded n)
  exact le_trans hsize (TokenSet.size_insert_le _ _)

/-- The FOLLOW sets are at rest. -/
theorem followRound_followSets (prods : Productions) (first : List FirstSet) (start endId : Nat) :
    followRound prods first (followSets prods first start endId) =
      followSets prods first start endId := by
  obtain ⟨k, -, hrounds⟩ := rounds_followSets prods first start endId
  exact hrounds.step_eq

/-- The FOLLOW set of a rule holds what the occurrences of the rule give. -/
theorem followSets_closed {r : Nat} {suffix : List Symbol} (hn : n < prods.length)
    (ho : prods.Occurs r n suffix)
    (ht : t ∈ followOfSuffix first (followAt (followSets prods first start endId) r) suffix) :
    t ∈ followAt (followSets prods first start endId) n := by
  rw [← followRound_followSets]
  exact (mem_followAt_followRound hn).mpr (Or.inr ⟨r, suffix, ho, ht⟩)

/-- Some rule derives a form in which the terminal stands right behind the rule `n`. -/
def Productions.Precedes (prods : Productions) (n t : Nat) : Prop :=
  ∃ r < prods.length, ∃ before after,
    prods.Derives [.rule r] (before ++ .rule n :: .term t :: after)

/-- The start rule derives a form that ends with the rule `n`. -/
def Productions.EndsWith (prods : Productions) (start n : Nat) : Prop :=
  ∃ before, prods.Derives [.rule start] (before ++ [.rule n])

/-- What the sets say of the rules is so. -/
def FollowSound (prods : Productions) (start endId : Nat) (follow : List TokenSet) : Prop :=
  ∀ n, ∀ t ∈ followAt follow n,
    t ≠ endId ∧ prods.Precedes n t ∨ t = endId ∧ prods.EndsWith start n

/-- A rule of a form gives way to a rule of one of its alternatives where the suffix behind that
one vanishes. -/
theorem Productions.Derives.vanish {form before suffix rest : List Symbol} {r m : Nat}
    (hd : prods.Derives [.rule r] (form ++ .rule n :: rest))
    (halt : before ++ .rule m :: suffix ∈ prods.alternatives n)
    (hsuffix : prods.Derives suffix []) :
    prods.Derives [.rule r] (form ++ before ++ .rule m :: rest) := by
  have hkeep : prods.Derives (before ++ ([.rule m] ++ suffix)) (before ++ ([.rule m] ++ [])) :=
    (Derives.refl before).append ((Derives.refl [.rule m]).append hsuffix)
  have hrule := (Derives.rule halt hkeep).between form rest
  simp only [List.append_assoc, List.cons_append, List.nil_append] at hrule ⊢
  exact hd.trans hrule

/-- A round of FOLLOW sets that say nothing false says nothing false. -/
theorem FollowSound.round (h : FollowSound prods start endId follow)
    (hend : endId ∉ prods.terminals) :
    FollowSound prods start endId (followRound prods (firstSets prods) follow) := by
  intro n t ht
  by_cases hn : n < prods.length
  · rcases (mem_followAt_followRound hn).mp ht with ht | ⟨r, suffix, ⟨before, halt⟩, ht⟩
    · exact h n t ht
    · rcases mem_followOfSuffix.mp ht with ht | ⟨he, ht⟩
      · -- a terminal that can begin the suffix stands behind the occurrence itself
        have hne : t ≠ endId := by
          rintro rfl
          rcases Occurs.mem_firstOf ⟨before, halt⟩ ht with hx | ⟨m, hx⟩
          · exact hend hx
          · exact hend ((firstRising_firstSets prods).bounded m t hx)
        obtain ⟨rest, hrest⟩ := mem_firstOf_iff.mp ht
        refine Or.inl ⟨hne, r, lt_length_of_mem_alternatives halt, before, rest, ?_⟩
        exact Derives.rule halt ((Derives.refl before).append
          ((Derives.refl [.rule n]).append hrest))
      · -- behind a suffix that vanishes stands what stands behind the rule around it
        have hsuffix := epsilon_firstOf_iff.mp he
        rcases h r t ht with ⟨hne, q, hq, u, v, hd⟩ | ⟨rfl, u, hd⟩
        · exact Or.inl ⟨hne, q, hq, u ++ before, v, hd.vanish halt hsuffix⟩
        · exact Or.inr ⟨rfl, u ++ before, hd.vanish halt hsuffix⟩
  · rw [followAt_of_length_le (by simp only [length_followRound]; omega)] at ht
    exact absurd ht (TokenSet.not_mem_empty t)

/-- The FOLLOW sets say nothing false. -/
theorem followSound_followSets (prods : Productions) (start : Nat)
    (hend : endId ∉ prods.terminals) :
    FollowSound prods start endId (followSets prods (firstSets prods) start endId) := by
  refine settle_induction (fun _ h => h.round hend) _ fun n t ht => ?_
  by_cases hn : n < prods.length
  · obtain ⟨rfl, rfl⟩ := (mem_followAt_followSeed hn).mp ht
    exact Or.inr ⟨rfl, [], Derives.refl _⟩
  · rw [followAt_of_length_le (by simp only [length_followSeed]; omega)] at ht
    exact absurd ht (TokenSet.not_mem_empty t)

/-- The FOLLOW set of each rule in a form holds what stands behind the rule, where `last` can stand
behind the whole form. -/
def Covered (prods : Productions) (first : List FirstSet) (follow : List TokenSet)
    (last : TokenSet) (form : List Symbol) : Prop :=
  ∀ before n suffix, form = before ++ .rule n :: suffix → n < prods.length →
    followOfSuffix first last suffix ⊆ followAt follow n

/-- Replacing a rule of a covered form by an alternative leaves it covered. -/
theorem Covered.rewrites {last : TokenSet} {a b : List Symbol}
    (h : Covered prods (firstSets prods) (followSets prods (firstSets prods) start endId) last a)
    (hstep : prods.Rewrites a b) :
    Covered prods (firstSets prods) (followSets prods (firstSets prods) start endId) last b := by
  obtain @⟨u, v, m, alt, halt⟩ := hstep
  intro before n suffix he hn t ht
  rw [List.append_assoc] at he
  rcases append_eq_append_cons he with ⟨c, rfl, rfl⟩ | ⟨c, rfl, hbehind⟩
  · -- the occurrence stands in front: its suffix had the larger FIRST set before
    have hrule := FirstSet.le_trans (firstOf_alternative_le halt) (firstOf_singleton _ m).2
    have hsmaller : followOfSuffix (firstSets prods) last (c ++ alt ++ v) ⊆
        followOfSuffix (firstSets prods) last (c ++ [.rule m] ++ v) :=
      followOfSuffix_mono (firstOf_between_mono hrule c v)
    refine h before n (c ++ .rule m :: v) (by simp) hn t ?_
    simpa using hsmaller t (by simpa using ht)
  · rcases append_eq_append_cons hbehind with ⟨d, rfl, rfl⟩ | ⟨d, rfl, rfl⟩
    · -- the occurrence stands in the alternative, whose end is followed as the rule was
      refine followSets_closed hn ⟨c, halt⟩ (mem_followOfSuffix.mpr ?_)
      have hm := lt_length_of_mem_alternatives halt
      exact (mem_followOfSuffix_append.mp ht).imp_right
        fun ⟨hd, ht⟩ => ⟨hd, h u m v rfl hm t ht⟩
    · -- the occurrence stands behind, with its suffix as before
      exact h (u ++ .rule m :: d) n suffix (by simp) hn t ht

/-- The forms that a covered form derives are covered. -/
theorem Covered.derives {last : TokenSet} {a b : List Symbol}
    (h : Covered prods (firstSets prods) (followSets prods (firstSets prods) start endId) last a)
    (hd : prods.Derives a b) :
    Covered prods (firstSets prods) (followSets prods (firstSets prods) start endId) last b := by
  induction hd with
  | refl => exact h
  | tail _ hstep ih => exact ih.rewrites hstep

private theorem covered_singleton {last : TokenSet} {r : Nat}
    (hlast : r < prods.length → last ⊆ followAt follow r) :
    Covered prods first follow last [.rule r] := by
  intro before n suffix he hn t ht
  cases before with
  | nil =>
      obtain ⟨hr, rfl⟩ := List.cons.inj he
      cases hr
      rcases mem_followOfSuffix.mp ht with ht | ⟨_, ht⟩
      · exact absurd ht mem_firstOf_nil
      · exact hlast hn t ht
  | cons x before => simp at he

/-- The FOLLOW sets are exact, where the end of input is no terminal of the productions. Another
terminal is in the set of a rule if it can stand right behind the rule in a form that some rule
derives, be that rule within reach of the start or not; the end of input is in the set if the start
rule derives a form that ends with the rule. -/
theorem followSets_exact (prods : Productions) (start : Nat) (hend : endId ∉ prods.terminals)
    (hn : n < prods.length) :
    (∀ t, t ≠ endId →
      (t ∈ followAt (followSets prods (firstSets prods) start endId) n ↔ prods.Precedes n t)) ∧
    (endId ∈ followAt (followSets prods (firstSets prods) start endId) n ↔
      prods.EndsWith start n) := by
  have hsound := followSound_followSets prods start hend
  refine ⟨fun t ht => ⟨fun hmem => ?_, ?_⟩, fun hmem => ?_, ?_⟩
  · rcases hsound n t hmem with ⟨_, hp⟩ | ⟨he, _⟩
    · exact hp
    · exact absurd he ht
  · rintro ⟨r, _, before, after, hd⟩
    have hstart : Covered prods (firstSets prods)
        (followSets prods (firstSets prods) start endId) ∅ [.rule r] :=
      covered_singleton fun _ x hx => absurd hx (TokenSet.not_mem_empty x)
    exact hstart.derives hd before n _ rfl hn t
      (mem_followOfSuffix.mpr (Or.inl (mem_firstOf_term.mpr rfl)))
  · rcases hsound n endId hmem with ⟨hne, _⟩ | ⟨_, he⟩
    · exact absurd rfl hne
    · exact he
  · rintro ⟨before, hd⟩
    have hstart : Covered prods (firstSets prods)
        (followSets prods (firstSets prods) start endId) (TokenSet.insert endId ∅)
        [.rule start] := by
      refine covered_singleton fun hs x hx => ?_
      rcases TokenSet.mem_insert.mp hx with rfl | hx
      · exact followRising_followSets.seeded hs
      · exact absurd hx (TokenSet.not_mem_empty x)
    exact hstart.derives hd before n [] rfl hn endId
      (mem_followOfSuffix.mpr (Or.inr ⟨rfl, TokenSet.mem_insert.mpr (Or.inl rfl)⟩))

/-- In `0 → 1 t₀`, `1 → t₁ 2`, `2 → 1 | ε` the rule 2 ends no form derived from the start, but
comes right before the terminal 0, which reaches it through the rule 1. -/
theorem followSets_exact_nested :
    2 ∉ Productions.terminals [[[.rule 1, .term 0]], [[.term 1, .rule 2]], [[.rule 1], []]] ∧
    Productions.Precedes [[[.rule 1, .term 0]], [[.term 1, .rule 2]], [[.rule 1], []]] 2 0 ∧
    ¬ Productions.EndsWith [[[.rule 1, .term 0]], [[.term 1, .rule 2]], [[.rule 1], []]] 0 2 := by
  have hend : 2 ∉ Productions.terminals
      [[[.rule 1, .term 0]], [[.term 1, .rule 2]], [[.rule 1], []]] := by decide
  obtain ⟨hother, hlast⟩ := followSets_exact (n := 2)
    [[[.rule 1, .term 0]], [[.term 1, .rule 2]], [[.rule 1], []]] 0 hend (by decide)
  exact ⟨hend, (hother 0 (by decide)).mp (by decide), fun h => absurd (hlast.mpr h) (by decide)⟩

end Descent
