import Descent.Lookahead.Conflict
import Descent.Proofs.Lookahead.Follow

/-!
# Markers without conflicts

Where no conflict is found a terminal selects one alternative of a rule at most. The
check compares FIRST sets with each other, and the FIRST set of one alternative with
the FOLLOW set of the rule where the other can be empty; two marker sets share no
terminal by any of these ways.
-/

namespace Descent

open Productions

/-- Nothing to report means that neither set shares a terminal or the empty text with the other,
and that an empty first choice leaves the second no terminal that can follow. -/
theorem overlap_eq_none {follow : TokenSet} {a b : FirstSet} (h : overlap? follow a b = none) :
    (∀ t, t ∈ a.tokens → t ∉ b.tokens) ∧ ¬ (a.epsilon = true ∧ b.epsilon = true) ∧
      (a.epsilon = true → ∀ t, t ∈ b.tokens → t ∉ follow) := by
  rw [overlap?] at h
  by_cases hshared : (a.inter b).isEmpty = true
  · rw [hshared] at h
    simp only [FirstSet.isEmpty, FirstSet.inter, Bool.and_eq_true, Bool.not_eq_true',
      Bool.and_eq_false_iff, TokenSet.isEmpty_iff, TokenSet.mem_inter, not_and] at hshared
    refine ⟨hshared.1, ?_, fun he t ht hf => ?_⟩
    · rintro ⟨ha, hb⟩
      rcases hshared.2 with h | h <;> simp_all
    · have hempty : (b.tokens ∩ follow).isEmpty = true := by
        cases hx : (b.tokens ∩ follow).isEmpty <;> simp_all
      exact TokenSet.isEmpty_iff.mp hempty t (TokenSet.mem_inter.mpr ⟨ht, hf⟩)
  · simp [hshared] at h

variable {prods : Productions} {first : List FirstSet} {follow : List TokenSet} {n : Nat}

/-- Where no conflict is found, no pair of different alternatives of a rule has anything to report. -/
theorem overlap_of_findConflict (h : findConflict prods first follow = none) {i j : Nat}
    {x y : List Symbol} (hi : (prods.alternatives n)[i]? = some x)
    (hj : (prods.alternatives n)[j]? = some y) (hne : i ≠ j) :
    overlap? (followAt follow n) (firstOf first x) (firstOf first y) = none := by
  have hn := lt_length_of_mem_alternatives (List.mem_of_getElem? hi)
  have halts : prods[n]? = some (prods.alternatives n) := by
    rw [List.getElem?_eq_getElem hn, alternatives, List.getD_eq_getElem _ _ hn]
  rw [findConflict, List.findSome?_eq_none_iff] at h
  have hrule : ruleConflict? n (followAt follow n) ((prods.alternatives n).map (firstOf first)) =
      none := h (_, n) (List.mk_mem_zipIdx_iff_getElem?.mpr halts)
  rw [ruleConflict?, List.findSome?_eq_none_iff] at hrule
  have hleft := List.findSome?_eq_none_iff.mp
    (hrule (firstOf first x, i) (List.mk_mem_zipIdx_iff_getElem?.mpr (by simp [hi])))
  have hpair := hleft (firstOf first y, j) (List.mk_mem_zipIdx_iff_getElem?.mpr (by simp [hj]))
  simpa only [if_neg hne, Option.map_eq_none_iff] using hpair

/-- Where no conflict is found, a terminal selects one alternative of a rule at most. -/
theorem markerSet_unique (h : findConflict prods first follow = none) {i j t : Nat}
    {x y : List Symbol} (hi : (prods.alternatives n)[i]? = some x)
    (hj : (prods.alternatives n)[j]? = some y)
    (hx : t ∈ markerSet first (followAt follow n) x)
    (hy : t ∈ markerSet first (followAt follow n) y) : i = j := by
  by_contra hne
  obtain ⟨htokens, hempty, hxfollow⟩ := overlap_eq_none (overlap_of_findConflict h hi hj hne)
  obtain ⟨_, _, hyfollow⟩ := overlap_eq_none (overlap_of_findConflict h hj hi (Ne.symm hne))
  rcases mem_followOfSuffix.mp hx with hx | ⟨hex, hfx⟩ <;>
    rcases mem_followOfSuffix.mp hy with hy | ⟨hey, hfy⟩
  · exact htokens t hx hy
  · exact hyfollow hey t hx hfy
  · exact hxfollow hex t hy hfx
  · exact hempty ⟨hex, hey⟩

namespace Productions

/-- The terminals that can follow a rule, where `endId` can follow the rule `start`. -/
def following (prods : Productions) (start endId n : Nat) : TokenSet :=
  followAt (followSets prods (firstSets prods) start endId) n

/-- The terminals that select an alternative of a rule. -/
def markers (prods : Productions) (start endId n : Nat) (alt : List Symbol) : TokenSet :=
  markerSet (firstSets prods) (prods.following start endId n) alt

/-- The analysis of the productions finds no conflict. -/
def ConflictFree (prods : Productions) (start endId : Nat) : Prop :=
  findConflict prods (firstSets prods) (followSets prods (firstSets prods) start endId) = none

variable {start endId t : Nat} {alt alt' form : List Symbol}

/-- What a sequence begins with is in its FIRST set. -/
theorem mem_firstOf_of_begins (h : prods.SequenceBegins t form) :
    t ∈ (firstOf (firstSets prods) form).tokens :=
  mem_firstOf_iff.mpr h.derives

/-- The FIRST set of a sequence that vanishes says so. -/
theorem epsilon_firstOf_of_vanishes (h : ∀ s ∈ form, prods.Vanishes s) :
    (firstOf (firstSets prods) form).epsilon = true :=
  epsilon_firstOf_iff.mpr (Derives.nil_of_forall fun s hs => (h s hs).derives)

/-- A terminal selects an alternative that can begin with it, and one that can vanish if the terminal
can follow the rule. -/
theorem mem_markers_iff : t ∈ prods.markers start endId n alt ↔
    prods.SequenceBegins t alt ∨
      (∀ s ∈ alt, prods.Vanishes s) ∧ t ∈ prods.following start endId n := by
  have hsound := firstSound_firstSets prods
  rw [markers, markerSet, mem_followOfSuffix]
  constructor
  · exact fun h => h.imp hsound.begins fun ⟨he, ht⟩ => ⟨hsound.vanishes he, ht⟩
  · exact fun h => h.imp mem_firstOf_of_begins fun ⟨hv, ht⟩ => ⟨epsilon_firstOf_of_vanishes hv, ht⟩

/-- Only terminals of the productions and the end of input select an alternative. -/
theorem mem_terminals_of_mem_markers (halt : alt ∈ prods.alternatives n)
    (ht : t ∈ prods.markers start endId n alt) : t ∈ prods.terminals ∨ t = endId := by
  have hbounded := (firstRising_firstSets prods).bounded
  rcases mem_followOfSuffix.mp ht with ht | ⟨_, ht⟩
  · rcases mem_firstOf_origin ht with ht | ⟨m, ht⟩
    · exact Or.inl (mem_terminals halt ht)
    · exact Or.inl (hbounded m t ht)
  · have huniverse := followRising_followSets.bounded n t ht
    rw [followUniverse, TokenSet.mem_insert, TokenSet.mem_union, firstTerminals,
      TokenSet.mem_unionAll] at huniverse
    rcases huniverse with rfl | ht | ⟨s, hs, ht⟩
    · exact Or.inr rfl
    · exact Or.inl ht
    · obtain ⟨f, hf, rfl⟩ := List.mem_map.mp hs
      obtain ⟨m, hm, rfl⟩ := List.getElem_of_mem hf
      refine Or.inl (hbounded m t ?_)
      rwa [firstAt, List.getD_eq_getElem _ _ hm]

/-- In productions without conflicts a terminal selects one alternative at most. -/
theorem ConflictFree.unique (h : prods.ConflictFree start endId)
    (halt : alt ∈ prods.alternatives n) (halt' : alt' ∈ prods.alternatives n)
    (ht : t ∈ prods.markers start endId n alt) (ht' : t ∈ prods.markers start endId n alt') :
    alt = alt' := by
  obtain ⟨i, hi⟩ := List.mem_iff_getElem?.mp halt
  obtain ⟨j, hj⟩ := List.mem_iff_getElem?.mp halt'
  obtain rfl := markerSet_unique h hi hj ht ht'
  exact Option.some.inj (hi.symm.trans hj)

/-- What an occurrence of a rule gives can follow the rule. -/
theorem mem_following {r m : Nat} {suffix : List Symbol} (hm : m < prods.length)
    (ho : prods.Occurs r m suffix)
    (ht : t ∈ followOfSuffix (firstSets prods) (prods.following start endId r) suffix) :
    t ∈ prods.following start endId m :=
  followSets_closed hm ho ht

end Productions

end Descent
