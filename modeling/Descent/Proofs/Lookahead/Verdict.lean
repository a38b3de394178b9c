import Descent.Proofs.Lookahead.Markers

/-!
# The verdict on productions

The search for conflicts goes through ordered pairs of alternatives, and one of its two
conditions is not symmetric. It finds nothing exactly if the marker sets of different
alternatives are disjoint and no two alternatives of a rule can be empty, whatever
FIRST and FOLLOW sets it is given. What it reports is the first pair of the first rule
that breaks a condition, with terminals that are markers of both alternatives.
-/

namespace Descent

variable {follow : TokenSet} {a b o : FirstSet}

/-- A FIRST set is found empty if it has no terminals and its sequence cannot be empty. -/
theorem FirstSet.isEmpty_iff {s : FirstSet} :
    s.isEmpty = true ↔ (∀ t, t ∉ s.tokens) ∧ s.epsilon = false := by
  rw [isEmpty, Bool.and_eq_true, TokenSet.isEmpty_iff, Bool.not_eq_true']

/-- Two different alternatives with these FIRST sets break a condition in this order: they share a
terminal, or both can be empty, or the first can be empty and the second begins with a terminal that
can follow the rule. -/
def Clashes (follow : TokenSet) (a b : FirstSet) : Prop :=
  (∃ t, t ∈ a.tokens ∧ t ∈ b.tokens) ∨ (a.epsilon = true ∧ b.epsilon = true) ∨
    (a.epsilon = true ∧ ∃ t, t ∈ b.tokens ∧ t ∈ follow)

/-- What is reported is something, in the marker sets of both alternatives, and has the empty text
exactly if both can be empty. -/
theorem overlap_eq_some (h : overlap? follow a b = some o) :
    o.isEmpty = false ∧ Clashes follow a b ∧
      (∀ t ∈ o.tokens, t ∈ b.tokens ∧ (t ∈ a.tokens ∨ a.epsilon = true ∧ t ∈ follow)) ∧
      (o.epsilon = true ↔ a.epsilon = true ∧ b.epsilon = true) := by
  rw [overlap?] at h
  by_cases hshared : (a.inter b).isEmpty = true
  · -- the FIRST sets share nothing, so what is reported comes from the FOLLOW set
    rw [hshared, Bool.not_true, if_neg Bool.false_ne_true] at h
    obtain ⟨hnone, hempty⟩ := FirstSet.isEmpty_iff.mp hshared
    have hboth : ¬ (a.epsilon = true ∧ b.epsilon = true) := by
      rw [← Bool.and_eq_true]
      exact fun he => Bool.false_ne_true (hempty.symm.trans he)
    split at h
    · next hfollow =>
        obtain rfl := Option.some.inj h
        obtain ⟨he, hmeet⟩ := Bool.and_eq_true _ _ ▸ hfollow
        rw [Bool.not_eq_true'] at hmeet
        obtain ⟨t, ht⟩ : ∃ t, t ∈ b.tokens ∩ follow := by
          by_contra hall
          rw [TokenSet.isEmpty_iff.mpr fun t ht => hall ⟨t, ht⟩] at hmeet
          exact Bool.false_ne_true hmeet.symm
        refine ⟨?_, Or.inr (Or.inr ⟨he, t, TokenSet.mem_inter.mp ht⟩), fun t ht => ?_, ?_⟩
        · rw [FirstSet.isEmpty, hmeet, Bool.false_and]
        · obtain ⟨htb, htf⟩ := TokenSet.mem_inter.mp ht
          exact ⟨htb, Or.inr ⟨he, htf⟩⟩
        · exact iff_of_false Bool.false_ne_true hboth
    · cases h
  · rw [Bool.not_eq_true] at hshared
    rw [hshared, Bool.not_false, if_pos rfl] at h
    obtain rfl := Option.some.inj h
    have hepsilon : (a.inter b).epsilon = true ↔ a.epsilon = true ∧ b.epsilon = true :=
      Bool.and_eq_true_iff
    refine ⟨hshared, ?_, fun t ht => ?_, hepsilon⟩
    · by_contra hnot
      have hnone : (a.inter b).isEmpty = true := by
        refine FirstSet.isEmpty_iff.mpr ⟨fun t ht => hnot (Or.inl ⟨t, TokenSet.mem_inter.mp ht⟩), ?_⟩
        rw [← Bool.not_eq_true, hepsilon]
        exact fun he => hnot (Or.inr (Or.inl he))
      rw [hshared] at hnone
      exact Bool.false_ne_true hnone
    · obtain ⟨hta, htb⟩ := TokenSet.mem_inter.mp ht
      exact ⟨htb, Or.inl hta⟩

/-- Nothing is reported exactly if no condition is broken. -/
theorem overlap_eq_none_iff : overlap? follow a b = none ↔ ¬ Clashes follow a b := by
  constructor
  · intro h
    obtain ⟨htokens, hempty, hfollow⟩ := overlap_eq_none h
    rintro (⟨t, hta, htb⟩ | he | ⟨he, t, htb, htf⟩)
    · exact htokens t hta htb
    · exact hempty he
    · exact hfollow he t htb htf
  · intro h
    cases ho : overlap? follow a b with
    | none => rfl
    | some o => exact absurd (overlap_eq_some ho).2.1 h

/-- A search through the numbered elements of a list finds what the first element with a result
gives. -/
theorem findSome?_zipIdx_eq_some {α β : Type} {l : List α} {f : α × Nat → Option β} {r : β}
    (h : l.zipIdx.findSome? f = some r) :
    ∃ x i, l[i]? = some x ∧ f (x, i) = some r ∧ ∀ j < i, ∀ y, l[j]? = some y → f (y, j) = none := by
  obtain ⟨before, ⟨x, i⟩, after, hl, hx, hbefore⟩ := List.findSome?_eq_some_iff.mp h
  have hat : l.zipIdx[before.length]? = some (x, i) := by
    rw [hl, List.getElem?_append_right (Nat.le_refl _), Nat.sub_self, List.getElem?_cons_zero]
  rw [List.getElem?_zipIdx, Option.map_eq_some_iff] at hat
  obtain ⟨x', hx', hpair⟩ := hat
  obtain ⟨rfl, rfl⟩ := Prod.mk.inj hpair
  rw [Nat.zero_add] at hx
  refine ⟨x', before.length, hx', hx, fun j hj y hy => hbefore (y, j) ?_⟩
  have hplace : l.zipIdx[j]? = some (y, j) := by
    rw [List.getElem?_zipIdx, hy, Option.map_some, Nat.zero_add]
  rw [hl, List.getElem?_append_left hj] at hplace
  exact List.mem_of_getElem? hplace

variable {prods : Productions} {first : List FirstSet} {follows : List TokenSet} {n i j : Nat}
  {c : Conflict}

namespace Productions

/-- The alternative at a position of a rule can be empty, by the given FIRST sets. -/
def EmptyAt (prods : Productions) (first : List FirstSet) (n i : Nat) : Prop :=
  ∃ x, (prods.alternatives n)[i]? = some x ∧ (firstOf first x).epsilon = true

/-- The alternatives at two different positions of a rule break a condition in this order. -/
def ClashesAt (prods : Productions) (first : List FirstSet) (follows : List TokenSet)
    (n i j : Nat) : Prop :=
  i ≠ j ∧ ∃ x y, (prods.alternatives n)[i]? = some x ∧ (prods.alternatives n)[j]? = some y ∧
    Clashes (followAt follows n) (firstOf first x) (firstOf first y)

/-- The marker set of the alternative at a position of a rule. -/
def markersAt (prods : Productions) (first : List FirstSet) (follows : List TokenSet)
    (n i : Nat) : TokenSet :=
  ((markerSets prods first follows).getD n []).getD i ∅

/-- One terminal of lookahead separates the alternatives of the rule: the marker sets of any two are
disjoint, and one alternative at most can be empty. -/
structure SeparatedAt (prods : Productions) (first : List FirstSet) (follows : List TokenSet)
    (n : Nat) : Prop where
  disjoint : ∀ i j, i ≠ j →
    ∀ t ∈ prods.markersAt first follows n i, t ∉ prods.markersAt first follows n j
  emptyOnce : ∀ i j, prods.EmptyAt first n i → prods.EmptyAt first n j → i = j

/-- A marker of the alternative at a position begins the alternative, or follows the rule where the
alternative can be empty. -/
theorem mem_markersAt {t : Nat} : t ∈ prods.markersAt first follows n i ↔
    ∃ x, (prods.alternatives n)[i]? = some x ∧ (t ∈ (firstOf first x).tokens ∨
      (firstOf first x).epsilon = true ∧ t ∈ followAt follows n) := by
  rw [markersAt, getD_markerSets, List.getD_eq_getElem?_getD, List.getElem?_map]
  cases (prods.alternatives n)[i]? with
  | none => simp
  | some x =>
      rw [Option.map_some, Option.getD_some, markerSet, mem_followOfSuffix]
      simp only [Option.some.injEq, exists_eq_left']

/-- A rule is separated exactly if no pair of its alternatives breaks a condition. A terminal that
selects two alternatives begins both, or begins one and follows the rule where the other can be
empty, which breaks a condition in one of the two orders. -/
theorem separatedAt_iff : prods.SeparatedAt first follows n ↔
    ∀ i j, ¬ prods.ClashesAt first follows n i j := by
  constructor
  · rintro ⟨hdisjoint, hempty⟩ i j ⟨hne, x, y, hx, hy, ⟨t, htx, hty⟩ | ⟨hex, hey⟩ | ⟨he, t, ht, hf⟩⟩
    · exact hdisjoint i j hne t (mem_markersAt.mpr ⟨x, hx, Or.inl htx⟩)
        (mem_markersAt.mpr ⟨y, hy, Or.inl hty⟩)
    · exact hne (hempty i j ⟨x, hx, hex⟩ ⟨y, hy, hey⟩)
    · exact hdisjoint i j hne t (mem_markersAt.mpr ⟨x, hx, Or.inr ⟨he, hf⟩⟩)
        (mem_markersAt.mpr ⟨y, hy, Or.inl ht⟩)
  · intro hclash
    refine ⟨fun i j hne t hti htj => ?_, fun i j ⟨x, hx, hex⟩ ⟨y, hy, hey⟩ => ?_⟩
    · obtain ⟨x, hx, htx⟩ := mem_markersAt.mp hti
      obtain ⟨y, hy, hty⟩ := mem_markersAt.mp htj
      rcases htx with htx | ⟨hex, hfx⟩ <;> rcases hty with hty | ⟨hey, hfy⟩
      · exact hclash i j ⟨hne, x, y, hx, hy, Or.inl ⟨t, htx, hty⟩⟩
      · exact hclash j i ⟨hne.symm, y, x, hy, hx, Or.inr (Or.inr ⟨hey, t, htx, hfy⟩)⟩
      · exact hclash i j ⟨hne, x, y, hx, hy, Or.inr (Or.inr ⟨hex, t, hty, hfx⟩)⟩
      · exact hclash i j ⟨hne, x, y, hx, hy, Or.inr (Or.inl ⟨hex, hey⟩)⟩
    · by_contra hne
      exact hclash i j ⟨hne, x, y, hx, hy, Or.inr (Or.inl ⟨hex, hey⟩)⟩

end Productions

/-- What is reported of a rule is about the first pair that breaks a condition. -/
theorem ruleConflict_eq_some {firsts : List FirstSet}
    (h : ruleConflict? n follow firsts = some c) :
    c.rule = n ∧ c.first ≠ c.second ∧
      (∃ a b, firsts[c.first]? = some a ∧ firsts[c.second]? = some b ∧
        overlap? follow a b = some c.overlap) ∧
      ∀ i j a b, i ≠ j → firsts[i]? = some a → firsts[j]? = some b → Clashes follow a b →
        c.first < i ∨ c.first = i ∧ c.second ≤ j := by
  rw [ruleConflict?] at h
  obtain ⟨a, p, ha, h, hrows⟩ := findSome?_zipIdx_eq_some h
  obtain ⟨b, q, hb, h, hrow⟩ := findSome?_zipIdx_eq_some h
  dsimp only at h
  split at h
  · cases h
  · next hne =>
      obtain ⟨o, ho, rfl⟩ := Option.map_eq_some_iff.mp h
      refine ⟨rfl, hne, ⟨a, b, ha, hb, ho⟩, fun i j a' b' hij ha' hb' hclash => ?_⟩
      -- a pair that breaks a condition is not one that the search has passed over
      have hreport : overlap? follow a' b' ≠ none := fun hn => overlap_eq_none_iff.mp hn hclash
      rcases Nat.lt_trichotomy p i with hlt | rfl | hgt
      · exact Or.inl hlt
      · refine Or.inr ⟨rfl, Nat.le_of_not_lt fun hjq => ?_⟩
        obtain rfl := Option.some.inj (ha'.symm.trans ha)
        have hpair := hrow j hjq b' hb'
        simp only [if_neg hij, Option.map_eq_none_iff] at hpair
        exact absurd hpair hreport
      · have hpassed := List.findSome?_eq_none_iff.mp (hrows i hgt a' ha') (b', j)
          (List.mk_mem_zipIdx_iff_getElem?.mpr hb')
        simp only [if_neg hij, Option.map_eq_none_iff] at hpassed
        exact absurd hpassed hreport

/-- Nothing is reported of a rule exactly if no pair breaks a condition. -/
theorem ruleConflict_eq_none_iff : ruleConflict? n (followAt follows n)
    ((prods.alternatives n).map (firstOf first)) = none ↔
      ∀ i j, ¬ prods.ClashesAt first follows n i j := by
  constructor
  · rintro h i j ⟨hne, x, y, hx, hy, hclash⟩
    rw [ruleConflict?, List.findSome?_eq_none_iff] at h
    have hrow := List.findSome?_eq_none_iff.mp (h (firstOf first x, i)
      (List.mk_mem_zipIdx_iff_getElem?.mpr (by rw [List.getElem?_map, hx, Option.map_some])))
    have hpair := hrow (firstOf first y, j)
      (List.mk_mem_zipIdx_iff_getElem?.mpr (by rw [List.getElem?_map, hy, Option.map_some]))
    simp only [if_neg hne, Option.map_eq_none_iff] at hpair
    exact overlap_eq_none_iff.mp hpair hclash
  · intro h
    cases hc : ruleConflict? n (followAt follows n) ((prods.alternatives n).map (firstOf first)) with
    | none => rfl
    | some c =>
        obtain ⟨-, hne, ⟨a, b, ha, hb, ho⟩, -⟩ := ruleConflict_eq_some hc
        rw [List.getElem?_map, Option.map_eq_some_iff] at ha hb
        obtain ⟨x, hx, rfl⟩ := ha
        obtain ⟨y, hy, rfl⟩ := hb
        exact absurd ⟨hne, x, y, hx, hy, (overlap_eq_some ho).2.1⟩ (h c.first c.second)

/-- The report of a conflict is true: something is shared by two different alternatives, its
terminals are markers of both, it has the empty text exactly if both can be empty, and the pair is
the first one of the first rule that breaks a condition. -/
structure Conflict.Truthful (prods : Productions) (first : List FirstSet)
    (follows : List TokenSet) (c : Conflict) : Prop where
  shared : c.overlap.isEmpty = false
  different : c.first ≠ c.second
  markers : ∀ t ∈ c.overlap.tokens, t ∈ prods.markersAt first follows c.rule c.first ∧
    t ∈ prods.markersAt first follows c.rule c.second
  epsilon : c.overlap.epsilon = true ↔
    prods.EmptyAt first c.rule c.first ∧ prods.EmptyAt first c.rule c.second
  firstRule : ∀ n < c.rule, prods.SeparatedAt first follows n
  clashes : prods.ClashesAt first follows c.rule c.first c.second
  firstPair : ∀ i j, prods.ClashesAt first follows c.rule i j →
    c.first < i ∨ c.first = i ∧ c.second ≤ j

private theorem getElem?_eq_alternatives {alternatives : List (List Symbol)}
    (h : prods[n]? = some alternatives) : prods.alternatives n = alternatives := by
  rw [Productions.alternatives, List.getD_eq_getElem?_getD, h, Option.getD_some]

/-- What is reported of productions is true. -/
theorem truthful_of_findConflict (h : findConflict prods first follows = some c) :
    c.Truthful prods first follows := by
  rw [findConflict] at h
  obtain ⟨alternatives, n, halts, h, hrules⟩ := findSome?_zipIdx_eq_some h
  obtain rfl := getElem?_eq_alternatives halts
  obtain ⟨rfl, hne, ⟨a, b, ha, hb, ho⟩, hleast⟩ := ruleConflict_eq_some h
  rw [List.getElem?_map, Option.map_eq_some_iff] at ha hb
  obtain ⟨x, hx, rfl⟩ := ha
  obtain ⟨y, hy, rfl⟩ := hb
  obtain ⟨hshared, hclash, hmarkers, hepsilon⟩ := overlap_eq_some ho
  refine ⟨hshared, hne, fun t ht => ?_, ?_, fun m hm => ?_, ⟨hne, x, y, hx, hy, hclash⟩, ?_⟩
  · obtain ⟨hty, htx⟩ := hmarkers t ht
    exact ⟨Productions.mem_markersAt.mpr ⟨x, hx, htx⟩,
      Productions.mem_markersAt.mpr ⟨y, hy, Or.inl hty⟩⟩
  · simp only [hepsilon, Productions.EmptyAt, hx, hy, Option.some.injEq, exists_eq_left']
  · have hm' : m < prods.length := by
      obtain ⟨hlt, -⟩ := List.getElem?_eq_some_iff.mp halts
      omega
    have halts' := getElem?_eq_alternatives (List.getElem?_eq_getElem hm')
    have hnone := hrules m hm _ (List.getElem?_eq_getElem hm')
    dsimp only at hnone
    rw [← halts'] at hnone
    exact Productions.separatedAt_iff.mpr (ruleConflict_eq_none_iff.mp hnone)
  · rintro i j ⟨hij, x', y', hx', hy', hclash'⟩
    refine hleast i j _ _ hij ?_ ?_ hclash' <;> rw [List.getElem?_map]
    · rw [hx', Option.map_some]
    · rw [hy', Option.map_some]

/-- The verdict is exact whatever sets it is based on: there is no conflict exactly if every rule is
separated by its marker sets, and a conflict that is reported is true and the first one. -/
theorem findConflict_exact (prods : Productions) (first : List FirstSet)
    (follows : List TokenSet) :
    (findConflict prods first follows = none ↔ ∀ n, prods.SeparatedAt first follows n) ∧
      ∀ c, findConflict prods first follows = some c → c.Truthful prods first follows := by
  refine ⟨⟨fun h n => Productions.separatedAt_iff.mpr ?_, fun h => ?_⟩, fun c =>
    truthful_of_findConflict⟩
  · rintro i j ⟨hne, x, y, hx, hy, hclash⟩
    exact overlap_eq_none_iff.mp (overlap_of_findConflict h hx hy hne) hclash
  · cases hc : findConflict prods first follows with
    | none => rfl
    | some c =>
        exact absurd (truthful_of_findConflict hc).clashes
          (Productions.separatedAt_iff.mp (h c.rule) c.first c.second)

/-- The productions `0 → 1 t₀`, `1 → 2 1 | ε`, `2 → t₀`: a list, and behind it what its elements begin
with. -/
def listAndElement : Productions := [[[.rule 1, .term 0]], [[.rule 2, .rule 1], []], [[.term 0]]]

/-- The alternatives of the list share no terminal, but the second can be empty and the first begins
with a terminal that can follow: the pair is reported in the order in which it breaks the condition. -/
theorem findConflict_exact_listAndElement :
    findConflict listAndElement (firstSets listAndElement)
        (followSets listAndElement (firstSets listAndElement) 0 1) =
      some ⟨1, 1, 0, ⟨TokenSet.empty.insert 0, false⟩⟩ ∧
    Conflict.Truthful listAndElement (firstSets listAndElement)
      (followSets listAndElement (firstSets listAndElement) 0 1)
      ⟨1, 1, 0, ⟨TokenSet.empty.insert 0, false⟩⟩ ∧
    ¬ listAndElement.SeparatedAt (firstSets listAndElement)
      (followSets listAndElement (firstSets listAndElement) 0 1) 1 := by
  have hfound : findConflict listAndElement (firstSets listAndElement)
      (followSets listAndElement (firstSets listAndElement) 0 1) =
        some ⟨1, 1, 0, ⟨TokenSet.empty.insert 0, false⟩⟩ := by decide +kernel
  have hreport := (findConflict_exact listAndElement (firstSets listAndElement)
    (followSets listAndElement (firstSets listAndElement) 0 1)).2 _ hfound
  exact ⟨hfound, hreport, fun hsep => Productions.separatedAt_iff.mp hsep 1 0 hreport.clashes⟩

end Descent
