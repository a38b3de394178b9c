import Descent.Lookahead.Follow
import Descent.Proofs.Lookahead.Derivation
import Descent.Proofs.Lookahead.FirstLaws

/-!
# Laws of FOLLOW sets

The members of what a suffix and a round give to the FOLLOW set of a rule, in terms
of the occurrences of the rule in the productions.
-/

namespace Descent

open Productions

/-- Where a symbol stands in a concatenation: in the first part or in the second. -/
theorem append_eq_append_cons {α : Type} {a b before suffix : List α} {x : α}
    (h : a ++ b = before ++ x :: suffix) :
    (∃ c, a = before ++ x :: c ∧ suffix = c ++ b) ∨
      ∃ c, before = a ++ c ∧ b = c ++ x :: suffix := by
  rcases List.append_eq_append_iff.mp h with ⟨c, hbefore, hb⟩ | ⟨c, ha, hsuffix⟩
  · exact Or.inr ⟨c, hbefore, hb⟩
  · cases c with
    | nil =>
        refine Or.inr ⟨[], ?_, hsuffix.symm⟩
        rw [ha, List.append_nil, List.append_nil]
    | cons y c =>
        obtain ⟨rfl, hs⟩ := List.cons.inj hsuffix
        exact Or.inl ⟨c, ha, hs⟩

/-- An alternative of the rule `r` has the rule `n` with a suffix behind it. -/
def Productions.Occurs (prods : Productions) (r n : Nat) (suffix : List Symbol) : Prop :=
  ∃ before, before ++ .rule n :: suffix ∈ prods.alternatives r

variable {prods : Productions} {first : List FirstSet} {follow : List TokenSet} {t n : Nat}

/-- The suffixes behind a rule are those behind its occurrences in the form. -/
theorem mem_suffixesAfter {form suffix : List Symbol} :
    suffix ∈ suffixesAfter n form ↔ ∃ before, form = before ++ .rule n :: suffix := by
  induction form with
  | nil => simp [suffixesAfter]
  | cons s rest ih =>
      have htail : (∃ before, s :: rest = before ++ .rule n :: suffix) ↔
          (s = .rule n ∧ suffix = rest) ∨ ∃ before, rest = before ++ .rule n :: suffix := by
        constructor
        · rintro ⟨before, he⟩
          cases before with
          | nil =>
              obtain ⟨rfl, rfl⟩ := List.cons.inj he
              exact Or.inl ⟨rfl, rfl⟩
          | cons x before => exact Or.inr ⟨before, (List.cons.inj he).2⟩
        · rintro (⟨rfl, rfl⟩ | ⟨before, rfl⟩)
          · exact ⟨[], rfl⟩
          · exact ⟨s :: before, rfl⟩
      rw [suffixesAfter, htail, ← ih]
      by_cases hs : s = .rule n
      · rw [if_pos hs, List.mem_cons]
        simp only [hs, true_and]
      · rw [if_neg hs]
        simp only [hs, false_and, false_or]

/-- A suffix gives what can begin it, and where it can be empty what can follow it. -/
theorem mem_followOfSuffix {around : TokenSet} {suffix : List Symbol} :
    t ∈ followOfSuffix first around suffix ↔
      t ∈ (firstOf first suffix).tokens ∨
        (firstOf first suffix).epsilon = true ∧ t ∈ around := by
  rw [followOfSuffix]
  cases he : (firstOf first suffix).epsilon <;> simp

/-- A suffix in two parts gives what can begin the first part, and where that can be empty what the
second part gives. -/
theorem mem_followOfSuffix_append {around : TokenSet} {a b : List Symbol} :
    t ∈ followOfSuffix first around (a ++ b) ↔
      t ∈ (firstOf first a).tokens ∨
        (firstOf first a).epsilon = true ∧ t ∈ followOfSuffix first around b := by
  simp only [mem_followOfSuffix, mem_firstOf_append, epsilon_firstOf_append, Bool.and_eq_true]
  tauto

/-- A suffix with the smaller FIRST set gives less. -/
theorem followOfSuffix_mono {around : TokenSet} {a b : List Symbol}
    (h : firstOf first a ≤ firstOf first b) :
    followOfSuffix first around a ⊆ followOfSuffix first around b := by
  intro x hx
  rw [mem_followOfSuffix] at hx ⊢
  exact hx.imp (h.1 x) fun ⟨he, hx⟩ => ⟨h.2 he, hx⟩

/-- A rule gains what the suffixes of its occurrences give. -/
theorem mem_followGains : t ∈ followGains prods first follow n ↔
    ∃ r suffix, prods.Occurs r n suffix ∧
      t ∈ followOfSuffix first (followAt follow r) suffix := by
  simp only [followGains, TokenSet.mem_unionAll, List.mem_flatMap, List.mem_map, Prod.exists,
    List.mk_mem_zipIdx_iff_getElem?]
  constructor
  · rintro ⟨_, ⟨alternatives, r, hr, alt, halt, suffix, hsuffix, rfl⟩, ht⟩
    obtain ⟨before, rfl⟩ := mem_suffixesAfter.mp hsuffix
    refine ⟨r, suffix, ⟨before, ?_⟩, ht⟩
    simpa [Productions.alternatives, List.getD_eq_getElem?_getD, hr] using halt
  · rintro ⟨r, suffix, ⟨before, halt⟩, ht⟩
    have hr := lt_length_of_mem_alternatives halt
    refine ⟨_, ⟨prods[r], r, List.getElem?_eq_getElem hr, _, ?_, suffix,
      mem_suffixesAfter.mpr ⟨before, rfl⟩, rfl⟩, ht⟩
    simpa [Productions.alternatives, List.getD_eq_getElem?_getD, hr] using halt

/-- A round adds to the set of a rule what the rule gains. -/
theorem mem_followAt_followRound (hn : n < prods.length) :
    t ∈ followAt (followRound prods first follow) n ↔
      t ∈ followAt follow n ∨ ∃ r suffix, prods.Occurs r n suffix ∧
        t ∈ followOfSuffix first (followAt follow r) suffix := by
  have hround : followAt (followRound prods first follow) n =
      followAt follow n ∪ followGains prods first follow n := by
    simp [followAt, followRound, List.getD_eq_getElem?_getD, hn]
  rw [hround, TokenSet.mem_union, mem_followGains]

/-- The marker sets of a rule are those of its alternatives. -/
theorem getD_markerSets (n : Nat) : (markerSets prods first follow).getD n [] =
    (prods.alternatives n).map (markerSet first (followAt follow n)) := by
  rw [markerSets, Productions.alternatives]
  simp only [List.getD_eq_getElem?_getD, List.getElem?_map, List.getElem?_zipIdx]
  cases prods[n]? with
  | none => rfl
  | some alternatives => simp only [Option.map_some, Option.getD_some, Nat.zero_add]

/-- Beyond the table of FOLLOW sets they are empty. -/
theorem followAt_of_length_le (h : follow.length ≤ n) : followAt follow n = ∅ := by
  rw [followAt, List.getD_eq_getElem?_getD, List.getElem?_eq_none h, Option.getD_none]

@[simp] theorem length_followRound : (followRound prods first follow).length = prods.length := by
  rw [followRound, List.length_map, List.length_range]

@[simp] theorem length_followSeed {start endId : Nat} :
    (followSeed prods start endId).length = prods.length := by
  rw [followSeed, List.length_map, List.length_range]

/-- Before the first round only the end of input follows, and only the start rule. -/
theorem mem_followAt_followSeed {start endId : Nat} (hn : n < prods.length) :
    t ∈ followAt (followSeed prods start endId) n ↔ n = start ∧ t = endId := by
  have hseed : followAt (followSeed prods start endId) n =
      if n = start then TokenSet.empty.insert endId else ∅ := by
    simp [followAt, followSeed, List.getD_eq_getElem?_getD, hn]
  rw [hseed]
  by_cases hs : n = start
  · have he : t ∈ TokenSet.insert endId TokenSet.empty ↔ t = endId ∨ t ∈ (∅ : TokenSet) :=
      TokenSet.mem_insert
    simp [hs, he]
  · simp [hs]

end Descent
