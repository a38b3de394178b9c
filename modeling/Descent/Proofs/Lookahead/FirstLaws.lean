import Descent.Lookahead.First
import Descent.Proofs.Lookahead.TokenSets

/-!
# Laws of FIRST sets

The members of the FIRST set of a sequence, symbol by symbol and across a
concatenation, the order of FIRST sets by inclusion, and the fact that the FIRST set
of a sequence grows with those of the rules.
-/

namespace Descent

namespace FirstSet

/-- Every terminal of the first set is one of the second, and so is the empty text. -/
instance : LE FirstSet := ⟨fun s t => s.tokens ⊆ t.tokens ∧ (s.epsilon = true → t.epsilon = true)⟩

/-- Each FIRST set is below itself. -/
theorem le_refl (s : FirstSet) : s ≤ s := ⟨fun _ h => h, fun h => h⟩

/-- The order of FIRST sets is transitive. -/
theorem le_trans {s t u : FirstSet} (h : s ≤ t) (h' : t ≤ u) : s ≤ u :=
  ⟨fun x hx => h'.1 x (h.1 x hx), fun he => h'.2 (h.2 he)⟩

/-- The empty FIRST set is below all others. -/
theorem empty_le (s : FirstSet) : FirstSet.empty ≤ s :=
  ⟨fun x hx => absurd hx (TokenSet.not_mem_empty x), fun h => absurd h Bool.false_ne_true⟩

/-- The number of members, the empty text being one. -/
def weight (s : FirstSet) : Nat := s.tokens.size + s.epsilon.toNat

/-- A FIRST set is larger than each one that is properly contained in it. -/
theorem weight_lt {s t : FirstSet} (h : s ≤ t) (hne : s ≠ t) : s.weight < t.weight := by
  obtain ⟨a, e⟩ := s
  obtain ⟨b, f⟩ := t
  have hsub : a ⊆ b := h.1
  have hef : e = true → f = true := h.2
  simp only [weight]
  by_cases hab : a = b
  · subst hab
    have hdiff : e ≠ f := fun he => hne (by rw [he])
    cases e <;> cases f <;> simp_all
  · have hlt := TokenSet.size_lt_of_subset_of_ne hsub hab
    have hle : e.toNat ≤ f.toNat := by cases e <;> cases f <;> simp_all
    omega

end FirstSet

section

variable {first first' : List FirstSet} {t : Nat}

@[simp] theorem mem_firstOf_nil : t ∉ (firstOf first []).tokens := TokenSet.not_mem_empty t

@[simp] theorem epsilon_firstOf_nil : (firstOf first []).epsilon = true := rfl

@[simp] theorem mem_firstOf_term {a : Nat} {rest : List Symbol} :
    t ∈ (firstOf first (.term a :: rest)).tokens ↔ t = a := by
  have hi : (firstOf first (.term a :: rest)).tokens = TokenSet.insert a ∅ := rfl
  simp [hi]

@[simp] theorem epsilon_firstOf_term {a : Nat} {rest : List Symbol} :
    (firstOf first (.term a :: rest)).epsilon = false := rfl

@[simp] theorem mem_firstOf_rule {n : Nat} {rest : List Symbol} :
    t ∈ (firstOf first (.rule n :: rest)).tokens ↔
      t ∈ (firstAt first n).tokens ∨
        (firstAt first n).epsilon = true ∧ t ∈ (firstOf first rest).tokens := by
  rw [firstOf]
  cases he : (firstAt first n).epsilon <;> simp

@[simp] theorem epsilon_firstOf_rule {n : Nat} {rest : List Symbol} :
    (firstOf first (.rule n :: rest)).epsilon =
      ((firstAt first n).epsilon && (firstOf first rest).epsilon) := by
  rw [firstOf]
  cases he : (firstAt first n).epsilon <;> simp

/-- A concatenation begins with what its first part begins with, and where that can be empty with
what its second part begins with. -/
theorem mem_firstOf_append {a b : List Symbol} :
    t ∈ (firstOf first (a ++ b)).tokens ↔
      t ∈ (firstOf first a).tokens ∨
        (firstOf first a).epsilon = true ∧ t ∈ (firstOf first b).tokens := by
  induction a with
  | nil => simp
  | cons s rest ih =>
      cases s with
      | term c => simp
      | rule n =>
          simp only [List.cons_append, mem_firstOf_rule, ih, epsilon_firstOf_rule,
            Bool.and_eq_true]
          tauto

/-- A concatenation can be empty if both its parts can. -/
theorem epsilon_firstOf_append {a b : List Symbol} :
    (firstOf first (a ++ b)).epsilon = ((firstOf first a).epsilon && (firstOf first b).epsilon) := by
  induction a with
  | nil => simp
  | cons s rest ih =>
      cases s with
      | term c => simp
      | rule n => simp only [List.cons_append, epsilon_firstOf_rule, ih, Bool.and_assoc]

/-- The FIRST set of a sequence grows with those of the rules. A rule that becomes nullable only
lets more of the sequence count. -/
theorem firstOf_mono (h : ∀ n, firstAt first n ≤ firstAt first' n) (form : List Symbol) :
    firstOf first form ≤ firstOf first' form := by
  induction form with
  | nil => exact FirstSet.le_refl _
  | cons s rest ih =>
      cases s with
      | term a => exact FirstSet.le_refl _
      | rule n =>
          constructor
          · intro x hx
            rw [mem_firstOf_rule] at hx ⊢
            rcases hx with hx | ⟨he, hx⟩
            · exact Or.inl ((h n).1 x hx)
            · exact Or.inr ⟨(h n).2 he, ih.1 x hx⟩
          · rw [epsilon_firstOf_rule, epsilon_firstOf_rule, Bool.and_eq_true, Bool.and_eq_true]
            exact fun ⟨he, hr⟩ => ⟨(h n).2 he, ih.2 hr⟩

/-- The FIRST set of a sequence shrinks when a rule in it gives way to one of its parts. -/
theorem firstOf_between_mono {a b : List Symbol} (h : firstOf first a ≤ firstOf first b)
    (before after : List Symbol) :
    firstOf first (before ++ a ++ after) ≤ firstOf first (before ++ b ++ after) := by
  constructor
  · intro x hx
    simp only [mem_firstOf_append, epsilon_firstOf_append, Bool.and_eq_true] at hx ⊢
    have ht := h.1 x
    have he := h.2
    tauto
  · simp only [epsilon_firstOf_append, Bool.and_eq_true]
    exact fun ⟨⟨hb, ha⟩, hr⟩ => ⟨⟨hb, h.2 ha⟩, hr⟩

/-- The FIRST set of a rule is the one of the sequence that it alone makes. -/
theorem firstOf_singleton (first : List FirstSet) (n : Nat) :
    firstOf first [.rule n] ≤ firstAt first n ∧ firstAt first n ≤ firstOf first [.rule n] := by
  refine ⟨⟨fun x hx => ?_, fun he => ?_⟩, ⟨fun x hx => ?_, fun he => ?_⟩⟩
  · simpa using hx
  · simpa using he
  · simpa using hx
  · simpa using he

/-- A terminal is in the FIRST set of alternatives if it is in that of one of them. -/
theorem mem_firstOfAlternatives {alternatives : List (List Symbol)} :
    t ∈ (firstOfAlternatives first alternatives).tokens ↔
      ∃ alt ∈ alternatives, t ∈ (firstOf first alt).tokens := by
  induction alternatives with
  | nil => simp [firstOfAlternatives, FirstSet.empty]
  | cons alt rest ih =>
      have hu : (firstOfAlternatives first (alt :: rest)).tokens =
          (firstOf first alt).tokens ∪ (firstOfAlternatives first rest).tokens := rfl
      simp only [hu, TokenSet.mem_union, ih, List.exists_mem_cons_iff]

/-- Alternatives can be empty if one of them can. -/
theorem epsilon_firstOfAlternatives {alternatives : List (List Symbol)} :
    (firstOfAlternatives first alternatives).epsilon = true ↔
      ∃ alt ∈ alternatives, (firstOf first alt).epsilon = true := by
  induction alternatives with
  | nil => simp [firstOfAlternatives, FirstSet.empty]
  | cons alt rest ih =>
      have hu : (firstOfAlternatives first (alt :: rest)).epsilon =
          ((firstOf first alt).epsilon || (firstOfAlternatives first rest).epsilon) := rfl
      simp only [hu, Bool.or_eq_true, ih, List.exists_mem_cons_iff]

/-- A round gives each rule the FIRST set of its alternatives. -/
theorem firstAt_firstRound (prods : Productions) (n : Nat) :
    firstAt (firstRound prods first) n = firstOfAlternatives first (prods.alternatives n) := by
  simp only [firstAt, firstRound, Productions.alternatives, List.getD_eq_getElem?_getD,
    List.getElem?_map]
  cases prods[n]? <;> rfl

end

end Descent
