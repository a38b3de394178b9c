import Descent.Proofs.Lookahead.Derivation
import Descent.Proofs.Lookahead.FirstLaws
import Descent.Proofs.Lookahead.Rounds

/-!
# FIRST sets are exact

The rounds of FIRST sets grow from the empty sets and come to rest in time. What a
round says is so if what the round before says is so; hence the sets at rest say
nothing false. Being at rest, they also shrink along every derivation; hence they
leave out nothing.
-/

namespace Descent

open Productions

variable {prods : Productions} {first : List FirstSet} {t n : Nat} {form : List Symbol}

/-- What the sets say of the rules is so. -/
def FirstSound (prods : Productions) (first : List FirstSet) : Prop :=
  ∀ n, ((firstAt first n).epsilon = true → prods.Vanishes (.rule n)) ∧
    ∀ t ∈ (firstAt first n).tokens, prods.Begins t (.rule n)

/-- Where sound sets let a sequence be empty, all its symbols can vanish. -/
theorem FirstSound.vanishes (h : FirstSound prods first)
    (he : (firstOf first form).epsilon = true) : ∀ s ∈ form, prods.Vanishes s := by
  induction form with
  | nil => exact List.forall_mem_nil _
  | cons s rest ih =>
      cases s with
      | term a => simp at he
      | rule m =>
          rw [epsilon_firstOf_rule, Bool.and_eq_true] at he
          exact List.forall_mem_cons.mpr ⟨(h m).1 he.1, ih he.2⟩

/-- A terminal in the FIRST set of a sequence, computed from sound sets, can begin the sequence. -/
theorem FirstSound.begins (h : FirstSound prods first) (ht : t ∈ (firstOf first form).tokens) :
    prods.SequenceBegins t form := by
  induction form with
  | nil => exact absurd ht mem_firstOf_nil
  | cons s rest ih =>
      cases s with
      | term a =>
          obtain rfl := mem_firstOf_term.mp ht
          exact ⟨[], .term t, rest, rfl, List.forall_mem_nil _, .terminal⟩
      | rule m =>
          rcases mem_firstOf_rule.mp ht with ht | ⟨he, ht⟩
          · exact ⟨[], .rule m, rest, rfl, List.forall_mem_nil _, (h m).2 t ht⟩
          · exact (ih ht).cons ((h m).1 he)

/-- A round keeps the sets sound. -/
theorem FirstSound.round (h : FirstSound prods first) :
    FirstSound prods (firstRound prods first) := by
  intro m
  rw [firstAt_firstRound]
  constructor
  · intro he
    obtain ⟨alt, halt, he⟩ := epsilon_firstOfAlternatives.mp he
    exact .rule halt (h.vanishes he)
  · intro t ht
    obtain ⟨alt, halt, ht⟩ := mem_firstOfAlternatives.mp ht
    exact SequenceBegins.rule halt (h.begins ht)

private theorem firstAt_start (n : Nat) :
    firstAt (prods.map fun _ => FirstSet.empty) n = .empty := by
  simp only [firstAt, List.getD_eq_getElem?_getD, List.getElem?_map]
  cases prods[n]? <;> rfl

/-- The FIRST sets say nothing false. -/
theorem firstSound_firstSets (prods : Productions) : FirstSound prods (firstSets prods) := by
  refine settle_induction (fun _ h => h.round) _ fun m => ?_
  rw [firstAt_start]
  exact ⟨fun he => absurd he Bool.false_ne_true, fun t ht => absurd ht (TokenSet.not_mem_empty t)⟩

/-- The terminals of alternatives are terminals of the productions. -/
theorem mem_terminals {alt : List Symbol} (halt : alt ∈ prods.alternatives n)
    (ht : .term t ∈ alt) : t ∈ prods.terminals := by
  rw [terminals, TokenSet.mem_ofList, List.mem_filterMap]
  refine ⟨.term t, List.mem_flatten.mpr ⟨alt, ?_, ht⟩, rfl⟩
  have hn := lt_length_of_mem_alternatives halt
  rw [alternatives, List.getD_eq_getElem _ _ hn] at halt
  exact List.mem_flatten.mpr ⟨prods[n], List.getElem_mem hn, halt⟩

/-- The terminals of the productions occur in alternatives. -/
theorem Productions.exists_of_mem_terminals (ht : t ∈ prods.terminals) :
    ∃ alternatives ∈ prods, ∃ form ∈ alternatives, .term t ∈ form := by
  rw [terminals, TokenSet.mem_ofList, List.mem_filterMap] at ht
  obtain ⟨s, hs, ht⟩ := ht
  obtain ⟨form, hform, hs⟩ := List.mem_flatten.mp hs
  obtain ⟨alternatives, halternatives, hform⟩ := List.mem_flatten.mp hform
  cases s with
  | term a =>
      obtain rfl := Option.some.inj ht
      exact ⟨alternatives, halternatives, form, hform, hs⟩
  | rule m => cases ht

/-- A FIRST set of a sequence has terminals of the sequence and of the sets of rules only. -/
theorem mem_firstOf_origin (ht : t ∈ (firstOf first form).tokens) :
    .term t ∈ form ∨ ∃ m, t ∈ (firstAt first m).tokens := by
  induction form with
  | nil => exact absurd ht mem_firstOf_nil
  | cons s rest ih =>
      cases s with
      | term a =>
          obtain rfl := mem_firstOf_term.mp ht
          exact Or.inl List.mem_cons_self
      | rule m =>
          rcases mem_firstOf_rule.mp ht with ht | ⟨_, ht⟩
          · exact Or.inr ⟨m, ht⟩
          · exact (ih ht).imp_left (List.mem_cons_of_mem _)

/-- What each round of FIRST sets keeps: the number of rules, growth, and the terminals in use. -/
structure FirstRising (prods : Productions) (first : List FirstSet) : Prop where
  length : first.length = prods.length
  rising : ∀ n, firstAt first n ≤ firstAt (firstRound prods first) n
  bounded : ∀ n, (firstAt first n).tokens ⊆ prods.terminals

/-- Sets that grow pointwise make a round that does. -/
theorem firstRound_mono {first' : List FirstSet} (h : ∀ n, firstAt first n ≤ firstAt first' n)
    (n : Nat) : firstAt (firstRound prods first) n ≤ firstAt (firstRound prods first') n := by
  rw [firstAt_firstRound, firstAt_firstRound]
  constructor
  · intro x hx
    obtain ⟨alt, halt, hx⟩ := mem_firstOfAlternatives.mp hx
    exact mem_firstOfAlternatives.mpr ⟨alt, halt, (firstOf_mono h alt).1 x hx⟩
  · intro he
    obtain ⟨alt, halt, he⟩ := epsilon_firstOfAlternatives.mp he
    exact epsilon_firstOfAlternatives.mpr ⟨alt, halt, (firstOf_mono h alt).2 he⟩

/-- Each round is rebuilt from nothing, and still holds all of the round before. -/
theorem FirstRising.round (h : FirstRising prods first) :
    FirstRising prods (firstRound prods first) where
  length := List.length_map _
  rising := firstRound_mono h.rising
  bounded := by
    intro n x hx
    rw [firstAt_firstRound] at hx
    obtain ⟨alt, halt, hx⟩ := mem_firstOfAlternatives.mp hx
    rcases mem_firstOf_origin hx with hx | ⟨m, hx⟩
    · exact mem_terminals halt hx
    · exact h.bounded m x hx

/-- The empty sets are below the first round. -/
theorem firstRising_start (prods : Productions) :
    FirstRising prods (prods.map fun _ => .empty) where
  length := List.length_map _
  rising := by
    intro n
    rw [firstAt_start]
    exact FirstSet.empty_le _
  bounded := by
    intro n x hx
    rw [firstAt_start] at hx
    exact absurd hx (TokenSet.not_mem_empty x)

/-- The rounds that are made are enough for the loop to end. -/
theorem rounds_firstSets (prods : Productions) :
    ∃ k ≤ roundBound prods.length prods.terminals.size,
      Rounds (firstRound prods) (prods.map fun _ => .empty) k (firstSets prods) := by
  refine rounds_settle_table (P := FirstRising prods) FirstSet.empty
    (fun _ _ => FirstSet.weight_lt) (fun _ h => h.round) (fun _ h => h.length)
    (fun _ h => h.rising) ?_ (firstRising_start prods)
  intro l h n
  have hsize := TokenSet.size_le_of_subset (h.bounded n)
  have hbit : (firstAt l n).epsilon.toNat ≤ 1 := Bool.toNat_le _
  exact Nat.add_le_add hsize hbit

/-- The FIRST sets are at rest. -/
theorem firstRound_firstSets (prods : Productions) :
    firstRound prods (firstSets prods) = firstSets prods := by
  obtain ⟨k, -, hrounds⟩ := rounds_firstSets prods
  exact hrounds.step_eq

/-- The FIRST sets have what each round keeps. -/
theorem firstRising_firstSets (prods : Productions) : FirstRising prods (firstSets prods) :=
  settle_induction (fun _ h => h.round) _ (firstRising_start prods)

/-- The FIRST set of a rule holds those of its alternatives. -/
theorem firstOf_alternative_le {alt : List Symbol} (halt : alt ∈ prods.alternatives n) :
    firstOf (firstSets prods) alt ≤ firstAt (firstSets prods) n := by
  have hfixed : firstAt (firstSets prods) n =
      firstOfAlternatives (firstSets prods) (prods.alternatives n) := by
    rw [← firstAt_firstRound, firstRound_firstSets]
  rw [hfixed]
  exact ⟨fun x hx => mem_firstOfAlternatives.mpr ⟨alt, halt, hx⟩,
    fun he => epsilon_firstOfAlternatives.mpr ⟨alt, halt, he⟩⟩

/-- Replacing a rule by an alternative cannot add to the FIRST set of a form. -/
theorem firstOf_rewrites_le {a b : List Symbol} (h : prods.Rewrites a b) :
    firstOf (firstSets prods) b ≤ firstOf (firstSets prods) a := by
  obtain ⟨before, after, halt⟩ := h
  have hrule := FirstSet.le_trans (firstOf_alternative_le halt) (firstOf_singleton _ _).2
  simpa using firstOf_between_mono hrule before after

/-- Along a derivation the FIRST sets of forms shrink. -/
theorem firstOf_derives_le {a b : List Symbol} (h : prods.Derives a b) :
    firstOf (firstSets prods) b ≤ firstOf (firstSets prods) a := by
  induction h with
  | refl => exact FirstSet.le_refl _
  | tail _ hstep ih => exact FirstSet.le_trans (firstOf_rewrites_le hstep) ih

/-- The terminals of the FIRST set of a form are those that can begin it. -/
theorem mem_firstOf_iff : t ∈ (firstOf (firstSets prods) form).tokens ↔
    ∃ rest, prods.Derives form (.term t :: rest) := by
  constructor
  · intro ht
    exact ((firstSound_firstSets prods).begins ht).derives
  · rintro ⟨rest, hd⟩
    exact (firstOf_derives_le hd).1 t (mem_firstOf_term.mpr rfl)

/-- The empty text is in the FIRST set of a form exactly if the form derives it. -/
theorem epsilon_firstOf_iff : (firstOf (firstSets prods) form).epsilon = true ↔
    prods.Derives form [] := by
  constructor
  · intro he
    have hall := (firstSound_firstSets prods).vanishes he
    exact Derives.nil_of_forall fun s hs => (hall s hs).derives
  · intro hd
    exact (firstOf_derives_le hd).2 epsilon_firstOf_nil

/-- The FIRST sets are exact. There is one for each rule; its terminals are those with which a form
derived from the rule can begin, and it has the empty text if the rule derives that. The same holds
of every sequence of symbols. -/
theorem firstSets_exact (prods : Productions) :
    (firstSets prods).length = prods.length ∧
    (∀ n, (∀ t, t ∈ (firstAt (firstSets prods) n).tokens ↔
        ∃ rest, prods.Derives [.rule n] (.term t :: rest)) ∧
      ((firstAt (firstSets prods) n).epsilon = true ↔ prods.Derives [.rule n] [])) ∧
    ∀ form, (∀ t, t ∈ (firstOf (firstSets prods) form).tokens ↔
        ∃ rest, prods.Derives form (.term t :: rest)) ∧
      ((firstOf (firstSets prods) form).epsilon = true ↔ prods.Derives form []) := by
  refine ⟨(firstRising_firstSets prods).length, fun n => ⟨fun t => ?_, ?_⟩, fun form =>
    ⟨fun t => mem_firstOf_iff, epsilon_firstOf_iff⟩⟩
  · have hsame := firstOf_singleton (firstSets prods) n
    rw [← mem_firstOf_iff]
    exact ⟨fun ht => hsame.2.1 t ht, fun ht => hsame.1.1 t ht⟩
  · have hsame := firstOf_singleton (firstSets prods) n
    rw [← epsilon_firstOf_iff]
    exact ⟨hsame.2.2, hsame.1.2⟩

end Descent
