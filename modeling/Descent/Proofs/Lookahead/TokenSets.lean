import Descent.Lookahead.TokenSet
import Mathlib.Data.Finset.Card
import Mathlib.Data.List.Sort

/-!
# Laws of sets of terminals

A set of terminals is known by its members: the members of the derived operations
are given here, and two sets with the same members are equal because both list them
in increasing order.
-/

namespace Descent.TokenSet

/-- Sets with the same members are equal. -/
@[ext] theorem ext {s t : TokenSet} (h : ∀ x, x ∈ s ↔ x ∈ t) : s = t := by
  obtain ⟨l, hl⟩ := s
  obtain ⟨m, hm⟩ := t
  have hmem : ∀ x, x ∈ l ↔ x ∈ m := h
  have hperm : l.Perm m := (List.perm_ext_iff_of_nodup hl.sortedLT.nodup hm.sortedLT.nodup).mpr hmem
  have heq : l = m := hperm.eq_of_pairwise' (hl.imp Nat.le_of_lt) (hm.imp Nat.le_of_lt)
  subst heq
  rfl

/-- Every member of the first set is one of the second. -/
instance : HasSubset TokenSet := ⟨fun s t => ∀ x, x ∈ s → x ∈ t⟩

/-- A set of terminals is found empty if it has no members. -/
theorem isEmpty_iff {s : TokenSet} : s.isEmpty = true ↔ ∀ x, x ∉ s := by
  rw [isEmpty, List.isEmpty_iff, List.eq_nil_iff_forall_not_mem]
  rfl

@[simp] theorem mem_unionAll {x : Nat} {sets : List TokenSet} :
    x ∈ unionAll sets ↔ ∃ s ∈ sets, x ∈ s := by
  induction sets with
  | nil => simp [unionAll]
  | cons s rest ih =>
      have hu : unionAll (s :: rest) = s ∪ unionAll rest := rfl
      simp only [hu, mem_union, ih, List.exists_mem_cons_iff]

@[simp] theorem mem_ofList {x : Nat} {ids : List Nat} : x ∈ ofList ids ↔ x ∈ ids := by
  induction ids with
  | nil => simp [ofList]
  | cons t rest ih =>
      have hi : ofList (t :: rest) = (ofList rest).insert t := rfl
      simp only [hi, mem_insert, ih, List.mem_cons]

/-- The members as a finite set, for counting. -/
def toFinset (s : TokenSet) : Finset Nat := s.ids.toFinset

@[simp] theorem mem_toFinset {x : Nat} {s : TokenSet} : x ∈ s.toFinset ↔ x ∈ s :=
  List.mem_toFinset

private theorem card_toFinset (s : TokenSet) : s.toFinset.card = s.size :=
  List.toFinset_card_of_nodup s.increasing.sortedLT.nodup

/-- A set is at least as large as each of its subsets. -/
theorem size_le_of_subset {s t : TokenSet} (h : s ⊆ t) : s.size ≤ t.size := by
  rw [← card_toFinset, ← card_toFinset]
  exact Finset.card_le_card fun x hx => mem_toFinset.mpr (h x (mem_toFinset.mp hx))

/-- A set is larger than each of its proper subsets. -/
theorem size_lt_of_subset_of_ne {s t : TokenSet} (h : s ⊆ t) (hne : s ≠ t) : s.size < t.size := by
  obtain ⟨x, hxt, hxs⟩ : ∃ x, x ∈ t ∧ x ∉ s := by
    by_contra hall
    simp only [not_exists, not_and, not_not] at hall
    exact hne (ext fun x => ⟨h x, hall x⟩)
  rw [← card_toFinset, ← card_toFinset]
  apply Finset.card_lt_card
  rw [Finset.ssubset_iff_of_subset fun y hy => mem_toFinset.mpr (h y (mem_toFinset.mp hy))]
  exact ⟨x, mem_toFinset.mpr hxt, fun hx => hxs (mem_toFinset.mp hx)⟩

/-- Inserting a terminal adds one member at most. -/
theorem size_insert_le (t : Nat) (s : TokenSet) : (s.insert t).size ≤ s.size + 1 := by
  rw [← card_toFinset, ← card_toFinset]
  refine le_trans (Finset.card_le_card fun x hx => ?_) (Finset.card_insert_le t s.toFinset)
  simpa only [Finset.mem_insert, mem_toFinset, mem_insert] using hx

end Descent.TokenSet
