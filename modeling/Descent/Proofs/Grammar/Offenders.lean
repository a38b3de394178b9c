import Descent.Proofs.Grammar.SymbolTables
import Mathlib.Data.List.Basic

/-!
# First offenders

A check of a list reports the first element with which something is wrong, and a check
of distinct names the first name that repeats an earlier one. Both are described by the
part of the list in front of what is reported, which has passed the check.
-/

namespace Descent

variable {α β : Type} {bad : α → Prop} {l : List α} {a b : α}

/-- The first element of a list that is bad. -/
def FirstOffender (bad : α → Prop) (l : List α) (a : α) : Prop :=
  ∃ before after, l = before ++ a :: after ∧ (∀ b ∈ before, ¬ bad b) ∧ bad a

/-- The first name of a list that repeats an earlier one. -/
def FirstRepeat (names : List String) (name : String) : Prop :=
  ∃ before after, names = before ++ name :: after ∧ before.Nodup ∧ name ∈ before

namespace FirstOffender

/-- The first bad element of a list is in the list. -/
theorem mem (h : FirstOffender bad l a) : a ∈ l := by
  obtain ⟨before, after, rfl, -, -⟩ := h
  exact List.mem_append_right before List.mem_cons_self

/-- In front of a bad element there is none. -/
theorem cons_of_bad (ha : bad a) : FirstOffender bad (a :: l) b ↔ b = a := by
  constructor
  · rintro ⟨_ | ⟨c, before⟩, after, hl, hbefore, -⟩
    · exact (List.cons.inj hl).1.symm
    · obtain ⟨rfl, -⟩ := List.cons.inj hl
      exact absurd ha (hbefore a List.mem_cons_self)
  · rintro rfl
    exact ⟨[], l, rfl, List.forall_mem_nil _, ha⟩

/-- A good element is passed over. -/
theorem cons_of_good (ha : ¬ bad a) :
    FirstOffender bad (a :: l) b ↔ FirstOffender bad l b := by
  constructor
  · rintro ⟨_ | ⟨c, before⟩, after, hl, hbefore, hb⟩
    · obtain ⟨rfl, -⟩ := List.cons.inj hl
      exact absurd hb ha
    · obtain ⟨rfl, rfl⟩ := List.cons.inj hl
      exact ⟨before, after, rfl, fun c hc => hbefore c (List.mem_cons_of_mem _ hc), hb⟩
  · rintro ⟨before, after, rfl, hbefore, hb⟩
    exact ⟨a :: before, after, rfl, List.forall_mem_cons.mpr ⟨ha, hbefore⟩, hb⟩

end FirstOffender

/-- What a search through a list comes to: nothing if no element is bad, and otherwise what the
first bad one gives. -/
structure Reports (found : Option β) (bad : α → Prop) (l : List α) (gives : α → β) : Prop where
  none_iff : found = none ↔ ∀ a ∈ l, ¬ bad a
  some_iff : ∀ r, found = some r ↔ ∃ a, FirstOffender bad l a ∧ r = gives a

/-- A search by a test reports the first element that passes it. -/
theorem reports_find? {p : α → Bool} (hp : ∀ a, p a = true ↔ bad a) (gives : α → β) :
    Reports ((l.find? p).map gives) bad l gives := by
  constructor
  · simp only [Option.map_eq_none_iff, List.find?_eq_none, hp]
  · intro r
    simp only [Option.map_eq_some_iff, List.find?_eq_some_iff_append, FirstOffender, ← hp,
      Bool.not_eq_true', Bool.not_eq_true]
    constructor
    · rintro ⟨a, ⟨ha, before, after, hl, hb⟩, rfl⟩
      exact ⟨a, ⟨before, after, hl, hb, ha⟩, rfl⟩
    · rintro ⟨a, ⟨before, after, hl, hb, ha⟩, rfl⟩
      exact ⟨a, ⟨ha, before, after, hl, hb⟩, rfl⟩

/-- A search for a result reports the first element that has one. -/
theorem reports_findSome? {f : α → Option β} (bad : α → Prop) (gives : α → β)
    (hbad : ∀ a, bad a → f a = some (gives a)) (hgood : ∀ a, ¬ bad a → f a = none) :
    Reports (l.findSome? f) bad l gives := by
  have hnone : ∀ a, f a = none ↔ ¬ bad a := fun a =>
    ⟨fun h hb => (nomatch (hbad a hb).symm.trans h), hgood a⟩
  constructor
  · simp only [List.findSome?_eq_none_iff, hnone]
  · intro r
    rw [List.findSome?_eq_some_iff]
    constructor
    · rintro ⟨before, a, after, hl, ha, hbefore⟩
      have hb : bad a := by
        by_contra hn
        exact nomatch ha.symm.trans (hgood a hn)
      exact ⟨a, ⟨before, after, hl, fun b hb => (hnone b).mp (hbefore b hb), hb⟩,
        Option.some.inj (ha.symm.trans (hbad a hb))⟩
    · rintro ⟨a, ⟨before, after, hl, hbefore, ha⟩, rfl⟩
      exact ⟨before, a, after, hl, hbad a ha, fun b hb => hgood b (hbefore b hb)⟩

namespace SymbolTable

variable {t : SymbolTable} {name : String} {names : List String}

/-- Adding names that must all be new fails with the first that is not. -/
theorem insertAll_eq_error_iff : t.insertAll names = .error name ↔
    ∃ before after, names = before ++ name :: after ∧ (t.names ++ before).Nodup ∧
      name ∈ t.names ++ before := by
  induction names generalizing t with
  | nil =>
      refine ⟨fun h => (nomatch h), fun ⟨before, after, h, _⟩ => ?_⟩
      exact absurd h (List.ne_nil_of_mem (List.mem_append_right _ List.mem_cons_self)).symm
  | cons a rest ih =>
      rw [insertAll]
      by_cases ha : a ∈ t.names
      · rw [insert_of_mem ha]
        constructor
        · intro h
          obtain rfl := Except.error.inj h
          exact ⟨[], rest, rfl, by simpa using nodup_names t, by rwa [List.append_nil]⟩
        · rintro ⟨_ | ⟨b, before⟩, after, hl, hnodup, -⟩
          · rw [(List.cons.inj hl).1]
          · obtain ⟨rfl, -⟩ := List.cons.inj hl
            exact absurd rfl ((List.nodup_append.mp hnodup).2.2 a ha a List.mem_cons_self)
      · rw [insert_of_not_mem ha, ih, names_push]
        constructor
        · rintro ⟨before, after, rfl, hnodup, hname⟩
          exact ⟨a :: before, after, rfl, by simpa using hnodup, by simpa using hname⟩
        · rintro ⟨_ | ⟨b, before⟩, after, hl, hnodup, hname⟩
          · obtain ⟨rfl, -⟩ := List.cons.inj hl
            rw [List.append_nil] at hname
            exact absurd hname ha
          · obtain ⟨rfl, rfl⟩ := List.cons.inj hl
            exact ⟨before, after, rfl, by simpa using hnodup, by simpa using hname⟩

/-- The check of distinct names fails with the first repeated occurrence. -/
theorem unique_eq_error_iff : unique names = .error name ↔ FirstRepeat names name := by
  rw [unique, insertAll_eq_error_iff]
  rfl

end SymbolTable

/-- A list in which a name repeats an earlier one is not one of distinct names. -/
theorem FirstRepeat.not_nodup {names : List String} {name : String} (h : FirstRepeat names name) :
    ¬ names.Nodup := by
  obtain ⟨before, after, rfl, -, hname⟩ := h
  intro hnodup
  exact (List.nodup_append.mp hnodup).2.2 name hname name List.mem_cons_self rfl

end Descent
