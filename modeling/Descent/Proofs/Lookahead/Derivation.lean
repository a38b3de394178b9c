import Descent.Lookahead.Production
import Mathlib.Logic.Relation

/-!
# Derivations of sentential forms

A derivation replaces one rule of a sentential form after the other by one of its
alternatives. Two facts about symbols are what lookahead is made of: a symbol can
vanish, which is to derive the empty form, and it can begin with a terminal. Both
are given by their own rules here, which follow the symbols of an alternative from
the left, and the rules are shown to produce derivations.
-/

namespace Descent.Productions

variable {prods : Productions}

/-- A rule of a sentential form is replaced by one of its alternatives. -/
inductive Rewrites (prods : Productions) : List Symbol → List Symbol → Prop where
  | expand (before after : List Symbol) {n : Nat} {alt : List Symbol}
      (h : alt ∈ prods.alternatives n) :
      Rewrites prods (before ++ .rule n :: after) (before ++ alt ++ after)

/-- Any number of replacements, one after the other. -/
def Derives (prods : Productions) : List Symbol → List Symbol → Prop :=
  Relation.ReflTransGen prods.Rewrites

/-- The symbol can vanish: it is a rule with an alternative whose symbols all can. -/
inductive Vanishes (prods : Productions) : Symbol → Prop where
  | rule {n : Nat} {alt : List Symbol} (h : alt ∈ prods.alternatives n)
      (hall : ∀ s ∈ alt, Vanishes prods s) : Vanishes prods (.rule n)

/-- The symbol can begin with the terminal: it is the terminal, or a rule with an alternative one of
whose symbols can, behind symbols that can vanish. -/
inductive Begins (prods : Productions) (t : Nat) : Symbol → Prop where
  | terminal : Begins prods t (.term t)
  | rule {n : Nat} {before after : List Symbol} {s : Symbol}
      (h : before ++ s :: after ∈ prods.alternatives n)
      (hbefore : ∀ x ∈ before, prods.Vanishes x) (hs : Begins prods t s) :
      Begins prods t (.rule n)

/-- A sequence can begin with a terminal: one of its symbols can, behind some that can vanish. -/
def SequenceBegins (prods : Productions) (t : Nat) (form : List Symbol) : Prop :=
  ∃ before s after, form = before ++ s :: after ∧ (∀ x ∈ before, prods.Vanishes x) ∧
    prods.Begins t s

/-- A sequence begins with what begins behind a symbol that vanishes. -/
theorem SequenceBegins.cons {t : Nat} {s : Symbol} {form : List Symbol}
    (hs : prods.Vanishes s) (h : prods.SequenceBegins t form) :
    prods.SequenceBegins t (s :: form) := by
  obtain ⟨before, x, after, rfl, hbefore, hx⟩ := h
  exact ⟨s :: before, x, after, rfl, List.forall_mem_cons.mpr ⟨hs, hbefore⟩, hx⟩

/-- An alternative that can begin with a terminal lets its rule begin with it. -/
theorem SequenceBegins.rule {t n : Nat} {alt : List Symbol} (h : alt ∈ prods.alternatives n)
    (hb : prods.SequenceBegins t alt) : prods.Begins t (.rule n) := by
  obtain ⟨before, s, after, rfl, hbefore, hs⟩ := hb
  exact .rule h hbefore hs

/-- Only rules that there are have alternatives. -/
theorem lt_length_of_mem_alternatives {n : Nat} {alt : List Symbol}
    (h : alt ∈ prods.alternatives n) : n < prods.length := by
  refine Nat.lt_of_not_le fun hn => ?_
  simp [alternatives, List.getD, List.getElem?_eq_none hn] at h

namespace Derives

/-- Every form derives itself. -/
theorem refl (form : List Symbol) : prods.Derives form form := Relation.ReflTransGen.refl

/-- Derivations are put together. -/
theorem trans {a b c : List Symbol} (h : prods.Derives a b) (h' : prods.Derives b c) :
    prods.Derives a c := Relation.ReflTransGen.trans h h'

/-- A derivation takes place between unchanged symbols as well. -/
theorem between {a b : List Symbol} (h : prods.Derives a b) (before after : List Symbol) :
    prods.Derives (before ++ a ++ after) (before ++ b ++ after) := by
  induction h with
  | refl => exact refl _
  | tail _ hstep ih =>
      obtain ⟨u, v, halt⟩ := hstep
      have hwider := Rewrites.expand (before ++ u) (v ++ after) halt
      simp only [List.append_assoc, List.cons_append] at ih hwider ⊢
      exact Relation.ReflTransGen.tail ih hwider

/-- Derivations of two forms make one of both in a row. -/
theorem append {a b c d : List Symbol} (h : prods.Derives a b) (h' : prods.Derives c d) :
    prods.Derives (a ++ c) (b ++ d) := by
  have hleft : prods.Derives (a ++ c) (b ++ c) := by
    simpa only [List.nil_append] using h.between [] c
  have hright : prods.Derives (b ++ c) (b ++ d) := by
    simpa only [List.append_nil] using h'.between b []
  exact hleft.trans hright

/-- What an alternative derives, its rule derives. -/
theorem rule {n : Nat} {alt form : List Symbol} (h : alt ∈ prods.alternatives n)
    (hd : prods.Derives alt form) : prods.Derives [.rule n] form := by
  have hstep := Rewrites.expand [] [] h
  simp only [List.nil_append, List.append_nil] at hstep
  exact Relation.ReflTransGen.head hstep hd

/-- A form whose symbols derive the empty form derives it too. -/
theorem nil_of_forall {form : List Symbol} (h : ∀ s ∈ form, prods.Derives [s] []) :
    prods.Derives form [] := by
  induction form with
  | nil => exact refl []
  | cons s rest ih =>
      have hs := h s List.mem_cons_self
      have hrest := ih fun x hx => h x (List.mem_cons_of_mem s hx)
      exact append hs hrest

end Derives

/-- A symbol that can vanish derives the empty form. -/
theorem Vanishes.derives {s : Symbol} (h : prods.Vanishes s) : prods.Derives [s] [] := by
  induction h with
  | rule halt _ ih => exact Derives.rule halt (Derives.nil_of_forall ih)

/-- A symbol that can begin with a terminal derives a form that does. -/
theorem Begins.derives {t : Nat} {s : Symbol} (h : prods.Begins t s) :
    ∃ rest, prods.Derives [s] (.term t :: rest) := by
  induction h with
  | terminal => exact ⟨[], Derives.refl _⟩
  | @rule n before after s halt hbefore _ ih =>
      obtain ⟨rest, hrest⟩ := ih
      have hvanish := Derives.nil_of_forall fun x hx => (hbefore x hx).derives
      have hform := hvanish.append (hrest.append (Derives.refl after))
      exact ⟨rest ++ after, Derives.rule halt hform⟩

/-- The same of a sequence. -/
theorem SequenceBegins.derives {t : Nat} {form : List Symbol} (h : prods.SequenceBegins t form) :
    ∃ rest, prods.Derives form (.term t :: rest) := by
  obtain ⟨before, s, after, rfl, hbefore, hs⟩ := h
  obtain ⟨rest, hrest⟩ := hs.derives
  have hvanish := Derives.nil_of_forall fun x hx => (hbefore x hx).derives
  exact ⟨rest ++ after, hvanish.append (hrest.append (Derives.refl after))⟩

end Descent.Productions
