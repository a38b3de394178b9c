import Descent.Tokens.Tokenizer

/-!
# Lexicons and their patterns

Patterns make a lexicon where each of them is accepted in its wrapper. The lexicon holds
what these patterns are compiled to, and nothing else.
-/

namespace Descent

open Descent.Pattern

variable {κ : Type}

/-- A list is handled element by element where no element fails. -/
theorem mapM_isSome_iff {α β : Type} {f : α → Option β} {l : List α} :
    (l.mapM f).isSome = true ↔ ∀ a ∈ l, (f a).isSome = true := by
  induction l with
  | nil => simp
  | cons a rest ih =>
    rw [List.mapM_cons, List.forall_mem_cons, ← ih]
    cases f a <;> cases rest.mapM f <;> simp

/-- The results of a search through a list that succeeds are those of elements of the list. -/
theorem exists_of_mem_mapM {α β : Type} {f : α → Option β} {l : List α} {bs : List β}
    (h : l.mapM f = some bs) {b : β} (hb : b ∈ bs) : ∃ a ∈ l, f a = some b := by
  induction l generalizing bs with
  | nil =>
    obtain rfl := Option.some.inj h
    cases hb
  | cons a rest ih =>
    rw [List.mapM_cons] at h
    obtain ⟨x, hx, h⟩ := Option.bind_eq_some_iff.mp h
    obtain ⟨xs, hxs, h⟩ := Option.bind_eq_some_iff.mp h
    obtain rfl := Option.some.inj h
    rcases List.mem_cons.mp hb with rfl | hb
    · exact ⟨a, List.mem_cons_self, hx⟩
    · obtain ⟨a', ha', hfa'⟩ := ih hxs hb
      exact ⟨a', List.mem_cons_of_mem _ ha', hfa'⟩

namespace Lexicon

variable {lexicon : Lexicon κ} {skips : List String} {rules : List (κ × String × String)}
  {endKind : κ}

/-- Patterns make a lexicon if and only if each of them is accepted in its wrapper. -/
theorem ofPatterns?_isSome_iff : (ofPatterns? skips rules endKind).isSome = true ↔
    (∀ pattern ∈ skips, (compileAnchored? pattern).isSome = true) ∧
      ∀ r ∈ rules, (compileAnchored? r.2.2).isSome = true := by
  have hrules : (∀ r ∈ rules, (compileAnchored? r.2.2).isSome = true) ↔
      (rules.mapM fun r => (compileAnchored? r.2.2).map fun p =>
        LexemeRule.mk r.1 r.2.1 p).isSome = true := by
    simp only [mapM_isSome_iff, Option.isSome_map]
  rw [hrules, ← mapM_isSome_iff, ofPatterns?]
  cases skips.mapM compileAnchored? with
  | none => simp
  | some compiled =>
    cases rules.mapM fun r => (compileAnchored? r.2.2).map fun p => LexemeRule.mk r.1 r.2.1 p <;>
      simp

/-- The skip patterns of a lexicon are compiled from those that it was made of. -/
theorem exists_of_mem_skips (h : ofPatterns? skips rules endKind = some lexicon) {p : Compiled}
    (hp : p ∈ lexicon.skips) : ∃ pattern ∈ skips, compileAnchored? pattern = some p := by
  obtain ⟨compiled, hcompiled, h⟩ := Option.bind_eq_some_iff.mp h
  obtain ⟨found, -, h⟩ := Option.bind_eq_some_iff.mp h
  obtain rfl := Option.some.inj h
  exact exists_of_mem_mapM hcompiled hp

/-- The rules of a lexicon are compiled from those that it was made of. -/
theorem exists_of_mem_rules (h : ofPatterns? skips rules endKind = some lexicon)
    {r : LexemeRule κ} (hr : r ∈ lexicon.rules) :
    ∃ pattern, (r.kind, r.name, pattern) ∈ rules ∧ compileAnchored? pattern = some r.pattern := by
  obtain ⟨compiled, -, h⟩ := Option.bind_eq_some_iff.mp h
  obtain ⟨found, hfound, h⟩ := Option.bind_eq_some_iff.mp h
  obtain rfl := Option.some.inj h
  obtain ⟨⟨kind, name, pattern⟩, hmem, hrule⟩ := exists_of_mem_mapM hfound hr
  obtain ⟨p, hp, rfl⟩ := Option.map_eq_some_iff.mp hrule
  exact ⟨pattern, hmem, hp⟩

/-- The kind of the end of a lexicon is the one that it was made with. -/
theorem endKind_of_ofPatterns? (h : ofPatterns? skips rules endKind = some lexicon) :
    lexicon.endKind = endKind := by
  obtain ⟨compiled, -, h⟩ := Option.bind_eq_some_iff.mp h
  obtain ⟨found, -, h⟩ := Option.bind_eq_some_iff.mp h
  obtain rfl := Option.some.inj h
  rfl

/-- No rule of a lexicon makes tokens of a kind that none of those it was made of has. -/
theorem kind_ne_of_ofPatterns? {kind : κ} (h : ofPatterns? skips rules endKind = some lexicon)
    (hrules : ∀ k ∈ rules.map (·.1), k ≠ kind) {r : LexemeRule κ} (hr : r ∈ lexicon.rules) :
    r.kind ≠ kind := by
  obtain ⟨pattern, hmem, -⟩ := exists_of_mem_rules h hr
  exact hrules r.kind (List.mem_map_of_mem hmem)

end Lexicon
end Descent
