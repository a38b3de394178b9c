import Descent.Grammar.Validation
import Descent.Proofs.Grammar.SymbolTables

/-!
# What the checks of a grammar establish

A grammar that passes all checks has distinct names, a start rule, atoms that name a
token which a lexer hands on or a rule, and no token with the name of the end of
input.
-/

namespace Descent

/-- What holds of every grammar that is made of its parts. -/
structure Grammar.Valid (g : Grammar) : Prop where
  tokenNames : (g.tokenRules.map (·.name)).Nodup
  ruleNames : (g.parserRules.map (·.name)).Nodup
  start : g.start < g.parserRules.length
  /-- An atom that waits for a token waits for one that is not skipped. -/
  terminal : ∀ r ∈ g.parserRules, ∀ a ∈ r.atoms, a.isTerminal = true →
    a.name ∈ g.lexemes.map (·.name)
  /-- An atom that calls a rule calls one that there is. -/
  nonterminal : ∀ r ∈ g.parserRules, ∀ a ∈ r.atoms, a.isTerminal = false →
    a.name ∈ g.parserRules.map (·.name)
  /-- The end of input has a name of its own. -/
  endReserved : endName ∉ g.tokenRules.map (·.name)

/-- A chain of checks succeeds where each one does. -/
theorem bind_eq_ok {ε α β : Type} {x : Except ε α} {f : α → Except ε β} {b : β} :
    (x >>= f) = .ok b ↔ ∃ a, x = .ok a ∧ f a = .ok b := by
  cases x with
  | error e => exact ⟨fun h => (nomatch h), fun ⟨_, h, _⟩ => (nomatch h)⟩
  | ok a => exact ⟨fun h => ⟨a, rfl, h⟩, fun ⟨_, h, hf⟩ => Except.ok.inj h ▸ hf⟩

private theorem noFault_eq_ok {o : Option GrammarError} {u : Unit} :
    noFault o = .ok u ↔ o = none := by
  cases o with
  | none => exact ⟨fun _ => rfl, fun _ => rfl⟩
  | some e => exact ⟨fun h => (nomatch h), fun h => (nomatch h)⟩

/-- The check for repeated names passes for distinct names only, and its table has these names. -/
theorem distinct_eq_ok {names : List String} {fault : String → GrammarError} {t : SymbolTable}
    (h : distinct names fault = .ok t) : names.Nodup ∧ t.names = names := by
  rw [distinct] at h
  split at h
  · next u hu =>
      obtain rfl := Except.ok.inj h
      exact SymbolTable.nodup_of_unique hu
  · cases h

/-- Where no atom of a rule is unknown, each names a token or a rule. -/
theorem ParserRule.known_of_unknownAtom {r : ParserRule} {terminals nonterminals : SymbolTable}
    (h : r.unknownAtom? terminals nonterminals = none) {a : Atom} (ha : a ∈ r.atoms) :
    (a.isTerminal = true → a.name ∈ terminals.names) ∧
      (a.isTerminal = false → a.name ∈ nonterminals.names) := by
  have hatom := List.findSome?_eq_none_iff.mp h a ha
  constructor
  · intro hkind
    by_contra hn
    rw [← SymbolTable.contains_iff] at hn
    simp [hkind, hn] at hatom
  · intro hkind
    by_contra hn
    rw [← SymbolTable.contains_iff] at hn
    simp [hkind, hn] at hatom

/-- Where no atom of a rule is skipped, none waits for a skipped token. -/
theorem ParserRule.not_skipped_of_skippedAtom {r : ParserRule} {skipNames : List String}
    (h : r.skippedAtom? skipNames = none) {a : Atom} (ha : a ∈ r.atoms)
    (hkind : a.isTerminal = true) : skipNames.contains a.name = false := by
  rw [skippedAtom?, Option.map_eq_none_iff, List.find?_eq_none] at h
  simpa [hkind] using h a ha

/-- Every grammar that is made of its parts is valid. -/
theorem Grammar.valid_of_validate {header start : String} {tokenRules : List TokenRule}
    {skipNames : List String} {parserRules : List ParserRule} {g : Grammar}
    (h : Grammar.validate header tokenRules skipNames start parserRules = .ok g) : g.Valid := by
  simp only [validate, bind_eq_ok, noFault_eq_ok] at h
  obtain ⟨terminals, hterminals, _, _, _, _, h⟩ := h
  split at h
  · next startIndex hstart =>
      simp only [bind_eq_ok, noFault_eq_ok] at h
      obtain ⟨_, hindex, _, hknown, _, hrules, _, hend, _, hskipped, _, _, h⟩ := h
      obtain rfl := Except.ok.inj hindex
      obtain rfl := Except.ok.inj h
      obtain ⟨htokenNames, hterms⟩ := distinct_eq_ok hterminals
      obtain ⟨hruleNames, _⟩ := distinct_eq_ok hrules
      have hatom : ∀ r ∈ parserRules, ∀ a ∈ r.atoms,
          (a.isTerminal = true → a.name ∈ tokenRules.map (·.name)) ∧
            (a.isTerminal = false → a.name ∈ parserRules.map (·.name)) := by
        intro r hr a ha
        have hk := ParserRule.known_of_unknownAtom (List.findSome?_eq_none_iff.mp hknown r hr) ha
        rwa [hterms, SymbolTable.names_ofList hruleNames] at hk
      refine ⟨htokenNames, hruleNames, ?_, ?_, fun r hr a ha => (hatom r hr a ha).2, ?_⟩
      · obtain ⟨hlt, _⟩ := List.idxOf?_eq_some_iff.mp hstart
        simpa only [List.length_map] using hlt
      · intro r hr a ha hkind
        obtain ⟨t, ht, hname⟩ := List.mem_map.mp ((hatom r hr a ha).1 hkind)
        have hskip := ParserRule.not_skipped_of_skippedAtom
          (List.findSome?_eq_none_iff.mp hskipped r hr) ha hkind
        refine List.mem_map.mpr ⟨t, List.mem_filter.mpr ⟨ht, ?_⟩, hname⟩
        simpa [isSkip, hname] using hskip
      · intro hmem
        obtain ⟨t, ht, hname⟩ := List.mem_map.mp hmem
        rw [Option.map_eq_none_iff, List.find?_eq_none] at hend
        exact hend t ht (beq_iff_eq.mpr hname)
  · simp only [bind_eq_ok] at h
    obtain ⟨_, herror, _⟩ := h
    cases herror

end Descent
