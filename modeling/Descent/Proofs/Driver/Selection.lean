import Descent.Proofs.Driver.Basic
import Descent.Proofs.Lookahead.Markers

/-!
# The selection of an arm

The names in the label of an arm are the names of the marker set of its alternative. A
token thus selects the arm of an alternative exactly if its number is a marker, and
without conflicts no token selects two arms.
-/

namespace Descent.Grammar

open Productions

variable {g : Grammar} {a : Analysis} {r : ParserRule} {alt : Alternative} {i n t : Nat}
  {name kind : String}

/-- The terminals that select an alternative of a rule, by numbers. -/
def markersOf (g : Grammar) (n : Nat) (alt : Alternative) : TokenSet :=
  g.lowered.markers g.start (g.terminalId endName) n (alt.atoms.map g.symbolOf)

/-- The terminals that can follow a rule, by numbers. -/
def following (g : Grammar) (n : Nat) : TokenSet :=
  g.lowered.following g.start (g.terminalId endName) n

/-- A valid grammar without conflicts, with what its analysis computes. -/
structure Analysed (g : Grammar) (a : Analysis) : Prop where
  valid : g.Valid
  conflictFree : g.lowered.ConflictFree g.start (g.terminalId endName)
  terminals : a.terminals.names = g.terminalNames
  markers : a.markers = markerSets g.lowered (firstSets g.lowered)
    (followSets g.lowered (firstSets g.lowered) g.start (g.terminalId endName))

/-- The analysis accepts a valid grammar only without conflicts. -/
theorem Valid.analysed (hg : g.Valid) (ha : Analysis.ofGrammar g = .ok a) : g.Analysed a := by
  rw [Analysis.ofGrammar, hg.productions_eq, hg.size_terminals_sub_one] at ha
  obtain ⟨prods, hprods, ha⟩ := bind_eq_ok.mp ha
  obtain rfl := Except.ok.inj hprods
  dsimp only at ha
  split at ha
  · cases ha
  · next hfree =>
      obtain rfl := Except.ok.inj ha
      exact ⟨hg, hfree, hg.names_terminals, rfl⟩

namespace Analysed

variable (h : g.Analysed a)
include h

/-- The analysis gives an alternative its markers. -/
theorem markersOf_eq (hr : g.parserRules[n]? = some r) (halt : r.alternatives[i]? = some alt) :
    a.markersOf n i = g.markersOf n alt := by
  rw [Analysis.markersOf, h.markers, getD_markerSets, alternatives_lowered hr,
    List.getD_eq_getElem?_getD, List.getElem?_map, List.getElem?_map, halt]
  rfl

/-- The numbers in the productions are those of tokens that a lexer hands on. -/
theorem lt_length_of_mem_terminals (ht : t ∈ g.lowered.terminals) :
    t < g.terminalNames.length := by
  obtain ⟨alts, halts, form, hform, hs⟩ := exists_of_mem_terminals ht
  obtain ⟨r, hr, rfl⟩ := List.mem_map.mp halts
  obtain ⟨alt, halt, rfl⟩ := List.mem_map.mp hform
  obtain ⟨x, hx, hsymbol⟩ := List.mem_map.mp hs
  cases hkind : x.isTerminal with
  | true =>
      rw [symbolOf_of_terminal hkind] at hsymbol
      obtain rfl := Symbol.term.inj hsymbol
      have hname := h.valid.mem_lexemes hr halt hx hkind
      exact List.idxOf_lt_length_iff.mpr (mem_terminalNames.mpr (Or.inl hname))
  | false =>
      rw [symbolOf_of_nonterminal hkind] at hsymbol
      cases hsymbol

/-- The markers of an alternative are numbers of terminals. -/
theorem lt_length_of_mem_markersOf (hr : g.parserRules[n]? = some r) (halt : alt ∈ r.alternatives)
    (ht : t ∈ g.markersOf n alt) : t < g.terminalNames.length := by
  rcases mem_terminals_of_mem_markers (mem_alternatives_lowered hr halt) ht with ht | rfl
  · exact h.lt_length_of_mem_terminals ht
  · exact List.idxOf_lt_length_iff.mpr (mem_terminalNames.mpr (Or.inr rfl))

/-- The analysis names the terminals in the order of their numbers. -/
theorem getElem?_tokenName (ht : t < g.terminalNames.length) :
    g.terminalNames[t]? = some (a.tokenName t) := by
  rw [Analysis.tokenName, SymbolTable.name?, h.terminals, List.getElem?_eq_getElem ht]
  rfl

/-- A name belongs to a set of numbers of terminals if its number does. -/
theorem mem_tokenNames {s : TokenSet} (hs : ∀ t ∈ s, t < g.terminalNames.length) :
    kind ∈ a.tokenNames s ↔ g.terminalId kind ∈ s := by
  rw [Analysis.tokenNames, List.mem_map]
  constructor
  · rintro ⟨t, ht, rfl⟩
    rw [h.valid.terminalId_of_getElem? (h.getElem?_tokenName (hs t ht))]
    exact ht
  · intro ht
    have hmem := List.idxOf_lt_length_iff.mp (hs _ ht)
    refine ⟨g.terminalId kind, ht, ?_⟩
    rw [Analysis.tokenName, SymbolTable.name?, h.terminals, getElem?_terminalId hmem]
    rfl

/-- A token is in the label of an arm if its number is a marker of the alternative. -/
theorem mem_tokenNames_markersOf (hr : g.parserRules[n]? = some r)
    (halt : r.alternatives[i]? = some alt) :
    kind ∈ a.tokenNames (a.markersOf n i) ↔ g.terminalId kind ∈ g.markersOf n alt := by
  rw [h.markersOf_eq hr halt, h.mem_tokenNames fun t ht =>
    h.lt_length_of_mem_markersOf hr (List.mem_of_getElem? halt) ht]

/-- A token is expected where a rule begins if it selects an alternative of the rule. -/
theorem mem_expected (hr : g.parserRules[n]? = some r) :
    t ∈ a.expected n ↔ ∃ alt ∈ r.alternatives, t ∈ g.markersOf n alt := by
  rw [Analysis.expected, TokenSet.mem_unionAll, h.markers, getD_markerSets,
    alternatives_lowered hr, List.map_map]
  simp only [List.mem_map, exists_exists_and_eq_and]
  rfl

/-- The tokens that a rule expects are numbers of terminals. -/
theorem lt_length_of_mem_expected (hr : g.parserRules[n]? = some r) (ht : t ∈ a.expected n) :
    t < g.terminalNames.length := by
  obtain ⟨alt, halt, hmarker⟩ := (h.mem_expected hr).mp ht
  exact h.lt_length_of_mem_markersOf hr halt hmarker

/-- A token selects the arms of no two alternatives of a rule. -/
theorem position_unique {i' : Nat} {alt' : Alternative} (hr : g.parserRules[n]? = some r)
    (halt : r.alternatives[i]? = some alt) (halt' : r.alternatives[i']? = some alt')
    (ht : t ∈ g.markersOf n alt) (ht' : t ∈ g.markersOf n alt') : i = i' := by
  have hform : ∀ {j : Nat} {x : Alternative}, r.alternatives[j]? = some x →
      (g.lowered.alternatives n)[j]? = some (x.atoms.map g.symbolOf) := by
    intro j x hx
    rw [alternatives_lowered hr, List.getElem?_map, hx]
    rfl
  exact markerSet_unique h.conflictFree (hform halt) (hform halt') ht ht'

/-- The arm that a token selects is the one of the alternative that has the token as a marker. -/
theorem arm?_eq_some_iff (hr : r ∈ g.parserRules) : g.arm? a r.name kind = some (alt, i) ↔
    r.alternatives[i]? = some alt ∧ g.terminalId kind ∈ g.markersOf (g.ruleId r.name) alt := by
  have hat := h.valid.getElem?_ruleId hr
  rw [arm?, hat, Option.bind_some]
  constructor
  · intro hfind
    have halt := List.mk_mem_zipIdx_iff_getElem?.mp (List.mem_of_find?_eq_some hfind)
    have hlabel := List.find?_some hfind
    simp only [List.contains_iff_mem] at hlabel
    exact ⟨halt, (h.mem_tokenNames_markersOf hat halt).mp hlabel⟩
  · rintro ⟨halt, ht⟩
    have hlabel := (h.mem_tokenNames_markersOf hat halt).mpr ht
    have harm : ∃ arm ∈ r.alternatives.zipIdx,
        (a.tokenNames (a.markersOf (g.ruleId r.name) arm.2)).contains kind = true :=
      ⟨(alt, i), List.mk_mem_zipIdx_iff_getElem?.mpr halt, List.contains_iff_mem.mpr hlabel⟩
    obtain ⟨⟨alt', i'⟩, hfind⟩ := Option.isSome_iff_exists.mp (List.find?_isSome.mpr harm)
    have halt' := List.mk_mem_zipIdx_iff_getElem?.mp (List.mem_of_find?_eq_some hfind)
    have hlabel' := List.find?_some hfind
    simp only [List.contains_iff_mem] at hlabel'
    have ht' := (h.mem_tokenNames_markersOf hat halt').mp hlabel'
    obtain rfl := h.position_unique hat halt halt' ht ht'
    rw [hfind, Option.some.inj (halt.symm.trans halt')]

/-- The arm that is selected belongs to an alternative of the rule with the name, and the token is a
marker of the alternative. -/
theorem exists_rule_of_arm? (harm : g.arm? a name kind = some (alt, i)) :
    ∃ r ∈ g.parserRules, r.name = name ∧ r.alternatives[i]? = some alt ∧
      g.terminalId kind ∈ g.markersOf (g.ruleId r.name) alt := by
  obtain ⟨r, hat, -⟩ := Option.bind_eq_some_iff.mp harm
  obtain ⟨hlt, -⟩ := List.getElem?_eq_some_iff.mp hat
  rw [ruleId, ← List.length_map, List.idxOf_lt_length_iff] at hlt
  obtain ⟨r, hr, rfl⟩ := List.mem_map.mp hlt
  exact ⟨r, hr, rfl, (h.arm?_eq_some_iff hr).mp harm⟩

end Analysed

/-- A grammar of tokens `A` with as many tokens `B` behind them. -/
def nested : Grammar where
  header := ""
  tokenRules := [⟨"A", "a"⟩, ⟨"B", "b"⟩]
  skipNames := []
  start := 0
  parserRules :=
    [⟨"whole", [], ⟨"res", "()"⟩, [.sequence none [⟨"_", "pairs", .nonterminal [], none⟩]]⟩,
      ⟨"pairs", [], ⟨"res", "()"⟩,
        [.sequence none [⟨"_", "A", .terminal, none⟩, ⟨"_", "pairs", .nonterminal [], none⟩,
          ⟨"_", "B", .terminal, none⟩], .epsilon none none]⟩]

/-- The analysis of the grammar. -/
def nestedAnalysis : Analysis := (Analysis.ofGrammar nested).toOption.getD default

set_option maxRecDepth 4000 in
/-- The grammar `nested` is accepted. -/
theorem nested_accepted : Grammar.validate nested.header nested.tokenRules nested.skipNames "whole"
    nested.parserRules = .ok nested := by rfl

set_option maxRecDepth 4000 in
/-- The grammar `nested` has no conflicts and is analysed. -/
theorem nested_analysed : Analysis.ofGrammar nested = .ok nestedAnalysis := by rfl

end Descent.Grammar
