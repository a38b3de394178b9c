import Descent.Proofs.Grammar.Conditions
import Descent.Proofs.Grammar.Numbering
import Descent.Proofs.Lookahead.Verdict
import Descent.Proofs.Tokens.Compiling

/-!
# What a checked grammar guarantees

The stages behind the checks rely on them. The token rules of a checked grammar are
divided into skipped ones and lexemes. Every atom has a number: that of a lexeme or of a
parser rule, and never that of the end of input. So all numbers that the analysis looks
up are in range and it can only fail for a conflict, which it reports with at least one
token. All patterns compile, so the grammar has a lexicon.
-/

namespace Descent.Grammar

variable {g : Grammar} {name : String} {t : TokenRule}

/-- The token rules are divided into those of the skip list, in its order, and the lexemes, in the
order of their declarations. -/
structure Divided (g : Grammar) : Prop where
  distinct : g.tokenRules.Nodup
  perm : (g.skipRules ++ g.lexemes).Perm g.tokenRules
  skipNames : g.skipRules.map (·.name) = g.skipNames
  lexemes : g.lexemes.Sublist g.tokenRules

/-- The tables of the analysis: a lexeme has its position for a number, the end of input the number
behind those of the lexemes, and a parser rule its position. -/
structure Numbered (g : Grammar) : Prop where
  lexeme : ∀ i t, g.lexemes[i]? = some t → g.terminals.id? t.name = some i
  ending : g.terminals.id? endName = some g.lexemes.length
  size : g.terminals.size = g.lexemes.length + 1
  rule : ∀ n r, g.parserRules[n]? = some r → g.nonterminals.id? r.name = some n

/-- The symbol stands for the atom: it has the number of the lexeme that a terminal atom waits for,
or of the parser rule that any other atom calls. -/
inductive Denotes (g : Grammar) : Atom → Symbol → Prop where
  | term {a : Atom} {i : Nat} {t : TokenRule} (ha : a.isTerminal = true)
      (ht : g.lexemes[i]? = some t) (hname : t.name = a.name) : Denotes g a (.term i)
  | rule {a : Atom} {n : Nat} {r : ParserRule} (ha : a.isTerminal = false)
      (hr : g.parserRules[n]? = some r) (hname : r.name = a.name) : Denotes g a (.rule n)

/-- The productions have the shape of the parser rules, with a symbol for each atom. -/
def Lowers (g : Grammar) (prods : Productions) : Prop :=
  List.Forall₂ (fun r alternatives => List.Forall₂ (fun alt form =>
    List.Forall₂ g.Denotes alt.atoms form) r.alternatives alternatives) g.parserRules prods

/-- Every number that the analysis of the productions looks up is in range: those of rules in the
alternatives and that of the start rule are below the length of the productions, which is that of
the tables of sets, and those of terminals are below the one of the end of input. -/
structure InRange (g : Grammar) (prods : Productions) : Prop where
  rule : ∀ alternatives ∈ prods, ∀ form ∈ alternatives, ∀ n, .rule n ∈ form → n < prods.length
  term : ∀ alternatives ∈ prods, ∀ form ∈ alternatives, ∀ i, .term i ∈ form →
    i < g.terminals.size - 1
  start : g.start < prods.length
  rules : prods.length = g.parserRules.length
  first : (firstSets prods).length = prods.length
  follow : (followSets prods (firstSets prods) g.start (g.terminals.size - 1)).length = prods.length

/-- The conditions that a checked grammar meets as a draft of itself. -/
structure Checked (g : Grammar) : Prop where
  valid : g.Valid
  distinctSkips : g.skipNames.Nodup
  knownSkips : ∀ s ∈ g.skipNames, s ∈ g.tokenRules.map (·.name)
  patterns : ∀ t ∈ g.tokenRules, t.HasValidPattern

/-- What the checks establish. -/
theorem checked_of_validate {header start : String} {tokenRules : List TokenRule}
    {skipNames : List String} {parserRules : List ParserRule}
    (h : validate header tokenRules skipNames start parserRules = .ok g) : g.Checked := by
  let d : Draft := ⟨header, tokenRules, skipNames, start, parserRules⟩
  have hmeets : ∀ c, d.Meets c := fun c => d.follows_validate.ok_iff.mp ⟨g, h⟩ c c.mem_all
  have hmakes := d.follows_validate.makes g h
  refine ⟨valid_of_validate h, ?_, ?_, ?_⟩
  · rw [hmakes.skipNames]
    exact hmeets .distinctSkips
  · rw [hmakes.skipNames, hmakes.tokenRules]
    exact hmeets .knownSkips
  · rw [hmakes.tokenRules]
    exact hmeets .validPatterns

namespace Checked

variable (hg : g.Checked)
include hg

/-- Two token rules of one name are the same. -/
theorem tokenRule_unique {t' : TokenRule} (ht : t ∈ g.tokenRules) (ht' : t' ∈ g.tokenRules)
    (h : t.name = t'.name) : t = t' :=
  List.inj_on_of_nodup_map hg.valid.tokenNames ht ht' h

/-- A name of the skip list is that of one token rule. -/
theorem exists_skipRule (hname : name ∈ g.skipNames) :
    ∃ t ∈ g.tokenRules, (g.tokenRules.find? fun t => t.name == name) = some t ∧ t.name = name := by
  obtain ⟨t, ht, rfl⟩ := List.mem_map.mp (hg.knownSkips name hname)
  have hsome : (g.tokenRules.find? fun u => u.name == t.name).isSome = true :=
    List.find?_isSome.mpr ⟨t, ht, beq_self_eq_true _⟩
  obtain ⟨u, hu⟩ := Option.isSome_iff_exists.mp hsome
  have huname : u.name = t.name := by simpa using List.find?_some hu
  exact ⟨u, List.mem_of_find?_eq_some hu, hu, huname⟩

/-- The skipped token rules have the skipped names, in their order. -/
theorem names_skipRules : g.skipRules.map (·.name) = g.skipNames := by
  have hskips : ∀ names : List String, (∀ s ∈ names, s ∈ g.skipNames) →
      (names.filterMap fun s => g.tokenRules.find? fun t => t.name == s).map (·.name) = names := by
    intro names hnames
    induction names with
    | nil => rfl
    | cons s rest ih =>
        obtain ⟨t, -, hfind, hname⟩ := hg.exists_skipRule (hnames s List.mem_cons_self)
        have hcons := List.filterMap_cons_some
          (f := fun s => g.tokenRules.find? fun t => t.name == s) (l := rest) hfind
        rw [hcons, List.map_cons, hname, ih fun s hs => hnames s (List.mem_cons_of_mem _ hs)]
  exact hskips g.skipNames fun _ hs => hs

/-- The skipped token rules are those whose names are skipped. -/
theorem mem_skipRules : t ∈ g.skipRules ↔ t ∈ g.tokenRules ∧ g.isSkip t.name = true := by
  rw [skipRules, List.mem_filterMap, isSkip, List.contains_iff_mem]
  constructor
  · rintro ⟨s, hs, hfind⟩
    have hname : t.name = s := by simpa using List.find?_some hfind
    exact ⟨List.mem_of_find?_eq_some hfind, hname ▸ hs⟩
  · rintro ⟨ht, hs⟩
    obtain ⟨u, hu, hfind, hname⟩ := hg.exists_skipRule hs
    exact ⟨t.name, hs, by rw [hfind, hg.tokenRule_unique hu ht hname]⟩

/-- The token rules of a checked grammar are divided into skipped ones and lexemes. -/
theorem divided : g.Divided := by
  have hrules : g.tokenRules.Nodup := .of_map _ hg.valid.tokenNames
  have hskips : g.skipRules.Nodup := .of_map (·.name) (hg.names_skipRules ▸ hg.distinctSkips)
  have hperm : g.skipRules.Perm (g.tokenRules.filter fun t => g.isSkip t.name) :=
    (List.perm_ext_iff_of_nodup hskips (hrules.filter _)).mpr fun t => by
      rw [hg.mem_skipRules, List.mem_filter]
  exact ⟨hrules, (hperm.append_right _).trans (List.filter_append_perm _ _), hg.names_skipRules,
    List.filter_sublist⟩

/-- The numbers in the tables are positions. -/
theorem numbered : g.Numbered := by
  have hterminals : ∀ kind ∈ g.terminalNames, g.terminals.id? kind = some (g.terminalId kind) := by
    intro kind hkind
    rw [← hg.valid.names_terminals] at hkind
    rw [SymbolTable.id?_of_mem hkind, hg.valid.names_terminals, terminalId]
  refine ⟨fun i t ht => ?_, ?_, ?_, fun n r hr => ?_⟩
  · have hat : g.terminalNames[i]? = some t.name := by
      obtain ⟨hlt, -⟩ := List.getElem?_eq_some_iff.mp ht
      rw [terminalNames, List.getElem?_append_left (by rwa [List.length_map]), List.getElem?_map,
        ht]
      rfl
    rw [hterminals _ (List.mem_of_getElem? hat), hg.valid.terminalId_of_getElem? hat]
  · rw [hterminals _ (mem_terminalNames.mpr (Or.inr rfl)), hg.valid.terminalId_endName]
  · rw [SymbolTable.size, hg.valid.names_terminals, length_terminalNames]
  · have hat : (g.parserRules.map (·.name))[n]? = some r.name := by
      rw [List.getElem?_map, hr]
      rfl
    obtain ⟨hlt, hname⟩ := List.getElem?_eq_some_iff.mp hat
    have hmem : r.name ∈ g.nonterminals.names := by
      rw [hg.valid.names_nonterminals]
      exact List.mem_of_getElem? hat
    rw [SymbolTable.id?_of_mem hmem, hg.valid.names_nonterminals, ← hname,
      hg.valid.ruleNames.idxOf_getElem n hlt]

end Checked

namespace Valid

variable (hg : g.Valid)
include hg

/-- The symbol that the analysis puts for an atom stands for it. -/
theorem denotes_symbolOf {r : ParserRule} {alt : Alternative} {a : Atom} (hr : r ∈ g.parserRules)
    (halt : alt ∈ r.alternatives) (ha : a ∈ alt.atoms) : g.Denotes a (g.symbolOf a) := by
  cases hkind : a.isTerminal with
  | true =>
      obtain ⟨t, ht, hname⟩ := List.mem_map.mp (hg.mem_lexemes hr halt ha hkind)
      obtain ⟨i, hi⟩ := List.mem_iff_getElem?.mp ht
      have hat : g.terminalNames[i]? = some a.name := by
        obtain ⟨hlt, -⟩ := List.getElem?_eq_some_iff.mp hi
        rw [terminalNames, List.getElem?_append_left (by rwa [List.length_map]), List.getElem?_map,
          hi, Option.map_some, hname]
      rw [symbolOf_of_terminal hkind, hg.terminalId_of_getElem? hat]
      exact .term hkind hi hname
  | false =>
      obtain ⟨r', hr', hname⟩ := hg.exists_rule hr halt ha hkind
      rw [symbolOf_of_nonterminal hkind, ← hname]
      exact .rule hkind (hg.getElem?_ruleId hr') hname

/-- The productions that are analysed have a symbol for each atom. -/
theorem lowers_lowered : g.Lowers g.lowered := by
  rw [Lowers, lowered, List.forall₂_map_right_iff, List.forall₂_same]
  intro r hr
  rw [List.forall₂_map_right_iff, List.forall₂_same]
  intro alt halt
  rw [List.forall₂_map_right_iff, List.forall₂_same]
  exact fun a ha => hg.denotes_symbolOf hr halt ha

end Valid

/-- Numbers that stand for atoms are in range. -/
theorem Checked.inRange (hg : g.Checked) : g.InRange g.lowered := by
  have hlength : g.lowered.length = g.parserRules.length := List.length_map _
  have hsymbol : ∀ alternatives ∈ g.lowered, ∀ form ∈ alternatives, ∀ s ∈ form,
      ∃ a, g.Denotes a s := by
    intro alternatives halternatives form hform s hs
    obtain ⟨r, hr, rfl⟩ := List.mem_map.mp halternatives
    obtain ⟨alt, halt, rfl⟩ := List.mem_map.mp hform
    obtain ⟨a, ha, rfl⟩ := List.mem_map.mp hs
    exact ⟨a, hg.valid.denotes_symbolOf hr halt ha⟩
  refine ⟨fun alternatives ha form hf n hn => ?_, fun alternatives ha form hf i hi => ?_, ?_,
    hlength, (firstRising_firstSets _).length, followRising_followSets.length⟩
  · obtain ⟨a, - | ⟨-, hr, -⟩⟩ := hsymbol alternatives ha form hf _ hn
    rw [hlength]
    exact (List.getElem?_eq_some_iff.mp hr).1
  · obtain ⟨a, ⟨-, ht, -⟩ | -⟩ := hsymbol alternatives ha form hf _ hi
    rw [hg.numbered.size, Nat.add_sub_cancel]
    exact (List.getElem?_eq_some_iff.mp ht).1
  · rw [hlength]
    exact hg.valid.start

/-- What a conflict of the analysed productions is about has a name. -/
theorem Checked.name?_isSome (hg : g.Checked) {c : Conflict}
    (hc : c.Truthful g.lowered (firstSets g.lowered)
      (followSets g.lowered (firstSets g.lowered) g.start (g.terminalId endName)))
    {t : Nat} (ht : t ∈ c.overlap.tokens) : ∃ kind, g.terminals.name? t = some kind := by
  obtain ⟨form, hform, hmarker⟩ := Productions.mem_markersAt.mp (hc.markers t ht).1
  have hlt : t < g.terminals.size := by
    have hsize := hg.numbered.size
    rcases Productions.mem_terminals_of_mem_markers (List.mem_of_getElem? hform)
      (mem_followOfSuffix.mpr hmarker) with hterm | rfl
    · obtain ⟨alternatives, ha, form, hf, hi⟩ := Productions.exists_of_mem_terminals hterm
      have := hg.inRange.term alternatives ha form hf t hi
      omega
    · rw [hg.valid.terminalId_endName]
      omega
  exact ⟨_, List.getElem?_eq_getElem hlt⟩

private theorem ok_bind {ε α β : Type} {a : α} {f : α → Except ε β} :
    ((Except.ok a : Except ε α) >>= f) = f a := rfl

/-- The analysis of a checked grammar fails for a conflict only, and reports a token. -/
theorem Checked.notLL1_of_ofGrammar (hg : g.Checked) {e : GrammarError}
    (h : Analysis.ofGrammar g = .error e) :
    ∃ rule first second tokens, e = .notLL1 rule first second tokens ∧ tokens ≠ [] := by
  rw [Analysis.ofGrammar, hg.valid.productions_eq, ok_bind, hg.valid.size_terminals_sub_one] at h
  dsimp only at h
  split at h
  · next c hc =>
      refine ⟨_, _, _, _, (Except.error.inj h).symm, fun hnil => ?_⟩
      -- a report without tokens would be one of an empty overlap
      have htruth := truthful_of_findConflict hc
      obtain ⟨hlabels, hnames⟩ := List.append_eq_nil_iff.mp hnil
      have hepsilon : c.overlap.epsilon = false := by
        cases he : c.overlap.epsilon with
        | true => simp [he] at hlabels
        | false => rfl
      have htokens : ∀ t, t ∉ c.overlap.tokens := by
        intro t ht
        obtain ⟨kind, hkind⟩ := hg.name?_isSome htruth ht
        have hmem := List.mem_filterMap.mpr ⟨t, ht, hkind⟩
        rw [hnames] at hmem
        exact List.not_mem_nil hmem
      have hempty := FirstSet.isEmpty_iff.mpr ⟨htokens, hepsilon⟩
      rw [htruth.shared] at hempty
      exact Bool.false_ne_true hempty
  · cases h

/-- The patterns of a checked grammar make a lexicon, whatever the kinds of its tokens. -/
theorem Checked.exists_lexicon (hg : g.Checked) {κ : Type} (kind : TokenRule → κ) (endKind : κ) :
    ∃ lexicon, Lexicon.ofPatterns? (g.skipRules.map (·.pattern))
      (g.lexemes.map fun t => (kind t, t.name, t.pattern)) endKind = some lexicon := by
  refine Option.isSome_iff_exists.mp (Lexicon.ofPatterns?_isSome_iff.mpr
    ⟨List.forall_mem_map.mpr fun t ht => ?_, List.forall_mem_map.mpr fun t ht => ?_⟩)
  · exact hg.patterns t (hg.mem_skipRules.mp ht).1
  · exact hg.patterns t (List.mem_of_mem_filter ht)

/-- What the stages behind the checks rely on. -/
structure Guaranteed (g : Grammar) : Prop where
  divided : g.Divided
  numbered : g.Numbered
  lowered : ∃ prods, g.productions = .ok prods ∧ g.Lowers prods ∧ g.InRange prods
  /-- The analysis has no other fault than a conflict, and names a token or the empty text. -/
  conflict : ∀ e, Analysis.ofGrammar g = .error e →
    ∃ rule first second tokens, e = .notLL1 rule first second tokens ∧ tokens ≠ []
  /-- The patterns compile, and not for one input only: a lexicon is made without an input. -/
  lexicon : ∀ (κ : Type) (kind : TokenRule → κ) (endKind : κ), ∃ lexicon,
    Lexicon.ofPatterns? (g.skipRules.map (·.pattern))
      (g.lexemes.map fun t => (kind t, t.name, t.pattern)) endKind = some lexicon

/-- A grammar that passes its checks does not fail later but for a conflict. -/
theorem guaranteed_of_validate {header start : String} {tokenRules : List TokenRule}
    {skipNames : List String} {parserRules : List ParserRule}
    (h : validate header tokenRules skipNames start parserRules = .ok g) : g.Guaranteed := by
  have hg := checked_of_validate h
  exact ⟨hg.divided, hg.numbered,
    ⟨g.lowered, hg.valid.productions_eq, hg.valid.lowers_lowered, hg.inRange⟩,
    fun _ he => hg.notLL1_of_ofGrammar he, fun _ kind endKind => hg.exists_lexicon kind endKind⟩

/-- A grammar of one or more tokens `A`, with blanks between them, in which the next token does not
tell the alternatives apart. -/
def spaced : Grammar where
  header := ""
  tokenRules := [⟨"WS", " +"⟩, ⟨"A", "a"⟩]
  skipNames := ["WS"]
  start := 1
  parserRules :=
    [⟨"rest", [], ⟨"res", "()"⟩, [.sequence none [⟨"_", "list", .nonterminal [], none⟩]]⟩,
      ⟨"list", [], ⟨"res", "()"⟩,
        [.sequence none [⟨"_", "A", .terminal, none⟩, ⟨"_", "rest", .nonterminal [], none⟩],
          .sequence none [⟨"_", "A", .terminal, none⟩]]⟩]

set_option maxRecDepth 4000 in
/-- A grammar with a conflict and with a skipped token has what the checks guarantee. -/
theorem guaranteed_of_validate_spaced :
    validate "" spaced.tokenRules ["WS"] "list" spaced.parserRules = .ok spaced ∧
      Analysis.ofGrammar spaced = .error (.notLL1 "list" 0 1 ["A"]) ∧ spaced.Guaranteed := by
  have accepted : validate "" spaced.tokenRules ["WS"] "list" spaced.parserRules = .ok spaced := rfl
  exact ⟨accepted, rfl, guaranteed_of_validate accepted⟩

end Descent.Grammar
