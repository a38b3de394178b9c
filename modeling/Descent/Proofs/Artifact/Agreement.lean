import Descent.Proofs.Artifact.Outline
import Descent.Proofs.Driver.Selection
import Descent.Proofs.Grammar.Guarantees
import Mathlib.Data.List.Nodup

/-!
# Agreement of the artifacts

The three artifacts of a grammar come from separate walks over its tokens, its rules and its
marker sets, yet they name the same kinds: those that the first one declares. In the
function of a rule no kind selects two arms, and where none is selected just the kinds that
select one are expected. Every function that is called is defined, and only once.
-/

namespace Descent.Artifact

/-! ### Kinds and functions in an outline -/

/-- The kinds that a statement names. -/
def Statement.kinds : Statement → List String
  | check kind expected => kind :: expected
  | _ => []

/-- The rule whose function a statement calls. -/
def Statement.calls : Statement → List String
  | call _ _ rule _ => [rule]
  | _ => []

namespace RuleFunction

/-- The kinds in the labels of the arms. -/
def labels (f : RuleFunction) : List String := f.arms.flatMap (·.labels)

/-- The statements of all arms. -/
def statements (f : RuleFunction) : List Statement := f.arms.flatMap (·.body)

/-- The kinds that the lines of the function name. -/
def kinds (f : RuleFunction) : List String :=
  f.labels ++ f.statements.flatMap Statement.kinds ++ f.expected

/-- The names of the rules that are called. -/
def calls (f : RuleFunction) : List String := f.statements.flatMap Statement.calls

end RuleFunction

namespace ParserOutline

/-- The kinds that the lines of the parser name. -/
def kinds (o : ParserOutline) : List String :=
  [o.initial, o.entry.required] ++ o.functions.flatMap RuleFunction.kinds

/-- The rules whose functions are called. -/
def calls (o : ParserOutline) : List String :=
  o.entry.rule :: o.functions.flatMap RuleFunction.calls

end ParserOutline

/-- The outlines of the three artifacts of a grammar agree with the grammar, with its analysis and with
one another. -/
structure Agree (g : Grammar) (a : Analysis) (tokens : TokensOutline) (lexer : LexerOutline)
    (parser : ParserOutline) : Prop where
  /-- The kinds are the tokens that a lexer hands on, and the end of input behind them. -/
  variants : tokens.variants = g.lexemes.map (·.name) ++ [endName]
  distinct : tokens.variants.Nodup
  all : tokens.all = tokens.variants
  count : tokens.count = tokens.all.length
  names : tokens.names = tokens.variants.map fun kind => (kind, kind)
  /-- The analysis numbers the kinds in the order of their declarations. -/
  numbers : ∀ i < tokens.variants.length, tokens.variants[i]? = some (a.tokenName i)
  rules : lexer.rules = g.lexemes.map fun t => (t.name, t.name, t.pattern)
  ruleCount : lexer.ruleCount = lexer.rules.length
  skips : lexer.skips = g.skipRules ∧ lexer.skips.map (·.name) = g.skipNames
  skipCount : lexer.skipCount = lexer.skips.length
  /-- Every kind that the parser names is declared. -/
  declared : ∀ kind ∈ parser.kinds, kind ∈ tokens.variants
  /-- No kind labels two arms of a function, nor one arm twice. -/
  labels : ∀ f ∈ parser.functions, f.labels.Nodup
  /-- The kinds that are expected where no arm is selected are those of the labels, in order. -/
  expected : ∀ f ∈ parser.functions, f.expected = tokens.variants.filter (· ∈ f.labels)
  /-- A function that is called is defined once. -/
  defined : ∀ rule ∈ parser.calls, (parser.functions.map (·.name)).count rule = 1

variable {g : Grammar} {a : Analysis} {alt : Alternative} {st : Statement} {kind rule : String}

/-- Code names no kind and calls no function. -/
theorem kinds_and_calls_of_code {code : Option String} (h : st ∈ codeStatements code) :
    st.kinds = [] ∧ st.calls = [] := by
  cases code with
  | none => cases h
  | some text =>
      obtain rfl := List.mem_singleton.mp h
      exact ⟨rfl, rfl⟩

/-- What an atom is made into names the token of the atom, or calls its rule. -/
theorem name_of_atomStatement {x : Atom} (h : st ∈ atomStatements g x) :
    (∀ kind ∈ st.kinds, x.isTerminal = true ∧ x.name = kind) ∧
      ∀ rule ∈ st.calls, x.isTerminal = false ∧ x.name = rule := by
  rw [atomStatements] at h
  rw [Atom.isTerminal]
  cases hreference : x.reference with
  | terminal =>
      simp only [hreference, List.mem_append, List.mem_cons, List.not_mem_nil, or_false] at h
      rcases h with ((rfl | rfl) | hcode) | rfl
      · simp [Statement.kinds, Statement.calls, eq_comm]
      · simp [Statement.kinds, Statement.calls]
      · simp [kinds_and_calls_of_code hcode]
      · simp [Statement.kinds, Statement.calls]
  | nonterminal arguments =>
      simp only [hreference, List.mem_cons] at h
      rcases h with rfl | hcode
      · simp [Statement.kinds, Statement.calls, eq_comm]
      · simp [kinds_and_calls_of_code hcode]

/-- The statements of an alternative name kinds only of its tokens and call rules only of its
calls. -/
theorem name_of_statement (h : st ∈ alternativeStatements g alt) :
    (∀ kind ∈ st.kinds, ∃ x ∈ alt.atoms, x.isTerminal = true ∧ x.name = kind) ∧
      ∀ rule ∈ st.calls, ∃ x ∈ alt.atoms, x.isTerminal = false ∧ x.name = rule := by
  have hcodeOnly : ∀ {code : Option String}, st ∈ codeStatements code →
      st.kinds = [] ∧ st.calls = [] := kinds_and_calls_of_code
  cases alt with
  | epsilon init code =>
      have hcode : st.kinds = [] ∧ st.calls = [] := by
        rcases List.mem_append.mp h with h | h <;> exact hcodeOnly h
      simp [hcode]
  | sequence init atoms =>
      rcases List.mem_append.mp h with h | h
      · simp [hcodeOnly h]
      · obtain ⟨x, hx, hst⟩ := List.mem_flatMap.mp h
        obtain ⟨hkinds, hcalls⟩ := name_of_atomStatement hst
        exact ⟨fun kind hkind => ⟨x, hx, hkinds kind hkind⟩,
          fun rule hrule => ⟨x, hx, hcalls rule hrule⟩⟩

/-! ### The function of a rule -/

section

variable {r : ParserRule} {n : Nat}

/-- An arm is labelled with the markers of its alternative, and without markers there is no arm. -/
theorem labels_armOf? (g : Grammar) (a : Analysis) (markers : TokenSet) (alt : Alternative) :
    (armOf? g a markers alt).toList.flatMap (·.labels) = a.tokenNames markers := by
  rw [armOf?]
  split
  · next hempty =>
      rw [Analysis.tokenNames, List.isEmpty_iff.mp hempty]
      rfl
  · rw [Option.toList_some, List.flatMap_singleton]

/-- The arms of a rule are labelled with the markers of its alternatives, in the order of these. -/
theorem labels_ruleFunction (g : Grammar) (a : Analysis) (n : Nat) (r : ParserRule) :
    (ruleFunction g a n r).labels =
      r.alternatives.zipIdx.flatMap fun place => a.tokenNames (a.markersOf n place.2) := by
  rw [RuleFunction.labels, ruleFunction, List.filterMap_eq_flatMap_toList, List.flatMap_assoc]
  exact congrArg (List.flatMap · _) (funext fun place => labels_armOf? g a _ place.1)

/-- Each statement in the function of a rule comes from one of its alternatives. -/
theorem exists_alternative (h : st ∈ (ruleFunction g a n r).statements) :
    ∃ alt ∈ r.alternatives, st ∈ alternativeStatements g alt := by
  obtain ⟨arm, harm, hst⟩ := List.mem_flatMap.mp h
  obtain ⟨⟨alt, i⟩, halt, hof⟩ := List.mem_filterMap.mp harm
  have hbody : armOf? g a (a.markersOf n i) alt = some arm := hof
  rw [armOf?] at hbody
  split at hbody
  · cases hbody
  · obtain rfl := Option.some.inj hbody
    exact ⟨alt, (List.mem_zipIdx' halt).2 ▸ List.getElem_mem _, hst⟩

end

end Descent.Artifact

namespace Descent.Grammar

open Artifact

variable {g : Grammar} {a : Analysis} {r : ParserRule} {alt : Alternative} {n t : Nat}
  {kind : String}

/-! ### Numbers and names of kinds -/

namespace Analysed

variable (h : g.Analysed a)
include h

/-- The name of a terminal is among those of a set exactly if the terminal is in the set. -/
theorem tokenName_mem_iff {s : TokenSet} (hs : ∀ t ∈ s, t < g.terminalNames.length)
    (ht : t < g.terminalNames.length) : a.tokenName t ∈ a.tokenNames s ↔ t ∈ s := by
  rw [h.mem_tokenNames hs, h.valid.terminalId_of_getElem? (h.getElem?_tokenName ht)]

/-- The names of a set are its kinds in the order of their declarations. -/
theorem tokenNames_eq_filter {s : TokenSet} (hs : ∀ t ∈ s, t < g.terminalNames.length) :
    a.tokenNames s = g.terminalNames.filter (· ∈ a.tokenNames s) := by
  let numbers := List.range g.terminalNames.length
  have hnames : g.terminalNames = numbers.map a.tokenName := by
    refine List.ext_getElem (by simp [numbers]) fun t ht _ => ?_
    rw [List.getElem_map, List.getElem_range]
    exact Option.some.inj ((List.getElem?_eq_getElem ht).symm.trans (h.getElem?_tokenName ht))
  -- the numbers of the kinds in the set and the members of the set are one increasing list
  have hset : (⟨numbers.filter (a.tokenName · ∈ a.tokenNames s),
      List.pairwise_lt_range.filter _⟩ : TokenSet) = s := by
    ext t
    change t ∈ numbers.filter _ ↔ t ∈ s
    rw [List.mem_filter, List.mem_range, decide_eq_true_iff]
    exact ⟨fun ⟨ht, hmem⟩ => (h.tokenName_mem_iff hs ht).mp hmem,
      fun hmem => ⟨hs t hmem, (h.tokenName_mem_iff hs (hs t hmem)).mpr hmem⟩⟩
  conv_rhs => rw [hnames, List.filter_map]
  exact congrArg (fun u => u.ids.map a.tokenName) hset.symm

/-- The terminals of a set have distinct names. -/
theorem nodup_tokenNames {s : TokenSet} (hs : ∀ t ∈ s, t < g.terminalNames.length) :
    (a.tokenNames s).Nodup := by
  rw [h.tokenNames_eq_filter hs]
  exact h.valid.nodup_terminalNames.filter _

/-- A kind is in the label of an arm if it selects an alternative of the rule. -/
theorem mem_labels (hr : g.parserRules[n]? = some r) : kind ∈ (ruleFunction g a n r).labels ↔
    ∃ alt ∈ r.alternatives, g.terminalId kind ∈ g.markersOf n alt := by
  rw [labels_ruleFunction, List.mem_flatMap]
  constructor
  · rintro ⟨⟨alt, i⟩, hmem, hkind⟩
    have halt := List.mk_mem_zipIdx_iff_getElem?.mp hmem
    exact ⟨alt, List.mem_of_getElem? halt, (h.mem_tokenNames_markersOf hr halt).mp hkind⟩
  · rintro ⟨alt, halt, hmarker⟩
    obtain ⟨i, hi⟩ := List.mem_iff_getElem?.mp halt
    exact ⟨(alt, i), List.mk_mem_zipIdx_iff_getElem?.mpr hi,
      (h.mem_tokenNames_markersOf hr hi).mpr hmarker⟩

/-- The kinds that are expected where no arm is selected are those that select one. -/
theorem expected_ruleFunction (hr : g.parserRules[n]? = some r) :
    (ruleFunction g a n r).expected =
      g.terminalNames.filter (· ∈ (ruleFunction g a n r).labels) := by
  have hlt : ∀ t ∈ a.expected n, t < g.terminalNames.length :=
    fun t ht => h.lt_length_of_mem_expected hr ht
  have hsame : ∀ kind, kind ∈ a.tokenNames (a.expected n) ↔
      kind ∈ (ruleFunction g a n r).labels := by
    intro kind
    rw [h.mem_tokenNames hlt, h.mem_expected hr, h.mem_labels hr]
  change a.tokenNames (a.expected n) = _
  rw [h.tokenNames_eq_filter hlt]
  simp only [hsame]

/-- Without conflicts no kind selects two arms. -/
theorem nodup_labels (hr : g.parserRules[n]? = some r) : (ruleFunction g a n r).labels.Nodup := by
  have hplaces : r.alternatives.zipIdx.Nodup := by
    refine .of_map Prod.snd ?_
    rw [List.zipIdx_map_snd]
    exact List.nodup_range' ..
  rw [labels_ruleFunction, List.nodup_flatMap]
  constructor
  · rintro ⟨alt, i⟩ hmem
    have halt := List.mk_mem_zipIdx_iff_getElem?.mp hmem
    refine h.nodup_tokenNames fun t ht => ?_
    rw [h.markersOf_eq hr halt] at ht
    exact h.lt_length_of_mem_markersOf hr (List.mem_of_getElem? halt) ht
  · refine hplaces.pairwise_of_forall_ne ?_
    rintro ⟨alt, i⟩ hmem ⟨alt', i'⟩ hmem' hne
    have halt := List.mk_mem_zipIdx_iff_getElem?.mp hmem
    have halt' := List.mk_mem_zipIdx_iff_getElem?.mp hmem'
    refine List.disjoint_left.mpr fun kind hkind hkind' => hne ?_
    obtain rfl := h.position_unique hr halt halt' ((h.mem_tokenNames_markersOf hr halt).mp hkind)
      ((h.mem_tokenNames_markersOf hr halt').mp hkind')
    rw [Option.some.inj (halt.symm.trans halt')]

/-- The lines of a function name kinds that are declared. -/
theorem kinds_ruleFunction (hr : g.parserRules[n]? = some r) :
    ∀ kind ∈ (ruleFunction g a n r).kinds, kind ∈ g.terminalNames := by
  have hexpected : ∀ kind ∈ (ruleFunction g a n r).expected, kind ∈ g.terminalNames := by
    rw [h.expected_ruleFunction hr]
    exact fun kind hkind => List.mem_of_mem_filter hkind
  intro kind hkind
  rcases List.mem_append.mp hkind with hkind | hkind
  · rcases List.mem_append.mp hkind with hkind | hkind
    · obtain ⟨alt, halt, hmarker⟩ := (h.mem_labels hr).mp hkind
      exact List.idxOf_lt_length_iff.mp (h.lt_length_of_mem_markersOf hr halt hmarker)
    · obtain ⟨st, hst, hkind⟩ := List.mem_flatMap.mp hkind
      obtain ⟨alt, halt, hst⟩ := exists_alternative hst
      obtain ⟨x, hx, hterminal, rfl⟩ := (name_of_statement hst).1 kind hkind
      exact mem_terminalNames.mpr
        (Or.inl (h.valid.mem_lexemes (List.mem_of_getElem? hr) halt hx hterminal))
  · exact hexpected kind hkind

end Analysed

/-- A function calls functions of rules. -/
theorem Valid.calls_ruleFunction (hg : g.Valid) (hr : r ∈ g.parserRules) :
    ∀ rule ∈ (ruleFunction g a n r).calls, rule ∈ g.parserRules.map (·.name) := by
  intro rule hrule
  obtain ⟨st, hst, hrule⟩ := List.mem_flatMap.mp hrule
  obtain ⟨alt, halt, hst⟩ := exists_alternative hst
  obtain ⟨x, hx, hkind, rfl⟩ := (name_of_statement hst).2 rule hrule
  obtain ⟨r', hr', hname⟩ := hg.exists_rule hr halt hx hkind
  exact hname ▸ List.mem_map_of_mem hr'

/-- A function of the parser is that of a rule. -/
theorem exists_rule_of_function {f : RuleFunction} (hf : f ∈ (parserOutline g a).functions) :
    ∃ (n : Nat) (r : ParserRule), g.parserRules[n]? = some r ∧ f = ruleFunction g a n r := by
  obtain ⟨⟨r, n⟩, hmem, rfl⟩ := List.mem_map.mp hf
  exact ⟨n, r, List.mk_mem_zipIdx_iff_getElem?.mp hmem, rfl⟩

/-- The functions of the parser are those of the rules, in order. -/
theorem names_functions (g : Grammar) (a : Analysis) :
    (parserOutline g a).functions.map (·.name) = g.parserRules.map (·.name) := by
  rw [parserOutline, List.map_map]
  change g.parserRules.zipIdx.map ((·.name) ∘ Prod.fst) = _
  rw [← List.map_map, List.zipIdx_map_fst]

/-- The outlines of the artifacts of a checked grammar without conflicts agree. -/
theorem Checked.agree (hg : g.Checked) (h : g.Analysed a) :
    Agree g a (tokensOutline g) (lexerOutline g) (parserOutline g a) where
  variants := rfl
  distinct := hg.valid.nodup_terminalNames
  all := rfl
  count := rfl
  names := rfl
  numbers t ht := h.getElem?_tokenName ht
  rules := rfl
  ruleCount := (List.length_map _).symm
  skips := ⟨rfl, hg.names_skipRules⟩
  skipCount := rfl
  declared kind hkind := by
    rcases List.mem_append.mp hkind with hkind | hkind
    · have hend : kind = endName := by simpa [parserOutline] using hkind
      exact mem_terminalNames.mpr (Or.inr hend)
    · obtain ⟨f, hf, hkind⟩ := List.mem_flatMap.mp hkind
      obtain ⟨n, r, hr, rfl⟩ := exists_rule_of_function hf
      exact h.kinds_ruleFunction hr kind hkind
  labels f hf := by
    obtain ⟨n, r, hr, rfl⟩ := exists_rule_of_function hf
    exact h.nodup_labels hr
  expected f hf := by
    obtain ⟨n, r, hr, rfl⟩ := exists_rule_of_function hf
    exact h.expected_ruleFunction hr
  defined rule hrule := by
    rw [names_functions]
    refine List.count_eq_one_of_mem hg.valid.ruleNames ?_
    rcases List.mem_cons.mp hrule with rfl | hrule
    · exact List.mem_map_of_mem hg.valid.startRule_mem
    · obtain ⟨f, hf, hrule⟩ := List.mem_flatMap.mp hrule
      obtain ⟨n, r, hr, rfl⟩ := exists_rule_of_function hf
      exact hg.valid.calls_ruleFunction (List.mem_of_getElem? hr) rule hrule

end Descent.Grammar
