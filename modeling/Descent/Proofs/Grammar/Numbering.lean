import Descent.Lookahead.Analysis
import Descent.Proofs.Grammar.Valid
import Mathlib.Data.List.GetD

/-!
# Names and numbers

The analysis works on numbers: a terminal has its place among the names of the
terminals, with the end of input last, and a rule has its place among the rules. In a
valid grammar every atom has a number and different terminals have different ones, so
the productions that are analysed say just what the rules of the grammar say.
-/

namespace Descent.Grammar

variable {g : Grammar} {r : ParserRule} {alt : Alternative} {x : Atom} {kind : String} {n t : Nat}

/-- The names of the terminals in the order of their numbers. -/
def terminalNames (g : Grammar) : List String := g.lexemes.map (·.name) ++ [endName]

/-- The number of a terminal. -/
def terminalId (g : Grammar) (kind : String) : Nat := g.terminalNames.idxOf kind

/-- The number of a rule. -/
def ruleId (g : Grammar) (name : String) : Nat := (g.parserRules.map (·.name)).idxOf name

/-- The symbol that an atom stands for. -/
def symbolOf (g : Grammar) (x : Atom) : Symbol :=
  if x.isTerminal then .term (g.terminalId x.name) else .rule (g.ruleId x.name)

/-- The rules of a grammar as productions. -/
def lowered (g : Grammar) : Productions :=
  g.parserRules.map fun r => r.alternatives.map fun alt => alt.atoms.map g.symbolOf

/-- The symbol of a terminal is its number. -/
theorem symbolOf_of_terminal (hx : x.isTerminal = true) :
    g.symbolOf x = .term (g.terminalId x.name) := if_pos hx

/-- The symbol of a rule name is the number of the rule. -/
theorem symbolOf_of_nonterminal (hx : x.isTerminal = false) :
    g.symbolOf x = .rule (g.ruleId x.name) := by
  rw [symbolOf, hx, if_neg Bool.false_ne_true]

/-- The alternatives of a rule and of the productions correspond. -/
theorem alternatives_lowered (hr : g.parserRules[n]? = some r) :
    g.lowered.alternatives n = r.alternatives.map fun alt => alt.atoms.map g.symbolOf := by
  rw [Productions.alternatives, lowered, List.getD_eq_getElem?_getD, List.getElem?_map, hr]
  rfl

/-- The symbols of an alternative are one of the alternatives of its rule in the productions. -/
theorem mem_alternatives_lowered (hr : g.parserRules[n]? = some r) (halt : alt ∈ r.alternatives) :
    alt.atoms.map g.symbolOf ∈ g.lowered.alternatives n := by
  rw [alternatives_lowered hr]
  exact List.mem_map.mpr ⟨alt, halt, rfl⟩

/-- The names of the terminals are those of the lexemes and of the end. -/
theorem mem_terminalNames : kind ∈ g.terminalNames ↔
    kind ∈ g.lexemes.map (·.name) ∨ kind = endName := by
  rw [terminalNames, List.mem_append, List.mem_singleton]

/-- The end of input has the last number. -/
theorem length_terminalNames : g.terminalNames.length = g.lexemes.length + 1 := by
  simp only [terminalNames, List.length_append, List.length_map, List.length_singleton]

/-- A number that is a place has the name at that place. -/
theorem getElem?_terminalId (h : kind ∈ g.terminalNames) :
    g.terminalNames[g.terminalId kind]? = some kind := by
  have hlt := List.idxOf_lt_length_iff.mpr h
  rw [terminalId, List.getElem?_eq_getElem hlt, List.getElem_idxOf hlt]

namespace Valid

variable (hg : g.Valid)
include hg

private theorem lexemeNames : (g.lexemes.map (·.name)).Nodup :=
  hg.tokenNames.sublist (List.filter_sublist.map _)

/-- No token that a lexer hands on has the name of the end. -/
theorem endName_not_mem : endName ∉ g.lexemes.map (·.name) :=
  fun h => hg.endReserved ((List.filter_sublist.map TokenRule.name).subset h)

/-- The names of the terminals of a valid grammar are distinct. -/
theorem nodup_terminalNames : g.terminalNames.Nodup :=
  List.nodup_append.mpr ⟨hg.lexemeNames, List.nodup_singleton _, fun _ ha _ hb hab =>
    hg.endName_not_mem (List.mem_singleton.mp hb ▸ hab ▸ ha)⟩

/-- The table of the terminals of a valid grammar has their names. -/
theorem names_terminals : g.terminals.names = g.terminalNames :=
  SymbolTable.names_ofList hg.nodup_terminalNames

/-- The table of the rules of a valid grammar has their names. -/
theorem names_nonterminals : g.nonterminals.names = g.parserRules.map (·.name) :=
  SymbolTable.names_ofList hg.ruleNames

/-- The end of input has the number behind those of the tokens. -/
theorem terminalId_endName : g.terminalId endName = g.lexemes.length := by
  rw [terminalId, Grammar.terminalNames, List.idxOf_append_of_notMem hg.endName_not_mem]
  simp

/-- The number that the analysis takes for the end of input is the one of its name. -/
theorem size_terminals_sub_one : g.terminals.size - 1 = g.terminalId endName := by
  rw [SymbolTable.size, hg.names_terminals, length_terminalNames, hg.terminalId_endName,
    Nat.add_sub_cancel]

/-- A place that has the name `kind` is the number of `kind`. -/
theorem terminalId_of_getElem? (h : g.terminalNames[t]? = some kind) : g.terminalId kind = t := by
  obtain ⟨hlt, rfl⟩ := List.getElem?_eq_some_iff.mp h
  exact hg.nodup_terminalNames.idxOf_getElem t hlt

/-- The rule with a name is found at its number. -/
theorem getElem?_ruleId (hr : r ∈ g.parserRules) : g.parserRules[g.ruleId r.name]? = some r := by
  obtain ⟨i, hi, rfl⟩ := List.getElem_of_mem hr
  have hname : (g.parserRules.map (·.name)).idxOf g.parserRules[i].name = i := by
    have h := hg.ruleNames.idxOf_getElem i (by simpa only [List.length_map] using hi)
    rwa [List.getElem_map] at h
  rw [ruleId, hname, List.getElem?_eq_getElem hi]

/-- The start rule of a valid grammar is one of its rules. -/
theorem startRule_mem : g.startRule ∈ g.parserRules := by
  rw [startRule, List.getD_eq_getElem _ _ hg.start]
  exact List.getElem_mem hg.start

/-- The start rule has the number that the grammar gives for it. -/
theorem ruleId_startRule : g.ruleId g.startRule.name = g.start := by
  have h := hg.ruleNames.idxOf_getElem g.start (by simpa only [List.length_map] using hg.start)
  rwa [List.getElem_map, ← List.getD_eq_getElem _ default hg.start] at h

/-- The alternatives of a rule are among those of its number. -/
theorem mem_alternatives (hr : r ∈ g.parserRules) (halt : alt ∈ r.alternatives) :
    alt.atoms.map g.symbolOf ∈ g.lowered.alternatives (g.ruleId r.name) :=
  mem_alternatives_lowered (hg.getElem?_ruleId hr) halt

/-- A terminal atom of an alternative waits for a token that a lexer hands on. -/
theorem mem_lexemes (hr : r ∈ g.parserRules) (halt : alt ∈ r.alternatives) (hx : x ∈ alt.atoms)
    (hkind : x.isTerminal = true) : x.name ∈ g.lexemes.map (·.name) :=
  hg.terminal r hr x (List.mem_flatMap.mpr ⟨alt, halt, hx⟩) hkind

/-- No atom waits for the end of input. -/
theorem terminal_ne_endName (hr : r ∈ g.parserRules) (halt : alt ∈ r.alternatives) :
    ∀ x ∈ alt.atoms, x.isTerminal = true → x.name ≠ endName :=
  fun _ hx hkind heq => hg.endName_not_mem (heq ▸ hg.mem_lexemes hr halt hx hkind)

/-- The other atoms call a rule of the grammar. -/
theorem exists_rule (hr : r ∈ g.parserRules) (halt : alt ∈ r.alternatives) (hx : x ∈ alt.atoms)
    (hkind : x.isTerminal = false) : ∃ r' ∈ g.parserRules, r'.name = x.name :=
  List.mem_map.mp (hg.nonterminal r hr x (List.mem_flatMap.mpr ⟨alt, halt, hx⟩) hkind)

/-- The analysis gives an atom the number of its name. -/
theorem symbol_eq_ok (hr : r ∈ g.parserRules) (halt : alt ∈ r.alternatives) (hx : x ∈ alt.atoms) :
    x.symbol g.terminals g.nonterminals r.name = .ok (g.symbolOf x) := by
  cases hkind : x.isTerminal with
  | true =>
      have hmem : x.name ∈ g.terminals.names := by
        rw [hg.names_terminals]
        exact mem_terminalNames.mpr (Or.inl (hg.mem_lexemes hr halt hx hkind))
      rw [Atom.symbol, if_pos hkind, SymbolTable.id?_of_mem hmem, symbolOf_of_terminal hkind,
        terminalId, hg.names_terminals]
  | false =>
      obtain ⟨r', hr', hname⟩ := hg.exists_rule hr halt hx hkind
      have hmem : x.name ∈ g.nonterminals.names := by
        rw [hg.names_nonterminals]
        exact List.mem_map.mpr ⟨r', hr', hname⟩
      rw [Atom.symbol, hkind, if_neg Bool.false_ne_true, SymbolTable.id?_of_mem hmem,
        symbolOf_of_nonterminal hkind, ruleId, hg.names_nonterminals]

end Valid

/-- A list that is handled element by element without a failure. -/
private theorem mapM_eq_ok {ε α β : Type} {f : α → Except ε β} {h : α → β} {l : List α}
    (hl : ∀ a ∈ l, f a = .ok (h a)) : l.mapM f = .ok (l.map h) := by
  induction l with
  | nil => rfl
  | cons a rest ih =>
      have hrest := ih fun b hb => hl b (List.mem_cons_of_mem a hb)
      rw [List.mapM_cons, hl a List.mem_cons_self, hrest]
      rfl

/-- In a valid grammar every atom has a number. -/
theorem Valid.productions_eq (hg : g.Valid) : g.productions = .ok g.lowered :=
  mapM_eq_ok fun _ hr => mapM_eq_ok fun _ halt => mapM_eq_ok fun _ hx => hg.symbol_eq_ok hr halt hx

end Descent.Grammar
