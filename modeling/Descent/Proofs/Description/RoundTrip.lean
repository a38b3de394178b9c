import Descent.Description.Reading
import Descent.Proofs.Description.Completeness
import Descent.Proofs.Description.Printing
import Descent.Proofs.Grammar.Guarantees

/-!
# Grammars and their descriptions

A series of declarations is one of a grammar if it holds just the parts of the grammar,
those of each kind in their order. A text that describes such a series is read as the
grammar, and a grammar whose parts can be written has such a text.
-/

namespace Descent.Description

open Descent.Text

variable {g : Grammar} {items : List Item} {text : String}

/-! ### The parts in the declarations -/

namespace Item

/-- The header, if the declaration is one. -/
def header? : Item → Option String
  | header text => some text
  | _ => none

/-- The token rule, if the declaration is one. -/
def token? : Item → Option TokenRule
  | token t => some t
  | _ => none

/-- The names in a list of skipped tokens. -/
def skips : Item → List String
  | skip names => names
  | _ => []

/-- The name of the start rule, if the declaration is about it. -/
def start? : Item → Option String
  | start name => some name
  | _ => none

/-- The parser rule, if the declaration is one. -/
def rule? : Item → Option ParserRule
  | rule r => some r
  | _ => none

end Item

/-- The declarations are those of the grammar, in any order that keeps the order of each kind. An
empty header need not be declared, and the skip list may be cut into several. -/
structure Declares (items : List Item) (g : Grammar) : Prop where
  header : items.filterMap Item.header? = [g.header] ∨
    items.filterMap Item.header? = [] ∧ g.header = ""
  tokens : items.filterMap Item.token? = g.tokenRules
  skips : items.flatMap Item.skips = g.skipNames
  skips_nonempty : Item.skip [] ∉ items
  start : items.filterMap Item.start? = [g.startRule.name]
  rules : items.filterMap Item.rule? = g.parserRules

private theorem toList_option_injective {a b : Option String} (h : a.toList = b.toList) :
    a = b := by
  cases a <;> cases b <;> cases h <;> rfl

/-- If there is at most one header and at most one start, all declarations are collected. -/
theorem foldlM_add (parts : Parts) {header start : Option String}
    (hheader : parts.header.toList ++ items.filterMap Item.header? = header.toList)
    (hstart : parts.start.toList ++ items.filterMap Item.start? = start.toList) :
    items.foldlM Parts.add parts = .ok ⟨header, start,
      parts.tokenRules ++ items.filterMap Item.token?, parts.skipNames ++ items.flatMap Item.skips,
      parts.parserRules ++ items.filterMap Item.rule?⟩ := by
  -- each declaration moves into the parts, so these are general
  induction items generalizing parts with
  | nil =>
      obtain rfl := toList_option_injective ((List.append_nil _).symm.trans hheader)
      obtain rfl := toList_option_injective ((List.append_nil _).symm.trans hstart)
      simp only [List.filterMap_nil, List.flatMap_nil, List.append_nil]
      rfl
  | cons item items ih =>
      obtain ⟨header', start', tokens, skips, rules⟩ := parts
      rw [List.foldlM_cons]
      cases item with
      | header text =>
          cases header' with
          | none => exact ih ⟨some text, start', tokens, skips, rules⟩ hheader hstart
          | some other => cases header <;> cases hheader
      | start name =>
          cases start' with
          | none => exact ih ⟨header', some name, tokens, skips, rules⟩ hheader hstart
          | some other => cases start <;> cases hstart
      | token t =>
          have hrun := ih ⟨header', start', tokens ++ [t], skips, rules⟩ hheader hstart
          rw [List.append_assoc] at hrun
          exact hrun
      | skip names =>
          have hrun := ih ⟨header', start', tokens, skips ++ names, rules⟩ hheader hstart
          rw [List.append_assoc] at hrun
          exact hrun
      | rule r =>
          have hrun := ih ⟨header', start', tokens, skips, rules ++ [r]⟩ hheader hstart
          rw [List.append_assoc] at hrun
          exact hrun

/-- The declarations of a grammar are collected to its parts. -/
theorem Declares.ofItems_eq (h : Declares items g) : ∃ header : Option String,
    header.getD "" = g.header ∧ Parts.ofItems items =
      .ok ⟨header, some g.startRule.name, g.tokenRules, g.skipNames, g.parserRules⟩ := by
  have hcollect : ∀ header : Option String, items.filterMap Item.header? = header.toList →
      Parts.ofItems items =
        .ok ⟨header, some g.startRule.name, g.tokenRules, g.skipNames, g.parserRules⟩ := by
    intro header hheader
    have hstart : [] ++ items.filterMap Item.start? = (some g.startRule.name).toList := h.start
    have hrun := foldlM_add {} hheader hstart
    simp only [h.tokens, h.skips, h.rules] at hrun
    exact hrun
  rcases h.header with hheader | ⟨hheader, hempty⟩
  · exact ⟨some g.header, rfl, hcollect _ hheader⟩
  · exact ⟨none, hempty.symm, hcollect _ hheader⟩

/-! ### Reading a description -/

/-- The declarations of a description are read. -/
theorem readItems_of_describes (h : Describes text items) : readItems text = .ok items := by
  obtain ⟨words, hform, hspells⟩ := h
  obtain ⟨placed, hplaced, rfl⟩ := lexemes_of_spells hspells
  have hread := Item.readAll_eq_ok_iff.mpr hform
  rw [readItems, hplaced]
  dsimp only
  rw [hread]

/-- A grammar that passes the checks passes them with its own parts. -/
theorem validate_self {header start : String} {tokenRules : List TokenRule}
    {skipNames : List String} {parserRules : List ParserRule}
    (h : Grammar.validate header tokenRules skipNames start parserRules = .ok g) :
    Grammar.validate g.header g.tokenRules g.skipNames g.startRule.name g.parserRules = .ok g := by
  let d : Draft := ⟨header, tokenRules, skipNames, start, parserRules⟩
  have hmakes := d.follows_validate.makes g h
  have hstart : g.startRule.name = start := by
    have hname := hmakes.start
    rw [Draft.ruleNames, ← hmakes.parserRules, List.getElem?_map, Option.map_eq_some_iff] at hname
    obtain ⟨r, hr, rfl⟩ := hname
    rw [Grammar.startRule, List.getD_eq_getElem?_getD, hr, Option.getD_some]
  rw [hmakes.header, hmakes.tokenRules, hmakes.skipNames, hmakes.parserRules, hstart]
  exact h

/-- A description of the declarations of a grammar is read as the grammar. -/
theorem read_of_describes
    (hg : Grammar.validate g.header g.tokenRules g.skipNames g.startRule.name g.parserRules = .ok g)
    (htrim : trim g.header.toList = g.header.toList) (hitems : Declares items g)
    (h : Describes text items) : read text = .ok g := by
  obtain ⟨header, hheader, hparts⟩ := hitems.ofItems_eq
  have hgrammar : Parts.toGrammar
      ⟨header, some g.startRule.name, g.tokenRules, g.skipNames, g.parserRules⟩ = .ok g := by
    rw [Parts.toGrammar]
    dsimp only
    rw [hheader, htrim, String.ofList_toList, hg]
  rw [read, readItems_of_describes h]
  exact bind_eq_ok.mpr ⟨items, rfl, bind_eq_ok.mpr ⟨_, hparts, hgrammar⟩⟩

/-! ### Printing a grammar -/

/-- The parts of a grammar can be written. -/
structure GrammarSpellable (g : Grammar) : Prop where
  header_trimmed : trim g.header.toList = g.header.toList
  header : Closes '\x7b' '\x7d' g.header
  token : ∀ t ∈ g.tokenRules, isTokenName t.name.toList = true ∧ isPaired t.pattern.toList = true
  rule : ∀ r ∈ g.parserRules, RuleSpellable r

private theorem GrammarSpellable.atomNamed (h : GrammarSpellable g) (hg : g.Valid) {r : ParserRule}
    (hr : r ∈ g.parserRules) {a : Atom} (ha : a ∈ r.atoms) : AtomNamed a := by
  constructor
  · intro hterminal
    obtain ⟨t, ht, hname⟩ := List.mem_map.mp (hg.terminal r hr a ha hterminal)
    rw [← hname]
    exact (h.token t (List.mem_of_mem_filter ht)).1
  · intro hnonterminal
    obtain ⟨r', hr', hname⟩ := List.mem_map.mp (hg.nonterminal r hr a ha hnonterminal)
    rw [← hname]
    exact (h.rule r' hr').name

/-- The declarations of a checked grammar can be written if its parts can. -/
theorem Declares.itemSpellable (hitems : Declares items g) (h : GrammarSpellable g)
    (hg : g.Checked) : ∀ item ∈ items, ItemSpellable item := by
  intro item hitem
  cases item with
  | header text =>
      have hmem : text ∈ items.filterMap Item.header? := List.mem_filterMap.mpr ⟨_, hitem, rfl⟩
      have htext : text = g.header := by
        rcases hitems.header with hheader | ⟨hheader, -⟩
        · rw [hheader] at hmem
          exact List.mem_singleton.mp hmem
        · rw [hheader] at hmem
          exact absurd hmem List.not_mem_nil
      exact .header (htext ▸ h.header)
  | token t =>
      have hmem : t ∈ g.tokenRules := by
        rw [← hitems.tokens]
        exact List.mem_filterMap.mpr ⟨_, hitem, rfl⟩
      exact .token (h.token t hmem).1 (h.token t hmem).2
  | skip names =>
      refine .skip (fun hnil => hitems.skips_nonempty (hnil ▸ hitem)) fun name hname => ?_
      have hmem : name ∈ g.skipNames := by
        rw [← hitems.skips]
        exact List.mem_flatMap.mpr ⟨_, hitem, hname⟩
      obtain ⟨t, ht, rfl⟩ := List.mem_map.mp (hg.knownSkips name hmem)
      exact (h.token t ht).1
  | start name =>
      have hmem : name ∈ items.filterMap Item.start? := List.mem_filterMap.mpr ⟨_, hitem, rfl⟩
      rw [hitems.start, List.mem_singleton] at hmem
      obtain rfl := hmem
      rw [Grammar.startRule, List.getD_eq_getElem _ _ hg.valid.start]
      exact .start (h.rule _ (List.getElem_mem hg.valid.start)).name
  | rule r =>
      have hmem : r ∈ g.parserRules := by
        rw [← hitems.rules]
        exact List.mem_filterMap.mpr ⟨_, hitem, rfl⟩
      exact .rule (h.rule r hmem) fun a ha => h.atomNamed hg.valid hmem ha

/-- A checked grammar whose parts can be written is read from what is printed for its declarations,
in whatever order these are, and from every other text that describes them. -/
theorem read_print {header start : String} {tokenRules : List TokenRule} {skipNames : List String}
    {parserRules : List ParserRule}
    (h : Grammar.validate header tokenRules skipNames start parserRules = .ok g)
    (hg : GrammarSpellable g) (hitems : Declares items g) :
    read (print items) = .ok g ∧ ∀ text, Describes text items → read text = .ok g := by
  have hread : ∀ text, Describes text items → read text = .ok g := fun text htext =>
    read_of_describes (validate_self h) hg.header_trimmed hitems htext
  -- the printed text is one of the texts that describe the declarations
  have hspellable := hitems.itemSpellable hg (Grammar.checked_of_validate h)
  exact ⟨hread _ (describes_print hspellable), hread⟩

/-- The rule of a sum begins with a number or a quote. -/
def sumRule : ParserRule where
  name := "expr"
  arguments := []
  returns := ⟨"res", "Vec<(i64, bool)>"⟩
  alternatives :=
    [.sequence none [⟨"n", "NUM", .terminal, none⟩,
        ⟨"t", "tail", .nonterminal ["n.text", "(0, false)"], some " res = \x7b t \x7d; "⟩],
      .sequence none [⟨"_", "QUOTE", .terminal, none⟩, ⟨"_", "expr", .nonterminal [], none⟩]]

/-- The rule of what may follow in a sum. -/
def tailRule : ParserRule where
  name := "tail"
  arguments := [⟨"acc", "i64"⟩, ⟨"f", "fn(A, B) -> Pair<A, B>"⟩]
  returns := ⟨"res", "()"⟩
  alternatives :=
    [.sequence (some "let \"\x7d\" = 0;")
        [⟨"_", "PLUS", .terminal, none⟩, ⟨"res", "expr", .nonterminal [], none⟩],
      .epsilon none (some " // \x7d\n")]

/-- A grammar with quotes and backslashes in its patterns, delimiters in its code that do not count,
and commas in brackets. -/
def sums : Grammar where
  header := "use fmt;"
  tokenRules := [⟨"WS", " +"⟩, ⟨"NUM", "[0-9]+"⟩, ⟨"PLUS", "\\+"⟩, ⟨"QUOTE", "\""⟩]
  skipNames := ["WS"]
  start := 0
  parserRules := [sumRule, tailRule]

/-- The declarations of the grammar, those of different kinds mixed. -/
def sumsItems : List Item :=
  [.start "expr", .token ⟨"WS", " +"⟩, .rule sumRule, .token ⟨"NUM", "[0-9]+"⟩, .header "use fmt;",
    .skip ["WS"], .token ⟨"PLUS", "\\+"⟩, .rule tailRule, .token ⟨"QUOTE", "\""⟩]

/-- The declarations of `sumsItems` are those of the grammar of sums. -/
theorem declares_sums : Declares sumsItems sums :=
  ⟨.inl rfl, rfl, rfl, by decide, rfl, rfl⟩

/-- The rule of sums can be spelled. -/
theorem ruleSpellable_sumRule : RuleSpellable sumRule where
  name := by decide
  argument := List.forall_mem_nil _
  arguments := nofun
  result := ⟨by decide, by decide, by decide, by decide⟩
  returns := fun _ => rfl
  nonempty := nofun
  alternatives := by
    have harguments : ListSpellable false ["n.text", "(0, false)"] := by
      refine ⟨?_, fun text htext => ?_⟩
      · rw [List.forall_mem_cons, List.forall_mem_singleton]
        exact ⟨⟨by decide, by decide, by decide⟩, ⟨by decide, by decide, by decide⟩⟩
      · obtain rfl := Option.some.inj htext
        exact fun _ => rfl
    have haction : CodeSpellable (some " res = \x7b t \x7d; ") := by
      rintro _ ⟨⟩
      exact fun _ => rfl
    have hplain : ListSpellable false [] := ⟨List.forall_mem_nil _, nofun⟩
    rw [sumRule, List.forall_mem_cons, List.forall_mem_singleton]
    refine ⟨.sequence nofun nofun ?_, .sequence nofun nofun ?_⟩
    · rw [List.forall_mem_cons, List.forall_mem_singleton]
      exact ⟨⟨by decide, hplain, nofun⟩, ⟨by decide, harguments, haction⟩⟩
    · rw [List.forall_mem_cons, List.forall_mem_singleton]
      exact ⟨⟨by decide, hplain, nofun⟩, ⟨by decide, hplain, nofun⟩⟩

/-- The rule of the tail of a sum can be spelled. -/
theorem ruleSpellable_tailRule : RuleSpellable tailRule where
  name := by decide
  argument := by
    rw [tailRule, List.forall_mem_cons, List.forall_mem_singleton]
    exact ⟨⟨by decide, by decide, by decide, by decide⟩,
      ⟨by decide, by decide, by decide, by decide⟩⟩
  arguments := by
    intro text htext
    obtain rfl := Option.some.inj htext
    exact fun _ => rfl
  result := ⟨by decide, by decide, by decide, by decide⟩
  returns := fun _ => rfl
  nonempty := nofun
  alternatives := by
    have hinit : CodeSpellable (some "let \"\x7d\" = 0;") := by
      rintro _ ⟨⟩
      exact fun _ => rfl
    have hcode : CodeSpellable (some " // \x7d\n") := by
      rintro _ ⟨⟩
      exact fun _ => rfl
    have hplain : ListSpellable false [] := ⟨List.forall_mem_nil _, nofun⟩
    rw [tailRule, List.forall_mem_cons, List.forall_mem_singleton]
    refine ⟨.sequence hinit nofun ?_, .epsilon nofun hcode⟩
    rw [List.forall_mem_cons, List.forall_mem_singleton]
    exact ⟨⟨by decide, hplain, nofun⟩, ⟨by decide, hplain, nofun⟩⟩

/-- The grammar of sums can be spelled. -/
theorem grammarSpellable_sums : GrammarSpellable sums where
  header_trimmed := by decide
  header := fun _ => rfl
  token := by decide
  rule := by
    rw [sums, List.forall_mem_cons, List.forall_mem_singleton]
    exact ⟨ruleSpellable_sumRule, ruleSpellable_tailRule⟩

set_option maxRecDepth 4000 in
/-- The grammar of sums is valid and is read back from the print of its declarations. -/
theorem read_print_sums :
    Grammar.validate "use fmt;" sums.tokenRules ["WS"] "expr" sums.parserRules = .ok sums ∧
      GrammarSpellable sums ∧ Declares sumsItems sums ∧ read (print sumsItems) = .ok sums := by
  have accepted : Grammar.validate "use fmt;" sums.tokenRules ["WS"] "expr" sums.parserRules =
      .ok sums := rfl
  exact ⟨accepted, grammarSpellable_sums, declares_sums,
    (read_print accepted grammarSpellable_sums declares_sums).1⟩

end Descent.Description
