import Descent.Proofs.Driver.Selection
import Descent.Proofs.Driver.Steps

/-!
# The driver finds the derivation tree

On the yield of a derivation tree the driver of an accepted grammar rebuilds the tree:
whatever is left of the input behind a part of the tree begins with a token that can
follow the part, so the arm of its alternative is the one that is selected. The other
way round a run that succeeds has built a derivation tree of what it has taken.
-/

namespace Descent.Grammar

open Descent.Parser Productions

variable {g : Grammar} {a : Analysis} {atoms : List Atom} {parts : List ParseTree}
  {tree : ParseTree} {name : String} {v w : List String} {s s' : Standing String} {depth : Nat}

/-- What trees derive, the productions derive. -/
theorem Derivation.derives (hg : g.Valid) (hd : g.Derivation atoms parts) :
    g.lowered.Derives (atoms.map g.symbolOf)
      ((ParseTree.yieldAll parts).map fun kind => .term (g.terminalId kind)) := by
  induction hd with
  | nil => exact Derives.refl _
  | token hx _ ih =>
      rw [List.map_cons, symbolOf_of_terminal hx]
      exact (Derives.refl [.term _]).append ih
  | @node x rest parts inner r alt i hx hr hname halt _ _ ihInner ih =>
      have hmem := hg.mem_alternatives hr (List.mem_of_getElem? halt)
      have hrule := Derives.rule hmem ihInner
      rw [List.map_cons, symbolOf_of_nonterminal hx, ← hname]
      simp only [ParseTree.yieldAll, ParseTree.yield, List.map_append]
      exact hrule.append ih

/-- The input in front of derived trees begins with a token that can begin the atoms or, if they
vanish, with what can stand behind them. -/
theorem Derivation.lookahead (hg : g.Valid) (hd : g.Derivation atoms parts) {around : TokenSet}
    (hv : g.terminalId (v.headD endName) ∈ around) :
    g.terminalId ((ParseTree.yieldAll parts ++ v).headD endName) ∈
      followOfSuffix (firstSets g.lowered) around (atoms.map g.symbolOf) := by
  have hderives := hd.derives hg
  rw [mem_followOfSuffix]
  cases hyield : ParseTree.yieldAll parts with
  | nil =>
      rw [hyield, List.map_nil] at hderives
      exact Or.inr ⟨epsilon_firstOf_iff.mpr hderives, hv⟩
  | cons kind rest =>
      rw [hyield, List.map_cons] at hderives
      exact Or.inl (mem_firstOf_iff.mpr ⟨_, hderives⟩)

namespace Analysed

variable (h : g.Analysed a)
include h

/-- The token in front of a derived alternative selects the arm of the alternative. -/
theorem arm?_of_derivation {r : ParserRule} {alt : Alternative} {i : Nat} (hr : r ∈ g.parserRules)
    (halt : r.alternatives[i]? = some alt) (hd : g.Derivation alt.atoms parts)
    (hs : s.Reads endName (ParseTree.yieldAll parts ++ v))
    (hv : g.terminalId (v.headD endName) ∈ g.following (g.ruleId r.name)) :
    g.arm? a r.name s.kind = some (alt, i) := by
  rw [hs.kind_eq]
  exact (h.arm?_eq_some_iff hr).mpr ⟨halt, hd.lookahead h.valid hv⟩

/-- What can begin the atoms behind a call, or stand behind the alternative if they vanish, can
follow the rule that is called. -/
theorem mem_following {n : Nat} {r r' : ParserRule} {alt : Alternative} {x : Atom}
    {before rest : List Atom} (hat : g.parserRules[n]? = some r) (halt : alt ∈ r.alternatives)
    (hatoms : alt.atoms = before ++ x :: rest) (hx : x.isTerminal = false)
    (hr' : r' ∈ g.parserRules) (hname : r'.name = x.name) {t : Nat}
    (ht : t ∈ followOfSuffix (firstSets g.lowered) (g.following n) (rest.map g.symbolOf)) :
    t ∈ g.following (g.ruleId r'.name) := by
  have hmem := mem_alternatives_lowered hat halt
  rw [hatoms, List.map_append, List.map_cons, symbolOf_of_nonterminal hx, ← hname] at hmem
  have hlt : g.ruleId r'.name < g.lowered.length := by
    obtain ⟨hlt, _⟩ := List.getElem?_eq_some_iff.mp (h.valid.getElem?_ruleId hr')
    simpa only [lowered, List.length_map] using hlt
  exact Productions.mem_following hlt ⟨_, hmem⟩ ht

/-- On input that begins with the yield of derived trees, the atoms run to the trees. -/
theorem atomsEnd_of_derivation (hd : g.Derivation atoms parts) :
    ∀ {n : Nat} {r : ParserRule} {alt : Alternative} {before : List Atom} {v : List String}
      {s : Standing String}, g.parserRules[n]? = some r → alt ∈ r.alternatives →
      alt.atoms = before ++ atoms → s.Reads endName (ParseTree.yieldAll parts ++ v) →
      g.terminalId (v.headD endName) ∈ g.following n →
      ∃ s', g.AtomsEnd a atoms s (.ok parts) s' ∧ s'.Reads endName v := by
  induction hd with
  | nil =>
      intro n r alt before v s _ _ _ hs _
      exact ⟨s, .nil, hs⟩
  | @token x rest parts hx _ ih =>
      intro n r alt before v s hat halt hatoms hs hv
      obtain ⟨hkind, -, hnext⟩ := hs
      obtain ⟨u, hadvance, hu⟩ := advance_reads hnext
      rw [List.append_cons] at hatoms
      obtain ⟨s', hend, hs'⟩ := ih hat halt hatoms hu hv
      exact ⟨s', .token hx hkind hadvance hend, hs'⟩
  | @node x rest parts inner r' alt' i hx hr' hname halt' hinner hrest ihInner ih =>
      intro n r alt before v s hat halt hatoms hs hv
      simp only [ParseTree.yieldAll, ParseTree.yield, List.append_assoc] at hs
      have hfollow := h.mem_following hat halt hatoms hx hr' hname (hrest.lookahead h.valid hv)
      have harm := h.arm?_of_derivation hr' halt' hinner hs hfollow
      obtain ⟨u, hcall, hu⟩ := ihInner (h.valid.getElem?_ruleId hr') (List.mem_of_getElem? halt')
        (List.nil_append _).symm hs hfollow
      rw [List.append_cons] at hatoms
      obtain ⟨s', hend, hs'⟩ := ih hat halt hatoms hu hv
      have hrule := RuleEnds.arm harm hcall
      rw [hname] at hrule
      exact ⟨s', .rule hx hrule hend, hs'⟩

/-- On input that begins with the yield of a derivation tree, its rule runs to the tree. -/
theorem ruleEnds_of_isTreeOf (htree : g.IsTreeOf name tree)
    (hs : s.Reads endName (tree.yield ++ v))
    (hv : g.terminalId (v.headD endName) ∈ g.following (g.ruleId name)) :
    ∃ s', g.RuleEnds a name s (.ok tree) s' ∧ s'.Reads endName v := by
  obtain ⟨r, hr, rfl, alt, i, inner, halt, hd, rfl⟩ := htree
  have harm := h.arm?_of_derivation hr halt hd hs hv
  obtain ⟨s', hend, hs'⟩ := h.atomsEnd_of_derivation hd (h.valid.getElem?_ruleId hr)
    (List.mem_of_getElem? halt) (List.nil_append _).symm hs hv
  exact ⟨s', .arm harm hend, hs'⟩

end Analysed

/-- What the calls succeed with is a derivation tree of what they have taken. -/
def SoundCalls (g : Grammar) (call : String → Parser String CallLimit ParseTree) : Prop :=
  ∀ ⦃name : String⦄ ⦃tree : ParseTree⦄ ⦃s s' : Standing String⦄ ⦃w : List String⦄,
    (call name).Gives s (.ok tree) s' → s.Reads endName w →
      ∃ v, w = tree.yield ++ v ∧ g.IsTreeOf name tree ∧ s'.Reads endName v

/-- Atoms that succeed have taken the yield of trees that derive them. -/
theorem SoundCalls.runAtoms {call : String → Parser String CallLimit ParseTree}
    (hcall : g.SoundCalls call) (hatoms : ∀ x ∈ atoms, x.isTerminal = true → x.name ≠ endName)
    (hrun : (Grammar.runAtoms call atoms).Gives s (.ok parts) s') (hs : s.Reads endName w) :
    ∃ v, w = ParseTree.yieldAll parts ++ v ∧ g.Derivation atoms parts ∧ s'.Reads endName v := by
  induction atoms generalizing s parts w with
  | nil =>
      obtain ⟨hparts, rfl⟩ := gives_pure.mp hrun
      obtain rfl := Except.ok.inj hparts
      exact ⟨w, rfl, .nil, hs⟩
  | cons x rest ih =>
      obtain ⟨part, inner, u, rfl, hpart, hrest⟩ := gives_runAtoms_cons_ok.mp hrun
      have hatomsRest := fun y hy => hatoms y (List.mem_cons_of_mem x hy)
      cases hx : x.isTerminal with
      | true =>
          obtain ⟨hkind, rfl, hnext⟩ := gives_runAtom_terminal hx hpart
          have hne := hatoms x List.mem_cons_self hx
          obtain ⟨v, u', rfl, hnext', hu⟩ := hs.advance (α := CallLimit) (hkind ▸ hne)
          obtain ⟨-, rfl⟩ := hnext.unique hnext'
          obtain ⟨v, rfl, hd, hs'⟩ := ih hatomsRest hrest hu
          rw [hkind]
          exact ⟨v, rfl, .token hx hd, hs'⟩
      | false =>
          rw [runAtom_of_nonterminal hx] at hpart
          obtain ⟨v, rfl, htree, hu⟩ := hcall hpart hs
          obtain ⟨v, rfl, hd, hs'⟩ := ih hatomsRest hrest hu
          obtain ⟨r, hr, hname, alt, i, parts, halt, hinner, rfl⟩ := htree
          exact ⟨v, (List.append_assoc _ _ _).symm, .node hx hr hname halt hinner hd, hs'⟩

/-- A rule that succeeds at whatever depth has built a derivation tree of what it has taken. -/
theorem Analysed.soundCalls (h : g.Analysed a) (depth : Nat) :
    g.SoundCalls (g.runRule a depth) := by
  induction depth with
  | zero =>
      intro name tree s s' w hrun _
      cases (gives_act_error.mp hrun).1
  | succ depth ih =>
      intro name tree s s' w hrun hs
      obtain ⟨alt, i, parts, harm, hatoms, rfl⟩ := gives_runRule_ok hrun
      obtain ⟨r, hr, rfl, halt, -⟩ := h.exists_rule_of_arm? harm
      have hne := h.valid.terminal_ne_endName hr (List.mem_of_getElem? halt)
      obtain ⟨v, rfl, hd, hs'⟩ := ih.runAtoms hne hatoms hs
      exact ⟨v, rfl, ⟨r, hr, rfl, alt, i, parts, halt, hd, rfl⟩, hs'⟩

/-- Trees that derive atoms have tokens that a lexer hands on. -/
theorem Derivation.endName_not_mem (hg : g.Valid) (hd : g.Derivation atoms parts) :
    (∀ x ∈ atoms, x.isTerminal = true → x.name ≠ endName) →
      endName ∉ ParseTree.yieldAll parts := by
  induction hd with
  | nil => exact fun _ => List.not_mem_nil
  | @token x rest parts hx _ ih =>
      intro hatoms hmem
      rcases List.mem_cons.mp hmem with heq | hmem
      · exact hatoms x List.mem_cons_self hx heq.symm
      · exact ih (fun y hy => hatoms y (List.mem_cons_of_mem x hy)) hmem
  | @node x rest parts inner r alt i _ hr _ halt _ _ ihInner ih =>
      intro hatoms hmem
      rcases List.mem_append.mp hmem with hmem | hmem
      · exact ihInner (hg.terminal_ne_endName hr (List.mem_of_getElem? halt)) hmem
      · exact ih (fun y hy => hatoms y (List.mem_cons_of_mem x hy)) hmem

/-- The end of input is no token of a derivation tree. -/
theorem IsTreeOf.endName_not_mem (hg : g.Valid) (htree : g.IsTreeOf name tree) :
    endName ∉ tree.yield := by
  obtain ⟨r, hr, -, alt, i, inner, halt, hd, rfl⟩ := htree
  exact hd.endName_not_mem hg (hg.terminal_ne_endName hr (List.mem_of_getElem? halt))

/-- The driver rebuilds the derivation tree that its input is the yield of. -/
theorem Analysed.ends_of_isTreeOf (h : g.Analysed a) (htree : g.IsTreeOf g.startRule.name tree)
    (hs : s.upcoming.Spells endName tree.yield) : ∃ s', Ends (g.drive a) s (.ok tree) s' := by
  obtain ⟨u, hadvance, hu⟩ := advance_reads (α := CallLimit) hs
  have hstart : g.terminalId endName ∈ g.following (g.ruleId g.startRule.name) := by
    rw [h.valid.ruleId_startRule]
    refine followRising_followSets.seeded ?_
    simpa only [lowered, List.length_map] using h.valid.start
  rw [← List.append_nil tree.yield] at hu
  obtain ⟨s', ⟨hr, depth, hrun⟩, hend⟩ := h.ruleEnds_of_isTreeOf htree hu hstart
  exact ⟨s', ok_ne_limit, depth, gives_whole_ok.mpr ⟨u, hadvance, hrun, hend.kind_eq⟩⟩

/-- A run of the driver that succeeds has built a derivation tree of the whole input. -/
theorem Analysed.isTreeOf_of_gives (h : g.Analysed a) (hs : s.upcoming.Spells endName w)
    (hrun : (g.drive a depth).Gives s (.ok tree) s') :
    g.IsTreeOf g.startRule.name tree ∧ tree.yield = w := by
  obtain ⟨u, hadvance, hstart, hend⟩ := gives_whole_ok.mp hrun
  obtain ⟨u', hadvance', hu⟩ := advance_reads (α := CallLimit) hs
  obtain ⟨-, rfl⟩ := hadvance.unique hadvance'
  obtain ⟨v, rfl, htree, hs'⟩ := h.soundCalls depth hstart hu
  obtain rfl := hs'.eq_nil hend
  exact ⟨htree, (List.append_nil _).symm⟩

/-- More depth does not change a run of the driver that comes to an end. -/
theorem steady_drive : Steady (g.drive a) := fun _ _ hd =>
  (Parser.Refines.refl _).bind fun _ => (runRule_refines g a hd _).bind fun _ =>
    Parser.Refines.refl _

/-- A grammar that is accepted is unambiguous, and its driver is a parser for it: on input that is the
yield of a derivation tree it comes to an end with just that tree, and whenever it succeeds it has
built a derivation tree that the input is the yield of. -/
theorem drive_exact {header start : String} {tokenRules : List TokenRule} {skipNames : List String}
    {parserRules : List ParserRule}
    (hg : Grammar.validate header tokenRules skipNames start parserRules = .ok g)
    (ha : Analysis.ofGrammar g = .ok a) :
    (∀ tree tree', g.IsTreeOf g.startRule.name tree → g.IsTreeOf g.startRule.name tree' →
      tree.yield = tree'.yield → tree = tree') ∧
    ∀ (w : List String) (s : Standing String), s.upcoming.Spells endName w →
      (∀ tree, g.IsTreeOf g.startRule.name tree → tree.yield = w →
        ∃ s', Ends (g.drive a) s (.ok tree) s') ∧
      (∀ depth tree s', (g.drive a depth).Gives s (.ok tree) s' →
        g.IsTreeOf g.startRule.name tree ∧ tree.yield = w) := by
  have hvalid := Grammar.valid_of_validate hg
  have h := hvalid.analysed ha
  refine ⟨fun tree tree' htree htree' hyield => ?_, fun w s hs => ⟨?_, ?_⟩⟩
  · obtain ⟨s, hspells⟩ : ∃ s : Standing String, s.upcoming.Spells endName tree.yield :=
      ⟨⟨endName, .atEnd 0, _⟩, Stream.spells_ofWord id (htree.endName_not_mem hvalid)⟩
    obtain ⟨_, hends⟩ := h.ends_of_isTreeOf htree hspells
    obtain ⟨_, hends'⟩ := h.ends_of_isTreeOf htree' (hyield ▸ hspells)
    exact Except.ok.inj (steady_drive.unique hends hends').1
  · rintro tree htree rfl
    exact h.ends_of_isTreeOf htree hs
  · exact fun depth tree s' hrun => h.isTreeOf_of_gives hs hrun

/-- On `A B` the driver of the nested pairs builds the tree of a pair with nothing inside. -/
theorem drive_exact_nested :
    Grammar.validate nested.header nested.tokenRules nested.skipNames "whole" nested.parserRules =
      .ok nested ∧
    Analysis.ofGrammar nested = .ok nestedAnalysis ∧
    (Stream.ofWord endName id ["A", "B"]).Spells endName ["A", "B"] ∧
    ∃ s', Ends (nested.drive nestedAnalysis)
      ⟨endName, .atEnd 0, .ofWord endName id ["A", "B"]⟩
      (.ok (.node "whole" 0 [.node "pairs" 0 [.token "A", .node "pairs" 1 [], .token "B"]])) s' := by
  have hspells : (Stream.ofWord endName id ["A", "B"]).Spells endName ["A", "B"] :=
    Stream.spells_ofWord id (by decide)
  have hwhole : nested.startRule ∈ nested.parserRules := List.mem_cons_self
  have hpairs : nested.parserRules[1] ∈ nested.parserRules := List.getElem_mem _
  have hinner : nested.Derivation nested.parserRules[1].alternatives[0].atoms
      [.token "A", .node "pairs" 1 [], .token "B"] :=
    .token rfl (.node rfl hpairs rfl (i := 1) rfl .nil (.token rfl .nil))
  have htree : nested.IsTreeOf "whole" (.node "whole" 0 [.node "pairs" 0
      [.token "A", .node "pairs" 1 [], .token "B"]]) :=
    ⟨_, hwhole, rfl, _, 0, _, rfl, .node rfl hpairs rfl (i := 0) rfl hinner .nil, rfl⟩
  obtain ⟨_, hdrive⟩ := drive_exact nested_accepted nested_analysed
  exact ⟨nested_accepted, nested_analysed, hspells,
    (hdrive _ ⟨endName, .atEnd 0, _⟩ hspells).1 _ htree rfl⟩

end Descent.Grammar
