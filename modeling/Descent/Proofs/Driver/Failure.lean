import Descent.Proofs.Driver.Exact
import Descent.Proofs.Driver.Locality

/-!
# The driver fails at the first impossible token

The driver takes alternatives that can be empty on every token that can follow their
rule somewhere, so it may end rules on a token that fits nowhere. It still never takes
such a token: what it has taken when it fails begins a sentence of the grammar, and no
sentence goes on with the token at which it fails. The report does not list that token
among the expected ones.
-/

namespace Descent.Grammar

open Descent.Parser Productions

variable {g : Grammar} {a : Analysis} {atoms : List Atom} {name : String} {w : List String}
  {u v : List String} {s s' : Standing String} {e : ParseError CallLimit}

/-- Every rule derives a sequence of tokens. -/
def Productive (g : Grammar) : Prop := ∀ r ∈ g.parserRules, ∃ tree, g.IsTreeOf r.name tree

/-- The failure lists what was expected, and the current token is none of it. -/
def Misfit (e : ParseError CallLimit) (s : Standing String) : Prop :=
  ∃ names, e = .unfit (.unexpected names s.token) ∧ s.kind ∉ names

/-- The trees of a rule that an atom calls derive the atom. -/
theorem Derivation.rule {x : Atom} {tree : ParseTree} {parts : List ParseTree}
    (hx : x.isTerminal = false) (htree : g.IsTreeOf x.name tree) (h : g.Derivation atoms parts) :
    g.Derivation (x :: atoms) (tree :: parts) := by
  obtain ⟨r, hr, hname, alt, i, inner, halt, hinner, rfl⟩ := htree
  exact .node hx hr hname halt hinner h

/-- The atoms call rules of the grammar only, and wait for no end of input. -/
structure Sensible (g : Grammar) (atoms : List Atom) : Prop where
  rule : ∀ x ∈ atoms, x.isTerminal = false → ∃ r ∈ g.parserRules, r.name = x.name
  terminal : ∀ x ∈ atoms, x.isTerminal = true → x.name ≠ endName

/-- Behind a sensible atom the atoms are sensible. -/
theorem Sensible.tail {x : Atom} (h : g.Sensible (x :: atoms)) : g.Sensible atoms where
  rule y hy := h.rule y (List.mem_cons_of_mem x hy)
  terminal y hy := h.terminal y (List.mem_cons_of_mem x hy)

/-- The atoms of each alternative of a valid grammar are sensible. -/
theorem Valid.sensible (hg : g.Valid) {r : ParserRule} {alt : Alternative}
    (hr : r ∈ g.parserRules) (halt : alt ∈ r.alternatives) : g.Sensible alt.atoms where
  rule _ hx := hg.exists_rule hr halt hx
  terminal := hg.terminal_ne_endName hr halt

/-- In a productive grammar all atoms derive sequences of tokens. -/
theorem Productive.exists_derivation (hg : g.Productive) (hatoms : g.Sensible atoms) :
    ∃ parts, g.Derivation atoms parts := by
  induction atoms with
  | nil => exact ⟨[], .nil⟩
  | cons x rest ih =>
      obtain ⟨parts, hrest⟩ := ih hatoms.tail
      cases hx : x.isTerminal with
      | true => exact ⟨_, .token hx hrest⟩
      | false =>
          obtain ⟨r, hr, hname⟩ := hatoms.rule x List.mem_cons_self hx
          obtain ⟨tree, htree⟩ := hg r hr
          exact ⟨_, .rule hx (hname ▸ htree) hrest⟩

/-- A call of a rule that fails within its limit fails at a token that does not fit, and what it has
taken begins a sequence that the rule derives. -/
def FailingCalls (g : Grammar) (call : String → Parser String CallLimit ParseTree) : Prop :=
  ∀ ⦃name s w e s'⦄, (∃ r ∈ g.parserRules, r.name = name) → s.Reads endName w →
    (call name).Gives s (.error e) s' → e ≠ .action .reached →
    Misfit e s' ∧ ∃ u v tree, w = u ++ v ∧ s'.Reads endName v ∧ g.IsTreeOf name tree ∧
      u <+: tree.yield

/-- Atoms that fail have taken the beginning of a sequence that they derive: those in front are
derived by their trees, the one that fails takes the beginning of a sequence of its own, and the
others derive something. -/
theorem FailingCalls.runAtoms {call : String → Parser String CallLimit ParseTree}
    (hfail : g.FailingCalls call) (hsound : g.SoundCalls call) (hg : g.Productive)
    (hatoms : g.Sensible atoms) (hs : s.Reads endName w)
    (hrun : (Grammar.runAtoms call atoms).Gives s (.error e) s') (he : e ≠ .action .reached) :
    Misfit e s' ∧ ∃ u v parts, w = u ++ v ∧ s'.Reads endName v ∧ g.Derivation atoms parts ∧
      u <+: ParseTree.yieldAll parts := by
  induction atoms generalizing s w with
  | nil => cases (gives_pure.mp hrun).1
  | cons x rest ih =>
      rcases gives_runAtoms_cons_error hrun with hx | ⟨part, t, hx, hrest⟩
      · -- the first atom fails, and the others derive something
        obtain ⟨parts, hparts⟩ := hg.exists_derivation hatoms.tail
        cases hkind : x.isTerminal with
        | true =>
            rw [runAtom_of_terminal hkind] at hx
            rcases gives_terminal_error hx with ⟨hne, rfl, rfl⟩ | ⟨hname, hnext⟩
            · exact ⟨⟨_, rfl, by rwa [List.mem_singleton]⟩, [], w, _, rfl, hs,
                .token hkind hparts, List.nil_prefix⟩
            · have hne := hatoms.terminal x List.mem_cons_self hkind
              obtain ⟨_, t, -, hnext', -⟩ := hs.advance (α := CallLimit) (hname ▸ hne)
              cases (hnext.unique hnext').1
        | false =>
            rw [runAtom_of_nonterminal hkind] at hx
            obtain ⟨hmisfit, u, v, tree, hw, hv, htree, hu⟩ :=
              hfail (hatoms.rule x List.mem_cons_self hkind) hs hx he
            exact ⟨hmisfit, u, v, _, hw, hv, .rule hkind htree hparts,
              hu.trans (List.prefix_append _ _)⟩
      · -- the first atom has taken the yield of its tree, and one of the others fails
        cases hkind : x.isTerminal with
        | true =>
            obtain ⟨hname, rfl, hnext⟩ := gives_runAtom_terminal hkind hx
            have hne := hatoms.terminal x List.mem_cons_self hkind
            obtain ⟨v, t', rfl, hnext', ht⟩ := hs.advance (α := CallLimit) (hname ▸ hne)
            obtain ⟨-, rfl⟩ := hnext.unique hnext'
            obtain ⟨hmisfit, u, v, parts, rfl, hv, hparts, hu⟩ := ih hatoms.tail ht hrest
            refine ⟨hmisfit, s.kind :: u, v, _, rfl, hv, .token hkind hparts, ?_⟩
            rw [hname]
            exact (List.prefix_append_right_inj [x.name]).mpr hu
        | false =>
            rw [runAtom_of_nonterminal hkind] at hx
            obtain ⟨v, rfl, htree, ht⟩ := hsound hx hs
            obtain ⟨hmisfit, u, v, parts, rfl, hv, hparts, hu⟩ := ih hatoms.tail ht hrest
            exact ⟨hmisfit, _, v, _, (List.append_assoc _ _ _).symm, hv,
              .rule hkind htree hparts, (List.prefix_append_right_inj _).mpr hu⟩

namespace Analysed

variable (h : g.Analysed a)
include h

/-- A token that selects no arm of a rule is none of the expected ones. -/
theorem not_mem_expected {kind : String} (harm : g.arm? a name kind = none) :
    kind ∉ a.tokenNames (a.expected (g.ruleId name)) := by
  intro hmem
  cases hat : g.parserRules[g.ruleId name]? with
  | none =>
      have hnone : a.markers.getD (g.ruleId name) [] = [] := by
        rw [h.markers, getD_markerSets, alternatives, lowered, List.getD_eq_getElem?_getD,
          List.getElem?_map, hat]
        rfl
      rw [Analysis.expected, hnone] at hmem
      exact List.not_mem_nil hmem
  | some r =>
      rw [h.mem_tokenNames fun t ht => h.lt_length_of_mem_expected hat ht,
        h.mem_expected hat] at hmem
      obtain ⟨alt, hmem, ht⟩ := hmem
      obtain ⟨i, halt⟩ := List.mem_iff_getElem?.mp hmem
      rw [arm?, hat, Option.bind_some, List.find?_eq_none] at harm
      refine harm (alt, i) (List.mk_mem_zipIdx_iff_getElem?.mpr halt) ?_
      rw [List.contains_iff_mem]
      exact (h.mem_tokenNames_markersOf hat halt).mpr ht

/-- At every depth the rules fail at the first token that does not fit. -/
theorem failingCalls (hg : g.Productive) (depth : Nat) : g.FailingCalls (g.runRule a depth) := by
  induction depth with
  | zero =>
      intro name s w e s' _ _ hrun he
      obtain ⟨heq, -⟩ := gives_act_error.mp hrun
      exact absurd (Except.error.inj heq) he
  | succ depth ih =>
      rintro name s w e s' ⟨r, hr, rfl⟩ hs hrun he
      rcases gives_runRule_error hrun with ⟨harm, rfl, rfl⟩ | ⟨alt, i, harm, hatoms⟩
      · obtain ⟨tree, htree⟩ := hg r hr
        exact ⟨⟨_, rfl, h.not_mem_expected harm⟩, [], w, tree, rfl, hs, htree, List.nil_prefix⟩
      · obtain ⟨r', hr', hname, halt, -⟩ := h.exists_rule_of_arm? harm
        obtain ⟨hmisfit, u, v, parts, rfl, hv, hd, hu⟩ := ih.runAtoms (h.soundCalls depth) hg
          (h.valid.sensible hr' (List.mem_of_getElem? halt)) hs hatoms he
        exact ⟨hmisfit, u, v, _, rfl, hv, ⟨r', hr', hname, alt, i, parts, halt, hd, rfl⟩, hu⟩

/-- No sentence goes on with the token at which the driver fails: on the sentence the driver would
fail there as well. -/
theorem not_prefix_of_ends (hs : s.upcoming.Spells endName (u ++ v)) (hv : s'.Reads endName v)
    (hend : Ends (g.drive a) s (.error e) s') {tree : ParseTree}
    (htree : g.IsTreeOf g.startRule.name tree) :
    ¬ u ++ [s'.kind] <+: tree.yield ++ [endName] := by
  rintro ⟨z, hz⟩
  obtain ⟨v₂, hyield, hhead⟩ : ∃ v₂, tree.yield = u ++ v₂ ∧ v₂.headD endName = s'.kind := by
    rw [List.append_assoc, List.singleton_append] at hz
    rcases append_eq_append_cons hz.symm with ⟨c, hyield, -⟩ | ⟨c, rfl, hlast⟩
    · exact ⟨s'.kind :: c, hyield, rfl⟩
    · cases c with
      | nil => exact ⟨[], by rw [List.append_nil, List.append_nil], (List.cons.inj hlast).1⟩
      | cons y c => simp at hlast
  obtain ⟨hlimit, depth, hrun⟩ := hend
  obtain ⟨u', v', heq, hv', hsame⟩ := h.local_drive depth s (u ++ v) _ _ hs hrun
  obtain rfl := hv.unique hv'
  obtain rfl := List.append_cancel_right heq
  have hspells : (Stream.ofWord endName id tree.yield).Spells endName (u ++ v₂) :=
    hyield ▸ Stream.spells_ofWord id (htree.endName_not_mem h.valid)
  obtain ⟨r₂, s₂, hrun₂, -, hr₂⟩ := hsame ⟨endName, .atEnd 0, _⟩ v₂ hspells
    (hhead.trans hv.kind_eq)
  obtain ⟨e₂, rfl, he₂⟩ := verdict_eq_error hr₂
  have hlimit₂ : (.error e₂ : Except (ParseError CallLimit) ParseTree) ≠
      .error (.action .reached) := by
    intro heq₂
    rw [Except.error.inj heq₂] at he₂
    simp only [decide_true, Bool.true_eq, decide_eq_true_eq] at he₂
    exact hlimit (congrArg _ he₂)
  rw [← hyield] at hspells
  obtain ⟨_, hsuccess⟩ := h.ends_of_isTreeOf (s := ⟨endName, .atEnd 0, _⟩) htree hspells
  cases (steady_drive.unique ⟨hlimit₂, depth, hrun₂⟩ hsuccess).1

/-- Where the driver fails, it fails at a token that does not fit and has taken the beginning of a
sentence, or it stands behind a whole sentence in front of something else than the end. -/
theorem drive_failure (hg : g.Productive) (hs : s.upcoming.Spells endName w)
    (hend : Ends (g.drive a) s (.error e) s') :
    ∃ u v, w = u ++ v ∧ s'.Reads endName v ∧
      ((Misfit e s' ∧ ∃ tree, g.IsTreeOf g.startRule.name tree ∧ u <+: tree.yield) ∨
        (e = .unfit (.trailing s'.token) ∧
          ∃ tree, g.IsTreeOf g.startRule.name tree ∧ tree.yield = u)) := by
  obtain ⟨hlimit, depth, hrun⟩ := hend
  obtain ⟨t, hnext, ht⟩ := advance_reads (α := CallLimit) hs
  rcases (gives_whole_error hnext).mp hrun with hstart | ⟨tree, hstart, -, rfl⟩
  · obtain ⟨hmisfit, u, v, tree, hw, hv, htree, hu⟩ := h.failingCalls hg depth
      ⟨_, h.valid.startRule_mem, rfl⟩ ht hstart fun he => hlimit (congrArg _ he)
    exact ⟨u, v, hw, hv, Or.inl ⟨hmisfit, tree, htree, hu⟩⟩
  · obtain ⟨v, hw, htree, hv⟩ := h.soundCalls depth hstart ht
    exact ⟨tree.yield, v, hw, hv, Or.inr ⟨rfl, tree, htree, rfl⟩⟩

end Analysed

/-- In a grammar that is accepted and in which every rule derives something, the driver fails at the
first impossible token. What it has taken begins a sentence, and no sentence with the end behind it
begins with that and the token at which it fails. A token that does not fit is none of those that are
reported as expected, and something behind the start rule is reported only where a whole sentence has
been taken. -/
theorem drive_fails_at_first_impossible {header start : String} {tokenRules : List TokenRule}
    {skipNames : List String} {parserRules : List ParserRule}
    (hg : Grammar.validate header tokenRules skipNames start parserRules = .ok g)
    (ha : Analysis.ofGrammar g = .ok a) (hproductive : g.Productive)
    (hs : s.upcoming.Spells endName w) (hend : Ends (g.drive a) s (.error e) s') :
    ∃ u v, w = u ++ v ∧ s'.Reads endName v ∧
      (∃ tree, g.IsTreeOf g.startRule.name tree ∧ u <+: tree.yield) ∧
      (∀ tree, g.IsTreeOf g.startRule.name tree → ¬ u ++ [s'.kind] <+: tree.yield ++ [endName]) ∧
      ((∃ names, e = .unfit (.unexpected names s'.token) ∧ s'.kind ∉ names) ∨
        (e = .unfit (.trailing s'.token) ∧
          ∃ tree, g.IsTreeOf g.startRule.name tree ∧ tree.yield = u)) := by
  have h := (Grammar.valid_of_validate hg).analysed ha
  obtain ⟨u, v, rfl, hv, hfailure⟩ := h.drive_failure hproductive hs hend
  refine ⟨u, v, rfl, hv, ?_, fun tree htree => h.not_prefix_of_ends hs hv hend htree, ?_⟩
  · rcases hfailure with ⟨-, hbegins⟩ | ⟨-, tree, htree, rfl⟩
    · exact hbegins
    · exact ⟨tree, htree, List.prefix_refl _⟩
  · exact hfailure.imp (fun hmisfit => hmisfit.1) id

/-- In the grammar of nested pairs both rules derive the empty sequence. -/
theorem nested_productive : nested.Productive := by
  intro r hr
  have hpairs : nested.parserRules[1] ∈ nested.parserRules := List.getElem_mem _
  rcases List.mem_cons.mp hr with rfl | hr
  · exact ⟨.node "whole" 0 [.node "pairs" 1 []], _, List.mem_cons_self, rfl, _, 0, _, rfl,
      .node rfl hpairs rfl (i := 1) rfl .nil .nil, rfl⟩
  · obtain rfl := List.mem_singleton.mp hr
    exact ⟨.node "pairs" 1 [], _, hpairs, rfl, _, 1, [], rfl, .nil, rfl⟩

/-- On `A` alone the driver of the nested pairs ends the inner pairs at the end of input, which can
follow pairs elsewhere, and fails there for want of a `B`. -/
theorem drive_fails_at_first_impossible_nested :
    Grammar.validate nested.header nested.tokenRules nested.skipNames "whole" nested.parserRules =
      .ok nested ∧
    Analysis.ofGrammar nested = .ok nestedAnalysis ∧ nested.Productive ∧
    (Stream.ofWord endName id ["A"]).Spells endName ["A"] ∧
    Ends (nested.drive nestedAnalysis) ⟨endName, .atEnd 0, .ofWord endName id ["A"]⟩
      (.error (.unfit (.unexpected ["B"] (.atEnd 0)))) ⟨endName, .atEnd 0, .ofWord endName id []⟩ ∧
    (∃ tree, nested.IsTreeOf "whole" tree ∧ ["A"] <+: tree.yield) ∧
    ∀ tree, nested.IsTreeOf "whole" tree → ¬ ["A", endName] <+: tree.yield ++ [endName] := by
  have hspells : (Stream.ofWord endName id ["A"]).Spells endName ["A"] :=
    Stream.spells_ofWord id (by decide)
  have hend : Ends (nested.drive nestedAnalysis) ⟨endName, .atEnd 0, .ofWord endName id ["A"]⟩
      (.error (.unfit (.unexpected ["B"] (.atEnd 0))))
      ⟨endName, .atEnd 0, .ofWord endName id []⟩ := ⟨unfit_ne_limit, 3, rfl⟩
  obtain ⟨u, v, hw, hv, hbegins, hnone, -⟩ := drive_fails_at_first_impossible nested_accepted
    nested_analysed nested_productive hspells hend
  obtain rfl := hv.eq_nil rfl
  rw [List.append_nil] at hw
  subst hw
  exact ⟨nested_accepted, nested_analysed, nested_productive, hspells, hend, hbegins, hnone⟩

end Descent.Grammar
