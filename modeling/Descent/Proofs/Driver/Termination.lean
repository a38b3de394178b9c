import Descent.Proofs.Driver.Exact
import Descent.Proofs.Lookahead.CallOrder

/-!
# The driver comes to an end

Nothing in the analysis looks for left recursion, and yet the driver of an accepted
grammar never goes round in a circle. Rules that are called at one token without
consuming it are ordered by the well-founded calls of the productions, and every token
that is consumed leaves less of the input.
-/

namespace Descent.Grammar

open Descent.Parser Productions

variable {g : Grammar} {a : Analysis} {atoms : List Atom} {parts : List ParseTree}
  {tree : ParseTree} {t name : String} {w : List String} {s s' : Standing String} {depth n : Nat}

/-- At the token the rule is done without consuming one: it stands where it stood before. -/
def CompletesAt (g : Grammar) (a : Analysis) (t name : String) : Prop :=
  ∃ depth s w tree, s.Reads endName w ∧ s.kind = t ∧ (g.runRule a depth name).Gives s (.ok tree) s

/-- At the token the rule `x` calls the rule `y`: the arm that the token selects calls it behind
rules that are done at the token without consuming one. -/
def Calls (g : Grammar) (a : Analysis) (t x y : String) : Prop :=
  ∃ alt i before atom after, g.arm? a x t = some (alt, i) ∧
    alt.atoms = before ++ atom :: after ∧ atom.isTerminal = false ∧ atom.name = y ∧
    ∀ b ∈ before, b.isTerminal = false ∧ g.CompletesAt a t b.name

/-- The symbol is done at the token without consuming it, in the productions of the grammar. -/
abbrev PassesAt (g : Grammar) (t : String) (symbol : Symbol) : Prop :=
  g.lowered.Passes g.start (g.terminalId endName) (g.terminalId t) symbol

/-- The rule `n` calls the rule `m` at the token, in the productions of the grammar. -/
abbrev NumberCalls (g : Grammar) (t : String) (n m : Nat) : Prop :=
  g.lowered.CallsAt g.start (g.terminalId endName) (g.terminalId t) n m

/-- A call that succeeds with a tree without tokens has consumed none, and passes at the current
token. -/
def SilentCalls (g : Grammar) (call : String → Parser String CallLimit ParseTree) : Prop :=
  ∀ ⦃name : String⦄ ⦃tree : ParseTree⦄ ⦃s s' : Standing String⦄,
    (call name).Gives s (.ok tree) s' → tree.yield = [] →
      s' = s ∧ g.PassesAt s.kind (.rule (g.ruleId name))

/-- Atoms that succeed without tokens have consumed none and pass at the current token, if calls of
rules do. -/
theorem SilentCalls.runAtoms {call : String → Parser String CallLimit ParseTree}
    (hcall : g.SilentCalls call) (hrun : (Grammar.runAtoms call atoms).Gives s (.ok parts) s')
    (hyield : ParseTree.yieldAll parts = []) :
    s' = s ∧ ∀ x ∈ atoms, g.PassesAt s.kind (g.symbolOf x) := by
  induction atoms generalizing s parts with
  | nil =>
      obtain ⟨-, rfl⟩ := gives_pure.mp hrun
      exact ⟨rfl, fun x hx => absurd hx List.not_mem_nil⟩
  | cons x rest ih =>
      obtain ⟨part, inner, u, rfl, hpart, hrest⟩ := gives_runAtoms_cons_ok.mp hrun
      obtain ⟨hx, hinner⟩ := List.append_eq_nil_iff.mp hyield
      cases hkind : x.isTerminal with
      | true =>
          obtain ⟨-, rfl, -⟩ := gives_runAtom_terminal hkind hpart
          cases hx
      | false =>
          rw [runAtom_of_nonterminal hkind] at hpart
          obtain ⟨rfl, hpass⟩ := hcall hpart hx
          obtain ⟨rfl, hall⟩ := ih hrest hinner
          rw [← symbolOf_of_nonterminal hkind] at hpass
          exact ⟨rfl, List.forall_mem_cons.mpr ⟨hpass, hall⟩⟩

namespace Analysed

variable (h : g.Analysed a)
include h

/-- The calls of the driver are silent, at every depth. -/
theorem silentCalls (depth : Nat) : g.SilentCalls (g.runRule a depth) := by
  induction depth with
  | zero =>
      intro name tree s s' hrun _
      cases (gives_act_error.mp hrun).1
  | succ depth ih =>
      intro name tree s s' hrun hyield
      obtain ⟨alt, i, parts, harm, hatoms, rfl⟩ := gives_runRule_ok hrun
      obtain ⟨r, hr, rfl, halt, ht⟩ := h.exists_rule_of_arm? harm
      obtain ⟨rfl, hall⟩ := ih.runAtoms hatoms hyield
      have hmem := h.valid.mem_alternatives hr (List.mem_of_getElem? halt)
      exact ⟨rfl, .rule hmem ht (List.forall_mem_map.mpr hall)⟩

/-- A rule that is done without consuming the token passes at it. -/
theorem passes_of_completesAt (hc : g.CompletesAt a t name) :
    g.PassesAt t (.rule (g.ruleId name)) := by
  obtain ⟨depth, s, w, tree, hs, rfl, hrun⟩ := hc
  obtain ⟨v, hw, -, hv⟩ := h.soundCalls depth hrun hs
  have hyield : tree.yield = [] := by
    rw [hs.unique hv] at hw
    exact List.self_eq_append_left.mp hw
  exact (h.silentCalls depth hrun hyield).2

/-- The alternative that a token selects calls, behind atoms that pass at the token, what the
productions call. -/
theorem callsAt_of_passes {alt : Alternative} {i : Nat} {before after : List Atom} {x : Atom}
    (harm : g.arm? a name t = some (alt, i)) (hatoms : alt.atoms = before ++ x :: after)
    (hx : x.isTerminal = false) (hbefore : ∀ b ∈ before, g.PassesAt t (g.symbolOf b)) :
    g.NumberCalls t (g.ruleId name) (g.ruleId x.name) := by
  obtain ⟨r, hr, rfl, halt, ht⟩ := h.exists_rule_of_arm? harm
  have hmem := h.valid.mem_alternatives hr (List.mem_of_getElem? halt)
  rw [markersOf] at ht
  rw [hatoms, List.map_append, List.map_cons, symbolOf_of_nonterminal hx] at hmem ht
  exact ⟨_, _, hmem, ht, List.forall_mem_map.mpr hbefore⟩

/-- Where one rule calls another at a token, their numbers do so in the productions. -/
theorem callsAt_of_calls {x y : String} (hcalls : g.Calls a t x y) :
    g.NumberCalls t (g.ruleId x) (g.ruleId y) := by
  obtain ⟨alt, i, before, atom, after, harm, hatoms, hkind, rfl, hbefore⟩ := hcalls
  refine h.callsAt_of_passes harm hatoms hkind fun b hb => ?_
  obtain ⟨hb, hc⟩ := hbefore b hb
  rw [symbolOf_of_nonterminal hb]
  exact h.passes_of_completesAt hc

/-- The calls at one token never lead from a rule back to it. -/
theorem not_transGen_calls (t x : String) : ¬ Relation.TransGen (g.Calls a t) x x := by
  intro hcycle
  have hlift := Relation.TransGen.lift g.ruleId (fun _ _ hc => h.callsAt_of_calls hc) _ _ hcycle
  have hwf := (wellFounded_callsAt h.conflictFree (g.terminalId t)).transGen
  exact hwf.irrefl.irrefl _ (Relation.transGen_swap.mpr hlift)

/-- A rule that succeeds passes at the current token, or leaves less of the input. -/
theorem passes_or_lt (hs : s.Reads endName w) (hend : g.RuleEnds a name s (.ok tree) s') :
    (s' = s ∧ g.PassesAt s.kind (.rule (g.ruleId name))) ∨
      ∃ v, v.length < w.length ∧ s'.Reads endName v := by
  obtain ⟨-, depth, hrun⟩ := hend
  by_cases hyield : tree.yield = []
  · exact Or.inl (h.silentCalls depth hrun hyield)
  · obtain ⟨v, hw, -, hv⟩ := h.soundCalls depth hrun hs
    have hpos := List.length_pos_of_ne_nil hyield
    refine Or.inr ⟨v, ?_, hv⟩
    rw [hw, List.length_append]
    omega

end Analysed

/-- All rules come to an end on all words that are shorter than the bound. -/
def EndsBelow (g : Grammar) (a : Analysis) (bound : Nat) : Prop :=
  ∀ ⦃w : List String⦄, w.length < bound → ∀ ⦃s : Standing String⦄, s.Reads endName w →
    ∀ name, ∃ r s', g.RuleEnds a name s r s'

namespace Analysed

variable {bound : Nat}

/-- A terminal and the atoms behind it come to an end where these do on every shorter word. -/
private theorem exists_atomsEnd_terminal {x : Atom} {rest : List Atom} (hs : s.Reads endName w)
    (hx : x.isTerminal = true) (hne : x.name ≠ endName)
    (hrest : ∀ ⦃v : List String⦄, v.length < w.length → ∀ ⦃u : Standing String⦄,
      u.Reads endName v → ∃ r s', g.AtomsEnd a rest u r s') :
    ∃ r s', g.AtomsEnd a (x :: rest) s r s' := by
  by_cases hkind : s.kind = x.name
  · obtain ⟨v, u, hw, hnext, hu⟩ := hs.advance (hkind ▸ hne)
    have hlt : v.length < w.length := hw ▸ Nat.lt_succ_self _
    obtain ⟨r, s', hend⟩ := hrest hlt hu
    exact ⟨_, _, .token hx hkind hnext hend⟩
  · exact ⟨_, _, .token_ne hx hkind⟩

/-- Atoms come to an end where all the rules do. -/
theorem atomsEnd_of_endsBelow (h : g.Analysed a) (hbelow : g.EndsBelow a bound)
    (hatoms : ∀ x ∈ atoms, x.isTerminal = true → x.name ≠ endName) (hw : w.length < bound)
    (hs : s.Reads endName w) : ∃ r s', g.AtomsEnd a atoms s r s' := by
  induction atoms generalizing s w with
  | nil => exact ⟨_, _, .nil⟩
  | cons x rest ih =>
      have hrest := fun y hy => hatoms y (List.mem_cons_of_mem x hy)
      cases hx : x.isTerminal with
      | true =>
          have hne := hatoms x List.mem_cons_self hx
          exact exists_atomsEnd_terminal hs hx hne fun v hv u hu => ih hrest (by omega) hu
      | false =>
          obtain ⟨r, u, hcall⟩ := hbelow hw hs x.name
          cases r with
          | error e => exact ⟨_, _, .rule_error hx hcall⟩
          | ok tree =>
              rcases h.passes_or_lt hs hcall with ⟨rfl, -⟩ | ⟨v, hv, hu⟩
              · obtain ⟨r, s', hend⟩ := ih hrest hw hs
                exact ⟨_, _, .rule hx hcall hend⟩
              · obtain ⟨r, s', hend⟩ := ih hrest (by omega) hu
                exact ⟨_, _, .rule hx hcall hend⟩

/-- The atoms of the arm that is selected come to an end where the rules that are called at the
current token do, and all rules behind it. -/
theorem atomsEnd_of_arm (h : g.Analysed a) (hs : s.Reads endName w)
    (hbelow : g.EndsBelow a w.length) {alt : Alternative} {i : Nat}
    (harm : g.arm? a name s.kind = some (alt, i))
    (hcalls : ∀ y, g.NumberCalls s.kind (g.ruleId name) (g.ruleId y) →
      ∃ r s', g.RuleEnds a y s r s') :
    ∀ before, alt.atoms = before ++ atoms → (∀ b ∈ before, g.PassesAt s.kind (g.symbolOf b)) →
      ∃ r s', g.AtomsEnd a atoms s r s' := by
  have hatoms : ∀ x ∈ alt.atoms, x.isTerminal = true → x.name ≠ endName := by
    obtain ⟨r, hr, -, halt, -⟩ := h.exists_rule_of_arm? harm
    exact h.valid.terminal_ne_endName hr (List.mem_of_getElem? halt)
  induction atoms with
  | nil => exact fun _ _ _ => ⟨_, _, .nil⟩
  | cons x rest ih =>
      intro before heq hbefore
      have hrest : ∀ y ∈ rest, y.isTerminal = true → y.name ≠ endName :=
        fun y hy => hatoms y (by simp [heq, hy])
      cases hx : x.isTerminal with
      | true =>
          have hne := hatoms x (by simp [heq]) hx
          exact exists_atomsEnd_terminal hs hx hne fun v hv u hu =>
            h.atomsEnd_of_endsBelow hbelow hrest hv hu
      | false =>
          obtain ⟨r, u, hcall⟩ := hcalls x.name (h.callsAt_of_passes harm heq hx hbefore)
          cases r with
          | error e => exact ⟨_, _, .rule_error hx hcall⟩
          | ok tree =>
              rcases h.passes_or_lt hs hcall with ⟨rfl, hpass⟩ | ⟨v, hv, hu⟩
              -- the token is still there, and the atoms behind are reached with it
              · rw [← symbolOf_of_nonterminal hx] at hpass
                rw [List.append_cons] at heq
                have hpasses : ∀ b ∈ before ++ [x], g.PassesAt u.kind (g.symbolOf b) := by
                  simpa [or_imp, forall_and] using ⟨hbefore, hpass⟩
                obtain ⟨r, s', hend⟩ := ih (before ++ [x]) heq hpasses
                exact ⟨_, _, .rule hx hcall hend⟩
              · obtain ⟨r, s', hend⟩ := h.atomsEnd_of_endsBelow hbelow hrest hv hu
                exact ⟨_, _, .rule hx hcall hend⟩

/-- Every rule comes to an end on every word: the words that are left get shorter, and where they do
not the rules that are called go down. -/
theorem endsBelow (h : g.Analysed a) (bound : Nat) : g.EndsBelow a bound := by
  induction bound with
  | zero => exact fun _ hw => absurd hw (Nat.not_lt_zero _)
  | succ bound ih =>
      intro w hw s hs name
      have hbelow : g.EndsBelow a w.length := fun v hv => ih (by omega)
      have hacc := (wellFounded_callsAt h.conflictFree (g.terminalId s.kind)).apply (g.ruleId name)
      -- the rule is named by its number, on which the induction is
      generalize hn : g.ruleId name = n at hacc
      induction hacc generalizing name with
      | intro n _ ihCalls =>
          cases harm : g.arm? a name s.kind with
          | none => exact ⟨_, _, .no_arm harm⟩
          | some arm =>
              obtain ⟨r, s', hend⟩ := h.atomsEnd_of_arm hs hbelow harm
                (fun y hy => ihCalls (g.ruleId y) (hn ▸ hy) y rfl) [] (List.nil_append _).symm
                fun b hb => absurd hb List.not_mem_nil
              exact ⟨_, _, .arm harm hend⟩

/-- The driver comes to an end on every input. -/
theorem exists_ends (h : g.Analysed a) (hs : s.upcoming.Spells endName w) :
    ∃ r s', Ends (g.drive a) s r s' := by
  obtain ⟨u, hnext, hu⟩ := advance_reads hs
  obtain ⟨r, s', hr, depth, hstart⟩ := h.endsBelow (w.length + 1) (Nat.lt_succ_self _) hu
    g.startRule.name
  cases r with
  | error e =>
      exact ⟨.error e, s', hr, depth, whole_error hnext hstart⟩
  | ok tree =>
      by_cases hend : s'.kind = endName
      · have hwhole := gives_whole_ok.mpr ⟨u, hnext, hstart, hend⟩
        exact ⟨.ok tree, s', ok_ne_limit, depth, hwhole⟩
      · have hwhole := whole_trailing hnext hstart hend
        exact ⟨.error (.unfit (.trailing s'.token)), s', unfit_ne_limit, depth, hwhole⟩

end Analysed

/-- The driver of a grammar that is accepted comes to an end on every input: no calls at one token
lead from a rule back to it, be it by an atom in front or behind atoms that are done without
consuming the token. -/
theorem drive_terminates {header start : String} {tokenRules : List TokenRule}
    {skipNames : List String} {parserRules : List ParserRule}
    (hg : Grammar.validate header tokenRules skipNames start parserRules = .ok g)
    (ha : Analysis.ofGrammar g = .ok a) :
    (∀ t x, ¬ Relation.TransGen (g.Calls a t) x x) ∧
    ∀ (w : List String) (s : Standing String), s.upcoming.Spells endName w →
      ∃ r s', Ends (g.drive a) s r s' := by
  have h := (Grammar.valid_of_validate hg).analysed ha
  exact ⟨h.not_transGen_calls, fun w s hs => h.exists_ends hs⟩

/-- In the grammar of nested pairs the whole calls the pairs at `A`, but is not called again, and on
`B A`, which is no nested pair, the driver comes to an end. -/
theorem drive_terminates_nested :
    Grammar.validate nested.header nested.tokenRules nested.skipNames "whole" nested.parserRules =
      .ok nested ∧
    Analysis.ofGrammar nested = .ok nestedAnalysis ∧
    nested.Calls nestedAnalysis "A" "whole" "pairs" ∧
    ¬ nested.Calls nestedAnalysis "A" "pairs" "whole" ∧
    (Stream.ofWord endName id ["B", "A"]).Spells endName ["B", "A"] ∧
    ∃ r s', Ends (nested.drive nestedAnalysis)
      ⟨endName, .atEnd 0, .ofWord endName id ["B", "A"]⟩ r s' := by
  obtain ⟨hcycle, hends⟩ := drive_terminates nested_accepted nested_analysed
  have hspells : (Stream.ofWord endName id ["B", "A"]).Spells endName ["B", "A"] :=
    Stream.spells_ofWord id (by decide)
  have hcalls : nested.Calls nestedAnalysis "A" "whole" "pairs" :=
    ⟨_, 0, [], _, [], rfl, rfl, rfl, rfl, fun b hb => absurd hb List.not_mem_nil⟩
  refine ⟨nested_accepted, nested_analysed, hcalls, fun hback => ?_, hspells,
    hends _ ⟨endName, .atEnd 0, _⟩ hspells⟩
  exact hcycle "A" "whole" (.tail (.single hcalls) hback)

end Descent.Grammar
