import Descent.Proofs.Driver.Depth

/-!
# The steps of the driver

One rule for each way in which a run of the driver goes on: how runs that come to an
end are put together from those of the atoms and the rules that are called, and how a
run that succeeds is taken apart.
-/

namespace Descent.Grammar

open Descent.Parser

variable {g : Grammar} {a : Analysis} {x : Atom} {rest : List Atom} {name : String}
  {s s' u : Standing String} {alt : Alternative} {i depth : Nat} {part tree : ParseTree}
  {parts : List ParseTree} {call : String → Parser String CallLimit ParseTree}
  {e : ParseError CallLimit}

/-- The run of a rule comes to an end. -/
def RuleEnds (g : Grammar) (a : Analysis) (name : String) (s : Standing String)
    (r : Except (ParseError CallLimit) ParseTree) (s' : Standing String) : Prop :=
  Ends (fun depth => g.runRule a depth name) s r s'

/-- The run of atoms one after the other comes to an end. -/
def AtomsEnd (g : Grammar) (a : Analysis) (atoms : List Atom) (s : Standing String)
    (r : Except (ParseError CallLimit) (List ParseTree)) (s' : Standing String) : Prop :=
  Ends (fun depth => runAtoms (g.runRule a depth) atoms) s r s'

/-- The run of a terminal waits for its token. -/
theorem runAtom_of_terminal (hx : x.isTerminal = true) :
    runAtom call x = terminal x.name x.name fun _ => .ok (.token x.name) := if_pos hx

/-- The run of a rule name calls the rule. -/
theorem runAtom_of_nonterminal (hx : x.isTerminal = false) : runAtom call x = call x.name := by
  rw [runAtom, hx, if_neg Bool.false_ne_true]

/-- More depth does not change the run of an atom that comes to an end. -/
theorem steady_runAtom (x : Atom) : Steady fun depth => runAtom (g.runRule a depth) x :=
  fun _ _ h => runAtom_refines (runRule_refines g a h) x

/-- More depth does not change the run of atoms that comes to an end. -/
theorem steady_runAtoms (atoms : List Atom) :
    Steady fun depth => runAtoms (g.runRule a depth) atoms :=
  fun _ _ h => runAtoms_refines (runRule_refines g a h) atoms

private theorem steady_const {β : Type} (p : Parser String CallLimit β) : Steady fun _ => p :=
  fun _ _ _ => Parser.Refines.refl p

/-- What is made of the value of a run that comes to an end. -/
theorem ends_map {β γ : Type} {p : Nat → Parser String CallLimit β} {f : β → γ}
    {r : Except (ParseError CallLimit) β} (hp : Steady p) (h : Ends p s r s') :
    Ends (fun d => p d >>= fun b => pure (f b)) s (r.map f) s' := by
  cases r with
  | error e => exact h.bind_error
  | ok b => exact h.bind hp (steady_const _) (.of_gives ok_ne_limit rfl)

/-- Where the run of an atom comes to an end with a tree, the atoms behind it go on. -/
private theorem AtomsEnd.cons {r : Except (ParseError CallLimit) (List ParseTree)}
    (h : Ends (fun depth => runAtom (g.runRule a depth) x) s (.ok part) u)
    (hrest : g.AtomsEnd a rest u r s') : g.AtomsEnd a (x :: rest) s (r.map (part :: ·)) s' := by
  have hcons := ends_map (f := (part :: ·)) (steady_runAtoms rest) hrest
  refine Ends.bind (steady_runAtom x) ?_ h hcons
  exact fun d d' hd => (steady_runAtoms rest d d' hd).bind fun _ => Parser.Refines.refl _

/-- The run of no atoms comes to an end where it begins. -/
theorem AtomsEnd.nil : g.AtomsEnd a [] s (.ok []) s := .of_gives ok_ne_limit rfl

/-- A token that an atom waits for is taken. -/
theorem AtomsEnd.token {r : Except (ParseError CallLimit) (List ParseTree)}
    (hx : x.isTerminal = true) (hkind : s.kind = x.name)
    (hnext : (advance : Parser String CallLimit Unit).Gives s (.ok ()) u)
    (h : g.AtomsEnd a rest u r s') :
    g.AtomsEnd a (x :: rest) s (r.map (.token x.name :: ·)) s' := by
  have hrun : (runAtom (g.runRule a 0) x).Gives s (.ok (.token x.name)) u := by
    rw [runAtom_of_terminal hx]
    exact gives_terminal_ok.mpr ⟨hkind, rfl, hnext⟩
  exact AtomsEnd.cons ⟨ok_ne_limit, 0, hrun⟩ h

/-- A token that is not the one that an atom waits for is reported. -/
theorem AtomsEnd.token_ne (hx : x.isTerminal = true) (hkind : s.kind ≠ x.name) :
    g.AtomsEnd a (x :: rest) s (.error (.unfit (.unexpected [x.name] s.token))) s := by
  have hrun : (runAtom (g.runRule a 0) x).Gives s
      (.error (.unfit (.unexpected [x.name] s.token))) s := by
    rw [runAtom_of_terminal hx]
    exact terminal_of_kind_ne hkind
  exact Ends.bind_error ⟨unfit_ne_limit, 0, hrun⟩

private theorem ends_runAtom (hx : x.isTerminal = false)
    {r : Except (ParseError CallLimit) ParseTree} (h : g.RuleEnds a x.name s r s') :
    Ends (fun depth => runAtom (g.runRule a depth) x) s r s' := by
  simp only [runAtom_of_nonterminal hx]
  exact h

/-- A rule is called, and the atoms behind it go on with its tree. -/
theorem AtomsEnd.rule {r : Except (ParseError CallLimit) (List ParseTree)}
    (hx : x.isTerminal = false) (h : g.RuleEnds a x.name s (.ok tree) u)
    (hrest : g.AtomsEnd a rest u r s') : g.AtomsEnd a (x :: rest) s (r.map (tree :: ·)) s' :=
  AtomsEnd.cons (ends_runAtom hx h) hrest

/-- A rule that is called fails. -/
theorem AtomsEnd.rule_error (hx : x.isTerminal = false) (h : g.RuleEnds a x.name s (.error e) s') :
    g.AtomsEnd a (x :: rest) s (.error e) s' :=
  (ends_runAtom hx h).bind_error

/-- The arm that is selected runs. -/
theorem RuleEnds.arm {r : Except (ParseError CallLimit) (List ParseTree)}
    (harm : g.arm? a name s.kind = some (alt, i)) (h : g.AtomsEnd a alt.atoms s r s') :
    g.RuleEnds a name s (r.map (.node name i)) s' := by
  obtain ⟨hr, d, hd⟩ := ends_map (f := ParseTree.node name i) (steady_runAtoms alt.atoms) h
  refine ⟨hr, d + 1, gives_kind_bind.mpr ?_⟩
  rw [harm]
  exact hd

/-- Where no arm is selected, the markers of the rule are reported. -/
theorem RuleEnds.no_arm (harm : g.arm? a name s.kind = none) :
    g.RuleEnds a name s
      (.error (.unfit (.unexpected (a.tokenNames (a.expected (g.ruleId name))) s.token))) s := by
  refine ⟨unfit_ne_limit, 1, gives_kind_bind.mpr ?_⟩
  rw [harm]
  exact gives_unexpected.mpr ⟨rfl, rfl⟩

/-- A rule that succeeds runs the arm that is selected. -/
theorem gives_runRule_ok (h : (g.runRule a (depth + 1) name).Gives s (.ok tree) s') :
    ∃ alt i parts, g.arm? a name s.kind = some (alt, i) ∧
      (runAtoms (g.runRule a depth) alt.atoms).Gives s (.ok parts) s' ∧
      tree = .node name i parts := by
  rw [runRule, gives_kind_bind] at h
  split at h
  · next alt i harm =>
      obtain ⟨parts, v, hrun, h⟩ := gives_bind_ok.mp h
      obtain ⟨htree, rfl⟩ := gives_pure.mp h
      exact ⟨alt, i, parts, harm, hrun, Except.ok.inj htree⟩
  · cases (gives_unexpected.mp h).1

/-- Atoms succeed one after the other. -/
theorem gives_runAtoms_cons_ok : (runAtoms call (x :: rest)).Gives s (.ok parts) s' ↔
    ∃ part inner u, parts = part :: inner ∧ (runAtom call x).Gives s (.ok part) u ∧
      (runAtoms call rest).Gives u (.ok inner) s' := by
  rw [runAtoms, gives_bind_ok]
  constructor
  · rintro ⟨part, u, hx, h⟩
    obtain ⟨inner, v, hrest, h⟩ := gives_bind_ok.mp h
    obtain ⟨hparts, rfl⟩ := gives_pure.mp h
    exact ⟨part, inner, u, Except.ok.inj hparts, hx, hrest⟩
  · rintro ⟨part, inner, u, rfl, hx, hrest⟩
    exact ⟨part, u, hx, hrest.bind (gives_pure.mpr ⟨rfl, rfl⟩)⟩

/-- Atoms fail where the first one fails, or where the others do behind it. -/
theorem gives_runAtoms_cons_error (h : (runAtoms call (x :: rest)).Gives s (.error e) s') :
    (runAtom call x).Gives s (.error e) s' ∨
      ∃ part u, (runAtom call x).Gives s (.ok part) u ∧
        (runAtoms call rest).Gives u (.error e) s' := by
  rcases gives_bind.mp h with ⟨part, u, hx, h⟩ | ⟨e', he, hx⟩
  · rcases gives_bind.mp h with ⟨inner, v, _, hpure⟩ | ⟨e', he, hrest⟩
    · cases (gives_pure.mp hpure).1
    · obtain rfl := Except.error.inj he
      exact Or.inr ⟨part, u, hx, hrest⟩
  · obtain rfl := Except.error.inj he
    exact Or.inl hx

/-- A rule fails where no arm is selected, or where the arm that is selected does. -/
theorem gives_runRule_error (h : (g.runRule a (depth + 1) name).Gives s (.error e) s') :
    (g.arm? a name s.kind = none ∧ s' = s ∧
      e = .unfit (.unexpected (a.tokenNames (a.expected (g.ruleId name))) s.token)) ∨
    ∃ alt i, g.arm? a name s.kind = some (alt, i) ∧
      (runAtoms (g.runRule a depth) alt.atoms).Gives s (.error e) s' := by
  rw [runRule, gives_kind_bind] at h
  split at h
  · next alt i harm =>
      rcases gives_bind.mp h with ⟨parts, v, _, hpure⟩ | ⟨e', he, hrun⟩
      · cases (gives_pure.mp hpure).1
      · obtain rfl := Except.error.inj he
        exact Or.inr ⟨alt, i, harm, hrun⟩
  · next harm =>
      obtain ⟨he, rfl⟩ := gives_unexpected.mp h
      exact Or.inl ⟨harm, rfl, Except.error.inj he⟩

/-- A terminal that succeeds takes a token of its kind. -/
theorem gives_runAtom_terminal (hx : x.isTerminal = true)
    (h : (runAtom call x).Gives s (.ok part) s') :
    s.kind = x.name ∧ part = .token x.name ∧
      (advance : Parser String CallLimit Unit).Gives s (.ok ()) s' := by
  rw [runAtom_of_terminal hx] at h
  exact gives_terminal_ok.mp h

end Descent.Grammar
