import Descent.Proofs.Driver.Selection
import Descent.Proofs.Driver.Steps

/-!
# What a run of the driver depends on

The driver looks at one token at a time. Where its run comes to an outcome after it has
taken some tokens, it comes to the same outcome on every input that begins with these
tokens and goes on with the token in front of which it stopped: what is behind that
token was never looked at.
-/

namespace Descent

open Descent.Parser

variable {β γ : Type} {s s' : Standing String} {u v w : List String}

/-- The value of an outcome, or whether its failure is the one at the limit of calls. -/
def Parser.verdict (r : Except (ParseError CallLimit) β) : Except Bool β :=
  r.mapError fun e => decide (e = .action .reached)

@[simp] theorem Parser.verdict_error {e : ParseError CallLimit} :
    verdict (.error e : Except (ParseError CallLimit) β) =
      .error (decide (e = .action .reached)) := rfl

private theorem Parser.verdict_eq_ok {r : Except (ParseError CallLimit) β} {b : β}
    (h : verdict r = .ok b) : r = .ok b := by
  cases r with
  | ok c => exact congrArg _ (Except.ok.inj h)
  | error e => cases h

/-- A verdict of failure comes from an error, which is the one at the limit exactly if the verdict
says so. -/
theorem Parser.verdict_eq_error {r : Except (ParseError CallLimit) β} {limit : Bool}
    (h : verdict r = .error limit) :
    ∃ e, r = .error e ∧ decide (e = .action .reached) = limit := by
  cases r with
  | ok c => cases h
  | error e => exact ⟨e, rfl, Except.error.inj h⟩

/-- The run from `s` takes the tokens `u` of what is ahead there and stops in front of `v`, and on all
input that agrees up to the token in front of which it stops it does the same. Where a parser stands
is described by `ahead`. -/
def Parser.Takes (ahead : Standing String → List String → Prop) (p : Parser String CallLimit β)
    (s : Standing String) (w : List String) : Prop :=
  ∀ r s', ahead s w → p.Gives s r s' → ∃ u v, w = u ++ v ∧ s'.Reads endName v ∧
    ∀ s₂ v₂, ahead s₂ (u ++ v₂) → v₂.headD endName = v.headD endName →
      ∃ r₂ s₂', p.Gives s₂ r₂ s₂' ∧ s₂'.Reads endName v₂ ∧ verdict r₂ = verdict r

/-- A run of the parser depends on what it takes and on the kind of the token behind that only. -/
def Parser.Local (p : Parser String CallLimit β) : Prop :=
  ∀ s w, p.Takes (fun s w => s.Reads endName w) s w

/-- The first token of an input depends on the first part and, if that is empty, on the first token
of the second part. -/
theorem headD_append {d : String} (u : List String) (h : v.headD d = w.headD d) :
    (u ++ v).headD d = (u ++ w).headD d := by
  cases u with
  | nil => exact h
  | cons k u => rfl

namespace Parser

/-- Parsers one behind the other are local if both are. -/
theorem Local.bind {p : Parser String CallLimit β} {f : β → Parser String CallLimit γ}
    (hp : p.Local) (hf : ∀ b, (f b).Local) : (p >>= f).Local := by
  intro s w r s' hs hrun
  rcases gives_bind.mp hrun with ⟨b, t, hb, hrest⟩ | ⟨e, rfl, he⟩
  · obtain ⟨u, v, rfl, ht, hfirst⟩ := hp s w _ _ hs hb
    obtain ⟨u', v', rfl, hs', hsecond⟩ := hf b t v _ _ ht hrest
    refine ⟨u ++ u', v', (List.append_assoc u u' v').symm, hs', fun s₂ v₂ hs₂ hhead => ?_⟩
    rw [List.append_assoc] at hs₂
    obtain ⟨r₂, t₂, hb₂, ht₂, hr₂⟩ := hfirst s₂ (u' ++ v₂) hs₂ (headD_append u' hhead)
    obtain rfl := verdict_eq_ok hr₂
    obtain ⟨r₃, s₃, hrest₂, hs₃, hr₃⟩ := hsecond t₂ v₂ ht₂ hhead
    exact ⟨r₃, s₃, hb₂.bind hrest₂, hs₃, hr₃⟩
  · obtain ⟨u, v, rfl, hs', hfirst⟩ := hp s w _ _ hs he
    refine ⟨u, v, rfl, hs', fun s₂ v₂ hs₂ hhead => ?_⟩
    obtain ⟨r₂, t₂, he₂, ht₂, hr₂⟩ := hfirst s₂ v₂ hs₂ hhead
    obtain ⟨e₂, rfl, hlimit⟩ := verdict_eq_error hr₂
    refine ⟨.error e₂, t₂, he₂.bind_error, ht₂, ?_⟩
    rw [verdict_error, verdict_error, hlimit]

/-- A parser that looks at the kind of the current token only before it goes on. -/
theorem Local.kind_bind {f : String → Parser String CallLimit β} (hf : ∀ k, (f k).Local) :
    (kind >>= f).Local := by
  intro s w r s' hs hrun
  obtain ⟨u, v, rfl, hs', hsame⟩ := hf s.kind s w _ _ hs (gives_kind_bind.mp hrun)
  refine ⟨u, v, rfl, hs', fun s₂ v₂ hs₂ hhead => ?_⟩
  have hkind : s₂.kind = s.kind := by
    rw [hs₂.kind_eq, hs.kind_eq, headD_append u hhead]
  obtain ⟨r₂, s₂', hrun₂, hrest⟩ := hsame s₂ v₂ hs₂ hhead
  rw [← hkind] at hrun₂
  exact ⟨r₂, s₂', gives_kind_bind.mpr hrun₂, hrest⟩

/-- A parser that takes nothing and comes to the same value or failure wherever it stands. -/
theorem Local.of_still {p : Parser String CallLimit β} {o : Except Bool β}
    (h : ∀ s, ∃ r, p.Gives s r s ∧ verdict r = o) : p.Local := by
  intro s w r s' hs hrun
  obtain ⟨r', hrun', hr'⟩ := h s
  obtain ⟨rfl, rfl⟩ := hrun.unique hrun'
  refine ⟨[], w, rfl, hs, fun s₂ v₂ hs₂ _ => ?_⟩
  obtain ⟨r₂, hrun₂, hr₂⟩ := h s₂
  exact ⟨r₂, s₂, hrun₂, hs₂, hr₂.trans hr'.symm⟩

private theorem local_pure (b : β) : (pure b : Parser String CallLimit β).Local :=
  .of_still fun _ => ⟨.ok b, rfl, rfl⟩

/-- A failure at the current token. -/
theorem local_failure (e : Token → SyntaxError) :
    (do throw (.unfit (e (← current))) : Parser String CallLimit β).Local :=
  .of_still (o := .error false) fun s => ⟨.error (.unfit (e s.token)), rfl, rfl⟩

private theorem local_unexpected (names : List String) :
    (unexpected names : Parser String CallLimit β).Local :=
  local_failure fun t => .unexpected names t

private theorem local_limit : (act (.error .reached) : Parser String CallLimit β).Local :=
  .of_still fun _ => ⟨_, gives_act_error.mpr ⟨rfl, rfl⟩, rfl⟩

/-- Taking a token of a kind that is not the end leads to the rest of the input. -/
theorem local_terminal {expected name : String} (b : β) (hne : expected ≠ endName) :
    (terminal expected name fun _ => .ok b : Parser String CallLimit β).Local := by
  intro s w r s' hs hrun
  by_cases hkind : s.kind = expected
  · obtain ⟨v, t, rfl, hnext, ht⟩ := hs.advance (α := CallLimit) (hkind ▸ hne)
    obtain ⟨rfl, rfl⟩ := hrun.unique (gives_terminal_ok.mpr ⟨hkind, rfl, hnext⟩)
    refine ⟨[s.kind], v, rfl, ht, fun s₂ v₂ hs₂ hhead => ?_⟩
    have hspells : s₂.upcoming.Spells endName v₂ := hs₂.2.2
    obtain ⟨t₂, hnext₂, ht₂⟩ := advance_reads (α := CallLimit) hspells
    exact ⟨.ok b, t₂, gives_terminal_ok.mpr ⟨hs₂.1.trans hkind, rfl, hnext₂⟩, ht₂, rfl⟩
  · obtain ⟨rfl, rfl⟩ := hrun.unique (terminal_of_kind_ne hkind)
    refine ⟨[], w, rfl, hs, fun s₂ v₂ hs₂ hhead => ?_⟩
    have hkind₂ : s₂.kind ≠ expected := by
      rwa [hs₂.kind_eq, List.nil_append, hhead, ← hs.kind_eq]
    exact ⟨_, s₂, terminal_of_kind_ne hkind₂, hs₂, rfl⟩

/-- Where the start rule is local, so is the run on the whole input. -/
theorem Local.whole {start : Parser String CallLimit β} (h : start.Local) (s : Standing String)
    (w : List String) :
    (whole endName start).Takes (fun s w => s.upcoming.Spells endName w) s w := by
  have hbody : (start >>= fun value => kind >>= fun k =>
      if k = endName then pure value else do throw (.unfit (.trailing (← current)))).Local := by
    refine h.bind fun value => .kind_bind fun k => ?_
    split
    · exact local_pure value
    · exact local_failure .trailing
  intro r s' hs hrun
  obtain ⟨t, hnext, ht⟩ := advance_reads (α := CallLimit) hs
  rcases gives_bind.mp hrun with ⟨_, t', hnext', hrest⟩ | ⟨e, -, hnext'⟩
  · obtain ⟨-, rfl⟩ := hnext.unique hnext'
    obtain ⟨u, v, rfl, hs', hsame⟩ := hbody t w r s' ht hrest
    refine ⟨u, v, rfl, hs', fun s₂ v₂ hs₂ hhead => ?_⟩
    obtain ⟨t₂, hnext₂, ht₂⟩ := advance_reads (α := CallLimit) hs₂
    obtain ⟨r₂, s₂', hrest₂, hend⟩ := hsame t₂ v₂ ht₂ hhead
    exact ⟨r₂, s₂', hnext₂.bind hrest₂, hend⟩
  · cases (hnext.unique hnext').1

end Parser

namespace Grammar

variable {g : Grammar} {a : Analysis} {call : String → Parser String CallLimit ParseTree}

/-- The run of an atom is local if calls of rules are, unless it waits for the end. -/
theorem local_runAtom (hcall : ∀ name, (call name).Local) {x : Atom}
    (hne : x.isTerminal = true → x.name ≠ endName) : (runAtom call x).Local := by
  cases hx : x.isTerminal with
  | true =>
      rw [runAtom_of_terminal hx]
      exact local_terminal _ (hne hx)
  | false =>
      rw [runAtom_of_nonterminal hx]
      exact hcall x.name

/-- The run of atoms is local if calls of rules are, unless one of them waits for the end. -/
theorem local_runAtoms (hcall : ∀ name, (call name).Local) {atoms : List Atom}
    (hne : ∀ x ∈ atoms, x.isTerminal = true → x.name ≠ endName) : (runAtoms call atoms).Local := by
  induction atoms with
  | nil => exact local_pure []
  | cons x rest ih =>
      have hx := local_runAtom hcall (hne x List.mem_cons_self)
      have hrest := ih fun y hy => hne y (List.mem_cons_of_mem x hy)
      exact hx.bind fun part => hrest.bind fun parts => local_pure (part :: parts)

namespace Analysed

/-- The run of a rule depends on what it takes and the token behind that only. -/
theorem local_runRule (h : g.Analysed a) (depth : Nat) (name : String) :
    (g.runRule a depth name).Local := by
  induction depth generalizing name with
  | zero => exact local_limit
  | succ depth ih =>
      rw [runRule]
      refine .kind_bind fun k => ?_
      split
      · next alt i harm =>
          obtain ⟨r, hr, -, halt, -⟩ := h.exists_rule_of_arm? harm
          have hne := h.valid.terminal_ne_endName hr (List.mem_of_getElem? halt)
          exact (local_runAtoms ih hne).bind fun parts => local_pure (ParseTree.node name i parts)
      · exact local_unexpected _

/-- The same of the whole driver. -/
theorem local_drive (h : g.Analysed a) (depth : Nat) (s : Standing String) (w : List String) :
    (g.drive a depth).Takes (fun s w => s.upcoming.Spells endName w) s w :=
  (h.local_runRule depth g.startRule.name).whole s w

end Analysed
end Grammar
end Descent
