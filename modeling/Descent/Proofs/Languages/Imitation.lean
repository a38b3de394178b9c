import Descent.Proofs.Driver.Acting
import Descent.Proofs.Tokens.Renaming

/-!
# Parsers that imitate the driver

A parser written for one grammar has kinds of its own for the tokens, and values of its
own. It imitates the driver with its actions if, wherever that comes to an outcome
within the limit of calls, it comes to the same outcome at the same place, up to the
names of the kinds and the form of the values. One rule for each step of the driver
carries this through a function.
-/

namespace Descent

open Descent.Parser

/-- The failure with another reason of an action. -/
def ParseError.map {α α' : Type} (f : α → α') : ParseError α → ParseError α'
  | .lexical e => .lexical e
  | .unfit e => .unfit e
  | .action cause => .action (f cause)

variable {κ ν ε β β' β'' γ γ' : Type}

/-- The outcome as one of the driver with its actions, with values in another form. -/
def Parser.lift (out : β → γ) : Except (ParseError ε) β → Except (ParseError (Halt ε)) γ
  | .ok b => .ok (out b)
  | .error e => .error (e.map .inr)

/-- Wherever the second parser comes to an outcome within the limit of calls, the first one does as
well, at the same place; `out` gives its values the form of those of the second one. -/
def Imitates (name : κ → String) (out : β → γ) (p : Parser κ ε β)
    (q : Parser String (Halt ε) γ) : Prop :=
  ∀ ⦃s r u⦄, q.Gives (s.mapKind name) r u → r ≠ .error (.action (.inl .reached)) →
    ∃ o s', p.Gives s o s' ∧ r = lift out o ∧ u = s'.mapKind name

/-- At a token of the kind it waits for, a terminal makes something of the token and takes it. -/
theorem Parser.gives_terminal_bind {α : Type} [DecidableEq κ] {expected : κ} {name : String}
    {f : Token → Except α β} {k : β → Parser κ α γ} {s s' : Standing κ}
    {r : Except (ParseError α) γ} (hkind : s.kind = expected) :
    (terminal expected name f >>= k).Gives s r s' ↔
      ((match f s.token with
        | .ok b => do
          advance
          return b
        | .error e => throw (.action e)) >>= k : Parser κ α γ).Gives s r s' := by
  subst hkind
  rw [terminal, bind_assoc, gives_kind_bind, if_pos rfl, bind_assoc, gives_current_bind]
  cases f s.token <;> rfl

namespace Imitates

variable {name : κ → String} {out : β → γ} {out' : β' → γ'} {p : Parser κ ε β}
  {q : Parser String (Halt ε) γ} {f : β → Parser κ ε β'} {k : γ → Parser String (Halt ε) γ'}

/-- A parser and what follows it. -/
theorem bind (hp : Imitates name out p q) (hf : ∀ b, Imitates name out' (f b) (k (out b))) :
    Imitates name out' (p >>= f) (q >>= k) := by
  intro s r u hrun hr
  rcases gives_bind.mp hrun with ⟨c, v, hc, hrest⟩ | ⟨e, rfl, he⟩
  · obtain ⟨o, t, hb, hout, rfl⟩ := hp hc (by simp)
    cases o with
    | ok b =>
        obtain rfl := Except.ok.inj hout
        obtain ⟨o', s', hgo, hr', hu⟩ := hf b hrest hr
        exact ⟨o', s', hb.bind hgo, hr', hu⟩
    | error e => cases hout
  · obtain ⟨o, s', hb, hout, hu⟩ := hp he fun hlimit => hr (congrArg _ (Except.error.inj hlimit))
    cases o with
    | ok b => cases hout
    | error e => exact ⟨.error e, s', hb.bind_error, congrArg _ (Except.error.inj hout), hu⟩

/-- A parser that does nothing imitates one that does nothing. -/
theorem pure (b : β) : Imitates name out (Pure.pure b : Parser κ ε β) (Pure.pure (out b)) := by
  intro s r u hrun _
  obtain ⟨rfl, rfl⟩ := gives_pure.mp hrun
  exact ⟨.ok b, s, rfl, rfl, rfl⟩

/-- Parsers that look at the kind of the token imitate one another if they do for each kind. -/
theorem kind_bind {f : κ → Parser κ ε β} {k : String → Parser String (Halt ε) γ}
    (h : ∀ x, Imitates name out (f x) (k (name x))) :
    Imitates name out (kind >>= f) (kind >>= k) := by
  intro s r u hrun hr
  obtain ⟨o, s', hgo, hout⟩ := h s.kind (gives_kind_bind.mp hrun) hr
  exact ⟨o, s', gives_kind_bind.mpr hgo, hout⟩

/-- A failure at the current token. -/
theorem failure (e : Token → SyntaxError) :
    Imitates name out (do throw (.unfit (e (← current))) : Parser κ ε β)
      (do throw (.unfit (e (← current)))) := by
  intro s r u hrun _
  obtain ⟨rfl, rfl⟩ := hrun.unique rfl
  exact ⟨.error (.unfit (e s.token)), s, rfl, rfl, rfl⟩

/-- A parser that meets an unexpected token imitates one that does. -/
theorem unexpected (names : List String) :
    Imitates name out (Parser.unexpected names : Parser κ ε β) (Parser.unexpected names) :=
  failure fun t => .unexpected names t

/-- A parser that takes a token imitates one that does. -/
theorem advance :
    Imitates name id (Parser.advance : Parser κ ε Unit) (Parser.advance) := by
  intro s r u hrun _
  obtain ⟨rfl, rfl⟩ := hrun.unique (advance_gives _)
  refine ⟨_, _, advance_gives s, ?_⟩
  rw [Standing.next_mapKind]
  cases s.next <;> exact ⟨rfl, rfl⟩

/-- No outcome of a run at the limit of calls is within it. -/
theorem limit : Imitates name out p (act (.error (.inl .reached))) := by
  intro s r u hrun hr
  exact absurd (gives_act_error.mp hrun).1 hr

/-- Code that makes a value of the parser something of the variables. -/
theorem attempt_bind {r : Except ε β} {code : Except ε (Scope ν)} {g : β → Scope ν}
    {k : Scope ν → Parser String (Halt ε) γ'} (hcode : code = r.map g)
    (hf : ∀ b, Imitates name out' (f b) (k (g b))) :
    Imitates name out' (act r >>= f) (Meaning.attempt code >>= k) := by
  subst hcode
  have hact : Imitates name g (act r) (Meaning.attempt (r.map g)) := by
    intro s r' u hrun _
    cases r with
    | ok b =>
        obtain ⟨rfl, rfl⟩ := gives_pure.mp hrun
        exact ⟨.ok b, s, rfl, rfl, rfl⟩
    | error cause =>
        obtain ⟨rfl, rfl⟩ := gives_act_error.mp hrun
        exact ⟨.error (.action cause), s, rfl, rfl, rfl⟩
  exact hact.bind hf

section

variable [DecidableEq κ] (hname : Function.Injective name)
include hname

/-- A token is checked, code makes something of it, and it is taken. -/
theorem terminal_bind {expected : κ} {r : Token → Except ε β} {code : Token → Except ε (Scope ν)}
    {g : Token → β → Scope ν} {k : Scope ν → Parser String (Halt ε) γ'}
    (hcode : ∀ t, code t = (r t).map (g t)) (hf : ∀ t b, Imitates name out' (f b) (k (g t b))) :
    Imitates name out' (terminal expected (name expected) r >>= f)
      ((terminal (name expected) (name expected) fun t => (code t).mapError .inr) >>= k) := by
  intro s r' u hrun hr'
  have hkind : (s.mapKind name).kind = name expected ↔ s.kind = expected := hname.eq_iff
  by_cases hs : s.kind = expected
  · have hrun' := (gives_terminal_bind (hkind.mpr hs)).mp hrun
    cases hr : r s.token with
    | ok b =>
        have htake : Imitates name out' (Parser.advance >>= fun _ => f b)
            (Parser.advance >>= fun _ => k (g s.token b)) := advance.bind fun _ => hf s.token b
        simp only [Standing.token_mapKind, hcode, hr, Except.map, Except.mapError, bind_assoc,
          pure_bind] at hrun'
        obtain ⟨o, s', hgo, hout⟩ := htake hrun' hr'
        refine ⟨o, s', (gives_terminal_bind hs).mpr ?_, hout⟩
        simpa only [hr, bind_assoc, pure_bind] using hgo
    | error cause =>
        simp only [Standing.token_mapKind, hcode, hr, Except.map, Except.mapError] at hrun'
        obtain ⟨rfl, rfl⟩ := hrun'.unique (Gives.bind_error rfl)
        refine ⟨.error (.action cause), s, (gives_terminal_bind hs).mpr ?_, rfl, rfl⟩
        simp only [hr]
        exact Gives.bind_error rfl
  · have hs' := mt hkind.mp hs
    obtain ⟨rfl, rfl⟩ := hrun.unique (Gives.bind_error (terminal_of_kind_ne hs'))
    exact ⟨_, s, Gives.bind_error (terminal_of_kind_ne hs), rfl, rfl⟩

/-- The run on the whole input imitates the driver if the start rule does. -/
theorem whole {endKind : κ} (hp : Imitates name out p q) :
    Imitates name out (Parser.whole endKind p) (Parser.whole (name endKind) q) := by
  refine advance.bind fun _ => hp.bind fun b => kind_bind fun x => ?_
  by_cases hx : x = endKind
  · rw [if_pos hx, if_pos (congrArg name hx)]
    exact pure b
  · rw [if_neg hx, if_neg (hname.ne hx)]
    exact failure .trailing

end

section

variable {m : Meaning ν ε} {call : String → List ν → Parser String (Halt ε) ν} {scope : Scope ν}
  {fin : Scope ν → Parser String (Halt ε) γ'} {binding rule : String} {action : Option String}
  {arguments : List String} {rest : List Atom} {p : Parser κ ε β} {out : β → ν}

/-- An atom that calls a rule and makes something of its value. -/
theorem call_atom (hcall : Imitates name out p (call rule (arguments.map (m.argument · scope))))
    {g : β → Scope ν} (hcode : ∀ b, m.perform action (scope.bind binding (.value (out b))) = .ok (g b))
    (hrest : ∀ b, Imitates name out' (f b) (m.enactAtoms call (g b) rest >>= fin)) :
    Imitates name out' (p >>= f)
      (m.enactAtoms call scope (⟨binding, rule, .nonterminal arguments, action⟩ :: rest) >>= fin) := by
  rw [Meaning.enactAtoms_nonterminal, bind_assoc]
  refine hcall.bind fun b => ?_
  rw [hcode, Meaning.attempt_ok, pure_bind]
  exact hrest b

/-- An atom that calls a rule, where what is made of its value may fail. -/
theorem call_operate_atom {r : β → Except ε β''} {f : β → β'' → Parser κ ε β'}
    (hcall : Imitates name out p (call rule (arguments.map (m.argument · scope))))
    {g : β → β'' → Scope ν}
    (hcode : ∀ b, m.perform action (scope.bind binding (.value (out b))) = (r b).map (g b))
    (hrest : ∀ b c, Imitates name out' (f b c) (m.enactAtoms call (g b c) rest >>= fin)) :
    Imitates name out' (p >>= fun b => act (r b) >>= f b)
      (m.enactAtoms call scope (⟨binding, rule, .nonterminal arguments, action⟩ :: rest) >>= fin) := by
  rw [Meaning.enactAtoms_nonterminal, bind_assoc]
  refine hcall.bind fun b => ?_
  rw [bind_assoc]
  exact attempt_bind (hcode b) (hrest b)

/-- An atom in the last place, of whose value the driver makes the result. -/
theorem last_atom {out' : β → γ'}
    (hcall : Imitates name out p (call rule (arguments.map (m.argument · scope))))
    (hcode : ∀ b, ∃ c, m.perform action (scope.bind binding (.value (out b))) = .ok c ∧
      fin c = Pure.pure (out' b)) :
    Imitates name out' p
      (m.enactAtoms call scope [⟨binding, rule, .nonterminal arguments, action⟩] >>= fin) := by
  choose g hg hfin using hcode
  rw [← bind_pure p]
  refine call_atom hcall hg fun b => ?_
  rw [Meaning.enactAtoms_nil, pure_bind, hfin]
  exact pure b

/-- An atom in the last place, where what is made of its value may fail. -/
theorem last_operate_atom {r : β → Except ε β''} {out' : β'' → γ'}
    (hcall : Imitates name out p (call rule (arguments.map (m.argument · scope))))
    {g : β → β'' → Scope ν}
    (hcode : ∀ b, m.perform action (scope.bind binding (.value (out b))) = (r b).map (g b))
    (hfin : ∀ b c, fin (g b c) = Pure.pure (out' c)) :
    Imitates name out' (p >>= fun b => act (r b))
      (m.enactAtoms call scope [⟨binding, rule, .nonterminal arguments, action⟩] >>= fin) := by
  have hrun : Imitates name out' (p >>= fun b => act (r b) >>= Pure.pure)
      (m.enactAtoms call scope [⟨binding, rule, .nonterminal arguments, action⟩] >>= fin) := by
    refine call_operate_atom hcall hcode fun b c => ?_
    rw [Meaning.enactAtoms_nil, pure_bind, hfin]
    exact pure c
  simpa only [bind_pure] using hrun

variable [DecidableEq κ] (hname : Function.Injective name)
include hname

/-- An atom that waits for a token. -/
theorem token_atom {expected : κ} {r : Token → Except ε β} {g : Token → β → Scope ν}
    (hcode : ∀ t, m.perform action (scope.bind binding (.token t)) = (r t).map (g t))
    (hrest : ∀ t b, Imitates name out' (f b) (m.enactAtoms call (g t b) rest >>= fin)) :
    Imitates name out' (terminal expected (name expected) r >>= f)
      (m.enactAtoms call scope (⟨binding, name expected, .terminal, action⟩ :: rest) >>= fin) := by
  rw [Meaning.enactAtoms_terminal, bind_assoc]
  exact terminal_bind hname hcode hrest

/-- An atom that waits for a token of which nothing but its kind matters. -/
theorem mark_atom {expected : κ} {f : Unit → Parser κ ε β'}
    (hrest : Imitates name out' (f ()) (m.enactAtoms call scope rest >>= fin)) :
    Imitates name out' (terminal expected (name expected) (fun _ => .ok ()) >>= f)
      (m.enactAtoms call scope (⟨Description.unbound, name expected, .terminal, none⟩ :: rest) >>=
        fin) := by
  refine token_atom hname (g := fun _ _ => scope) (fun t => ?_) fun t b => hrest
  rw [Meaning.perform_none, Scope.bind_unbound]
  rfl

end

end Imitates
end Descent
