import Descent.Proofs.Driver.Acting
import Descent.Proofs.Driver.Steps
import Descent.Proofs.Tokens.Movement

/-!
# What actions change

Actions decide neither which arm is taken nor which token is expected. The driver with
its actions does what the driver without them does, step by step, until an action
fails: then it stops, at a place that the driver without actions goes through. One rule
for each way in which parsers are put together leads from the atoms to the whole run.
-/

namespace Descent

open Descent.Parser

variable {ν ε β γ β' γ' : Type} {s s' u : Standing String}

/-- How a run with actions, which stops at the first place, is related to the run without them from
the same start, which stops at the second place: both stop there with a value or with one failure, or
an action fails on the way. -/
inductive Follows : Except (ParseError (Halt ε)) β → Standing String →
    Except (ParseError CallLimit) γ → Standing String → Prop where
  | ok (b : β) (c : γ) (s : Standing String) : Follows (.ok b) s (.ok c) s
  | lexical (e : LexicalError) (s : Standing String) :
      Follows (.error (.lexical e)) s (.error (.lexical e)) s
  | unfit (e : SyntaxError) (s : Standing String) :
      Follows (.error (.unfit e)) s (.error (.unfit e)) s
  | limit (s : Standing String) :
      Follows (.error (.action (.inl .reached))) s (.error (.action .reached)) s
  | failed (cause : ε) {s u : Standing String} (r : Except (ParseError CallLimit) γ)
      (h : s.Reaches u) : Follows (.error (.action (.inr cause))) s r u

/-- Wherever the two parsers start, the run of the first one follows that of the second one. -/
def Shadows (p : Parser String (Halt ε) β) (q : Parser String CallLimit γ) : Prop :=
  ∀ ⦃s r s' d u⦄, p.Gives s r s' → q.Gives s d u → Follows r s' d u

namespace Follows

variable {e : ParseError (Halt ε)} {d : Except (ParseError CallLimit) γ}

/-- A run that fails fails whatever its value would have been. -/
theorem of_error {f : ParseError CallLimit}
    (h : Follows (.error e : Except (ParseError (Halt ε)) β) s'
      (.error f : Except (ParseError CallLimit) γ) u) :
    Follows (.error e : Except (ParseError (Halt ε)) β') s'
      (.error f : Except (ParseError CallLimit) γ') u := by
  cases h with
  | lexical => exact .lexical _ _
  | unfit => exact .unfit _ _
  | limit => exact .limit _
  | failed cause _ hreach => exact .failed cause _ hreach

/-- Where one run fails and the other does not, an action has failed. -/
theorem of_error_ok {c : γ} (h : Follows (.error e : Except (ParseError (Halt ε)) β) s' (.ok c) u)
    {d : Except (ParseError CallLimit) γ'} {t : Standing String} (hreach : u.Reaches t) :
    Follows (.error e : Except (ParseError (Halt ε)) β') s' d t := by
  cases h with
  | failed cause _ hto => exact .failed cause d (hto.trans hreach)

/-- The run with actions is within the limit of calls where the other one is. -/
theorem ne_limit {r : Except (ParseError (Halt ε)) β} (h : Follows r s' d u)
    (hd : d ≠ .error (.action .reached)) : r ≠ .error (.action (.inl .reached)) := by
  cases h with
  | limit => exact absurd rfl hd
  | ok | lexical | unfit | failed => simp

end Follows

namespace Shadows

variable {p : Parser String (Halt ε) β} {q : Parser String CallLimit γ}
  {f : β → Parser String (Halt ε) β'} {k : γ → Parser String CallLimit γ'}

/-- Parsers one behind the other follow those that their parts follow. -/
theorem bind (hp : Shadows p q) (hf : ∀ b c, Shadows (f b) (k c)) (hk : ∀ c, (k c).Forward) :
    Shadows (p >>= f) (q >>= k) := by
  intro s r s' d u hrun hdrive
  rcases gives_bind.mp hrun with ⟨b, t, hb, hrest⟩ | ⟨e, rfl, he⟩ <;>
    rcases gives_bind.mp hdrive with ⟨c, v, hc, hgo⟩ | ⟨e', rfl, he'⟩
  · have hboth := hp hb hc
    cases hboth
    exact hf b c hrest hgo
  · cases hp hb he'
  · exact (hp he hc).of_error_ok (hk c hgo)
  · exact (hp he he').of_error

/-- Parsers that do nothing follow one another. -/
theorem pure (b : β) (c : γ) :
    Shadows (Pure.pure b : Parser String (Halt ε) β) (Pure.pure c : Parser String CallLimit γ) := by
  intro s r s' d u hrun hdrive
  obtain ⟨rfl, rfl⟩ := gives_pure.mp hrun
  obtain ⟨rfl, rfl⟩ := gives_pure.mp hdrive
  exact .ok b c u

/-- Code has no counterpart: where it does not fail, nothing has happened. -/
theorem attempt (r : Except ε (Scope ν)) (c : γ) :
    Shadows (Meaning.attempt r) (Pure.pure c : Parser String CallLimit γ) := by
  intro s r' s' d u hrun hdrive
  obtain ⟨rfl, rfl⟩ := gives_pure.mp hdrive
  cases r with
  | ok scope =>
      obtain ⟨rfl, rfl⟩ := gives_pure.mp hrun
      exact .ok scope c _
  | error cause =>
      obtain ⟨rfl, rfl⟩ := gives_act_error.mp hrun
      exact .failed cause _ .refl

/-- Code runs behind a parser. -/
theorem bind_attempt (hp : Shadows p q) (r : β → Except ε (Scope ν)) :
    Shadows (p >>= fun b => Meaning.attempt (r b)) q := by
  have hbind := hp.bind (fun b c => attempt (r b) c) fun c => forward_pure c
  rwa [bind_pure] at hbind

/-- Code runs in front of a parser. -/
theorem attempt_bind {f : Scope ν → Parser String (Halt ε) β} (r : Except ε (Scope ν))
    (hf : ∀ scope, Shadows (f scope) q) (hq : q.Forward) :
    Shadows (Meaning.attempt r >>= f) q := by
  have hbind := (attempt r ()).bind (fun scope _ => hf scope) fun _ => hq
  rwa [pure_bind] at hbind

/-- The values are of no account. -/
theorem map (hp : Shadows p q) (h : γ → γ') : Shadows p (q >>= fun c => Pure.pure (h c)) := by
  have hbind := hp.bind (fun b c => pure b (h c)) fun c => forward_pure (h c)
  rwa [bind_pure] at hbind

/-- Parsers that look at the kind of the token follow one another if they do for each kind. -/
theorem kind_bind {f : String → Parser String (Halt ε) β} {k : String → Parser String CallLimit γ}
    (h : ∀ x, Shadows (f x) (k x)) : Shadows (kind >>= f) (kind >>= k) := by
  intro s r s' d u hrun hdrive
  exact h s.kind (gives_kind_bind.mp hrun) (gives_kind_bind.mp hdrive)

/-- A failure at the current token. -/
theorem failure (e : Token → SyntaxError) :
    Shadows (do throw (.unfit (e (← current))) : Parser String (Halt ε) β)
      (do throw (.unfit (e (← current))) : Parser String CallLimit γ) := by
  intro s r s' d u hrun hdrive
  obtain ⟨rfl, rfl⟩ := hrun.unique rfl
  obtain ⟨rfl, rfl⟩ := hdrive.unique rfl
  exact .unfit _ _

/-- An unexpected token is met by both parsers alike. -/
theorem unexpected (names : List String) :
    Shadows (Parser.unexpected names : Parser String (Halt ε) β)
      (Parser.unexpected names : Parser String CallLimit γ) :=
  failure fun t => .unexpected names t

/-- A token is taken by both parsers alike. -/
theorem advance :
    Shadows (Parser.advance : Parser String (Halt ε) Unit)
      (Parser.advance : Parser String CallLimit Unit) := by
  intro s r s' d u hrun hdrive
  obtain ⟨rfl, rfl⟩ := hrun.unique (advance_gives s)
  obtain ⟨rfl, rfl⟩ := hdrive.unique (advance_gives s)
  cases s.next with
  | ok t => exact .ok () () t
  | error e => exact .lexical e s

/-- A token is checked and taken with and without an action, which runs between the two. -/
theorem terminal (expected name : String) (r : Token → Except ε β) (c : γ) :
    Shadows (Parser.terminal expected name fun t => (r t).mapError .inr)
      (Parser.terminal expected name fun _ => .ok c) := by
  refine kind_bind fun x => ?_
  split
  · intro s r' s' d u hrun hdrive
    rw [gives_current_bind] at hrun hdrive
    cases hr : r s.token with
    | ok b =>
        simp only [hr, Except.mapError] at hrun
        exact advance.bind (fun _ _ => pure b c) (fun _ => forward_pure c) hrun hdrive
    | error cause =>
        simp only [hr, Except.mapError] at hrun
        obtain ⟨rfl, rfl⟩ := hrun.unique rfl
        exact .failed cause _ ((forward_advance.bind fun _ => forward_pure c) hdrive)
  · exact unexpected _

/-- Where the start rule is followed, so is the run on the whole input. -/
theorem whole (h : Shadows p q) (hq : q.Forward) (endKind : String) :
    Shadows (Parser.whole endKind p) (Parser.whole endKind q) := by
  refine advance.bind (fun _ _ => h.bind (fun b c => kind_bind fun x => ?_)
    (forward_ending endKind)) fun _ => hq.bind (forward_ending endKind)
  split
  · exact pure b c
  · exact failure .trailing

end Shadows

namespace Grammar

variable {g : Grammar} {a : Analysis}

/-- The run of an atom goes forward if calls of rules do. -/
theorem forward_runAtom {call : String → Parser String CallLimit ParseTree}
    (hcall : ∀ name, (call name).Forward) (x : Atom) : (runAtom call x).Forward := by
  rw [runAtom]
  split
  · exact forward_terminal _ _ _
  · exact hcall x.name

/-- The run of atoms goes forward if calls of rules do. -/
theorem forward_runAtoms {call : String → Parser String CallLimit ParseTree}
    (hcall : ∀ name, (call name).Forward) (atoms : List Atom) : (runAtoms call atoms).Forward := by
  induction atoms with
  | nil => exact forward_pure []
  | cons x rest ih =>
      exact (forward_runAtom hcall x).bind fun part => ih.bind fun parts => forward_pure _

/-- A rule moves forward. -/
theorem forward_runRule (g : Grammar) (a : Analysis) (depth : Nat) (name : String) :
    (g.runRule a depth name).Forward := by
  induction depth generalizing name with
  | zero => exact forward_act _
  | succ depth ih =>
      refine forward_kind.bind fun x => ?_
      split
      · exact (forward_runAtoms ih _).bind fun parts => forward_pure _
      · exact forward_unexpected _

variable {m : Meaning ν ε} {call : String → List ν → Parser String (Halt ε) ν}
  {plain : String → Parser String CallLimit ParseTree}

/-- The calls of rules with values follow those without. -/
def CallsFollow (call : String → List ν → Parser String (Halt ε) ν)
    (plain : String → Parser String CallLimit ParseTree) : Prop :=
  ∀ name values, Shadows (call name values) (plain name)

/-- The run of an atom with its action follows the run without it. -/
theorem enactAtom_shadows (hcall : CallsFollow call plain) (scope : Scope ν) (x : Atom) :
    Shadows (m.enactAtom call scope x) (runAtom plain x) := by
  obtain ⟨binding, name, reference, action⟩ := x
  cases reference with
  | terminal => exact .terminal name name _ _
  | nonterminal arguments => exact (hcall name _).bind_attempt _

/-- The run of atoms with their actions follows the run without them. -/
theorem enactAtoms_shadows (hcall : CallsFollow call plain) (hplain : ∀ name, (plain name).Forward)
    (scope : Scope ν) (atoms : List Atom) :
    Shadows (m.enactAtoms call scope atoms) (runAtoms plain atoms) := by
  induction atoms generalizing scope with
  | nil => exact .pure scope []
  | cons x rest ih =>
      refine (enactAtom_shadows hcall scope x).bind (fun scope part => (ih scope).map _) fun part => ?_
      exact (forward_runAtoms hplain rest).bind fun parts => forward_pure _

/-- The run of an alternative with its action follows the run of its atoms. -/
theorem enactAlternative_shadows (hcall : CallsFollow call plain)
    (hplain : ∀ name, (plain name).Forward) (scope : Scope ν) (alt : Alternative) :
    Shadows (m.enactAlternative call scope alt) (runAtoms plain alt.atoms) := by
  have hforward := forward_runAtoms hplain alt.atoms
  cases alt with
  | epsilon init code => exact .attempt_bind _ (fun scope => .attempt _ _) hforward
  | sequence init atoms =>
      exact .attempt_bind _ (fun scope => enactAtoms_shadows hcall hplain scope atoms) hforward

variable [Inhabited ν]

/-- A rule with its actions follows the rule without them, with the same depth of calls. -/
theorem enactRule_shadows (g : Grammar) (a : Analysis) (m : Meaning ν ε) (depth : Nat) :
    CallsFollow (g.enactRule a m depth) (g.runRule a depth) := by
  induction depth with
  | zero =>
      intro name values s r s' d u hrun hdrive
      obtain ⟨rfl, rfl⟩ := gives_act_error.mp hrun
      obtain ⟨rfl, rfl⟩ := gives_act_error.mp hdrive
      exact .limit _
  | succ depth ih =>
      intro name values
      refine Shadows.kind_bind fun x => ?_
      cases harm : g.arm? a name x with
      | none => exact .unexpected _
      | some arm =>
          obtain ⟨alt, i⟩ := arm
          have hcode := enactAlternative_shadows (m := m) ih (forward_runRule g a depth)
            (g.opening name values) alt
          exact hcode.bind (fun scope parts => .pure _ _) fun parts => forward_pure _

/-- The driver with its actions follows the driver without them. -/
theorem enact_shadows (g : Grammar) (a : Analysis) (m : Meaning ν ε) (values : List ν)
    (depth : Nat) : Shadows (g.enact a m values depth) (g.drive a depth) :=
  (enactRule_shadows g a m depth g.startRule.name values).whole (forward_runRule g a depth _) endName

end Grammar
end Descent
