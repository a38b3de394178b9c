import Descent.Proofs.Tokens.Movement

/-!
# Tokens in other places

A token that stands elsewhere is the same word. A parser whose actions look at nothing but
the texts of tokens does the same wherever its tokens stand: it takes the same tokens and
comes to the same value or the same failure. Only the token that a failure reports is the
one in its new place.
-/

namespace Descent

variable {κ α β γ : Type}

namespace Token

/-- The function changes nothing of a token but where it stands. -/
structure Relocates (f : Token → Token) : Prop where
  name : ∀ t, (f t).name = t.name
  text : ∀ t, (f t).text = t.text

/-- The token, moved by the distance if it does not stand in front of the point. -/
def moveFrom (point distance : Nat) (t : Token) : Token :=
  if t.offset < point then t else { t with offset := t.offset + distance }

variable {t : Token} {point distance : Nat}

/-- A token in front of the point stays where it is. -/
theorem moveFrom_of_lt (h : t.offset < point) : t.moveFrom point distance = t := if_pos h

/-- A token from the point on is moved by the distance. -/
theorem moveFrom_of_le (h : point ≤ t.offset) :
    t.moveFrom point distance = { t with offset := t.offset + distance } :=
  if_neg (Nat.not_lt.mpr h)

/-- The token of the end is moved with the end. -/
theorem moveFrom_atEnd {n : Nat} (h : point ≤ n) :
    (atEnd n).moveFrom point distance = atEnd (n + distance) := moveFrom_of_le h

/-- A token that is moved stays the same word. -/
theorem relocates_moveFrom (point distance : Nat) : Relocates (moveFrom point distance) where
  name t := by rw [moveFrom]; split <;> rfl
  text t := by rw [moveFrom]; split <;> rfl

end Token

/-! ### Everything that holds tokens -/

/-- The stream with other tokens in the places of its own. -/
def Stream.mapToken (f : Token → Token) : Stream κ → Stream κ
  | .token kind t rest => .token kind (f t) (rest.mapToken f)
  | .finished kind t => .finished kind (f t)
  | .stuck e => .stuck e

/-- The place with other tokens there and behind it. -/
def Standing.mapToken (f : Token → Token) (s : Standing κ) : Standing κ :=
  ⟨s.kind, f s.token, s.upcoming.mapToken f⟩

/-- The failure with its token changed. -/
def SyntaxError.mapToken (f : Token → Token) : SyntaxError → SyntaxError
  | .unexpected expected found => .unexpected expected (f found)
  | .trailing found => .trailing (f found)

/-- The failure with another token in the place of the one that was found. -/
def ParseError.mapToken (f : Token → Token) : ParseError α → ParseError α
  | .lexical e => .lexical e
  | .unfit e => .unfit (e.mapToken f)
  | .action cause => .action cause

variable {f : Token → Token}

@[simp] theorem Standing.token_mapToken (s : Standing κ) : (s.mapToken f).token = f s.token := rfl

@[simp] theorem Stream.length_mapToken (stream : Stream κ) :
    (stream.mapToken f).length = stream.length := by
  induction stream with
  | token kind token rest ih => simp [mapToken, length, ih]
  | finished kind token => rfl
  | stuck e => rfl

/-- Where the same tokens are upcoming in other places, fetching one leads to the same place with
the other tokens. -/
theorem Standing.next_of_upcoming {s t : Standing κ} (h : t.upcoming = s.upcoming.mapToken f) :
    t.next = s.next.map fun u => u.mapToken f := by
  obtain ⟨kind, token, upcoming⟩ := s
  obtain ⟨kind', token', _⟩ := t
  obtain rfl := h
  cases upcoming <;> rfl

/-! ### Parsers that do not look at places -/

namespace Parser

/-- With tokens in other places the parser comes to the same outcome, but for the place of the
token that a failure reports. -/
def Placeless (p : Parser κ α β) : Prop :=
  ∀ ⦃f⦄, Token.Relocates f → ∀ ⦃s r s'⦄, p.Gives s r s' →
    p.Gives (s.mapToken f) (r.mapError fun e => e.mapToken f) (s'.mapToken f)

variable {p : Parser κ α β} {k : β → Parser κ α γ}

/-- Parsers one behind the other are placeless if both are. -/
theorem Placeless.bind (hp : p.Placeless) (hk : ∀ b, (k b).Placeless) : (p >>= k).Placeless := by
  intro f hf s r s' hrun
  rcases gives_bind.mp hrun with ⟨b, u, hb, hrest⟩ | ⟨e, rfl, he⟩
  · exact (hp hf hb).bind (hk b hf hrest)
  · exact (hp hf he).bind_error

/-- A parser that does nothing is placeless. -/
theorem placeless_pure (b : β) : (pure b : Parser κ α β).Placeless := by
  intro f hf s r s' hrun
  obtain ⟨rfl, rfl⟩ := gives_pure.mp hrun
  exact gives_pure.mpr ⟨rfl, rfl⟩

/-- To look at the kind of the token is placeless. -/
theorem placeless_kind : (kind : Parser κ α κ).Placeless := by
  intro f hf s r s' hrun
  obtain ⟨rfl, rfl⟩ := hrun.unique rfl
  rfl

/-- Looking at the current token is of no harm where its text alone matters. -/
theorem Placeless.current_bind {k : Token → Parser κ α β} (hk : ∀ t, (k t).Placeless)
    (htext : ∀ t u, t.text = u.text → k t = k u) : (current >>= k).Placeless := by
  intro f hf s r s' hrun
  have hsame : k (f s.token) = k s.token := htext _ _ (hf.text s.token)
  rw [gives_current_bind] at hrun ⊢
  rw [Standing.token_mapToken, hsame]
  exact hk s.token hf hrun

/-- A failure that reports the current token reports it where it stands. -/
theorem placeless_failure {e : Token → SyntaxError}
    (he : ∀ f t, (e t).mapToken f = e (f t)) :
    (do throw (.unfit (e (← current))) : Parser κ α β).Placeless := by
  intro f hf s r s' hrun
  obtain ⟨rfl, rfl⟩ := hrun.unique rfl
  have hmoved : (Except.error (.unfit (e s'.token)) : Except (ParseError α) β).mapError
      (fun cause => cause.mapToken f) = .error (.unfit (e (f s'.token))) :=
    congrArg (fun cause => Except.error (ParseError.unfit cause)) (he f s'.token)
  rw [hmoved]
  rfl

/-- To report an unexpected token is placeless. -/
theorem placeless_unexpected (names : List String) :
    (unexpected names : Parser κ α β).Placeless :=
  placeless_failure fun _ _ => rfl

/-- An action is placeless. -/
theorem placeless_act (r : Except α β) : (act r : Parser κ α β).Placeless := by
  intro f hf s r' s' hrun
  cases r with
  | ok b => exact placeless_pure b hf hrun
  | error cause =>
      obtain ⟨rfl, rfl⟩ := gives_act_error.mp hrun
      exact gives_act_error.mpr ⟨rfl, rfl⟩

/-- To take a token is placeless. -/
theorem placeless_advance : (advance : Parser κ α Unit).Placeless := by
  intro f hf s r s' hrun
  obtain ⟨rfl, rfl⟩ := hrun.unique (advance_gives s)
  have hmoved : (advance : Parser κ α Unit).Gives (s.mapToken f) _ _ := advance_gives _
  rw [Standing.next_of_upcoming rfl] at hmoved
  cases hnext : s.next with
  | ok u =>
      rw [hnext] at hmoved
      exact hmoved
  | error e =>
      rw [hnext] at hmoved
      exact hmoved

section

variable [DecidableEq κ]

/-- To wait for a token is placeless, if what is made of the token depends on its text only. -/
theorem placeless_terminal (expected : κ) (name : String) {g : Token → Except α β}
    (hg : ∀ t u, t.text = u.text → g t = g u) : (terminal expected name g).Placeless := by
  refine placeless_kind.bind fun x => ?_
  split
  · refine Placeless.current_bind (fun t => ?_) fun t u htext => by rw [hg t u htext]
    cases g t with
    | ok b => exact placeless_advance.bind fun _ => placeless_pure b
    | error cause => exact placeless_act (.error cause)
  · exact placeless_unexpected _

/-- A whole text is parsed in the same way where its tokens are upcoming in other places. -/
theorem Placeless.whole (hp : p.Placeless) (endKind : κ) (hf : Token.Relocates f)
    {s t u s' : Standing κ} {r : Except (ParseError α) β} (hnext : s.next = .ok u)
    (hupcoming : t.upcoming = s.upcoming.mapToken f) (hrun : (whole endKind p).Gives s r s') :
    (whole endKind p).Gives t (r.mapError fun e => e.mapToken f) (s'.mapToken f) := by
  have hrest : (do
      let b ← p
      if (← kind) = endKind then return b
      else throw (.unfit (.trailing (← current))) : Parser κ α β).Placeless := by
    refine hp.bind fun b => placeless_kind.bind fun x => ?_
    split
    · exact placeless_pure b
    · exact placeless_failure fun _ _ => rfl
  have hmoved : t.next = .ok (u.mapToken f) := by
    rw [Standing.next_of_upcoming hupcoming, hnext]
    rfl
  rcases gives_bind.mp hrun with ⟨_, v, hadvance, hbehind⟩ | ⟨e, -, hfail⟩
  · obtain rfl := Except.ok.inj (hnext.symm.trans (gives_advance_ok.mp hadvance))
    exact (gives_advance_ok.mpr hmoved).bind (hrest hf hbehind)
  · obtain ⟨cause, hstuck, -⟩ := gives_advance_error.mp hfail
    cases hnext.symm.trans hstuck

end

end Parser
end Descent
