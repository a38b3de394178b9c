import Descent.Tokens.Stream

/-!
# Runs of parsers

A run of a parser is described by its outcome and by where the parser stands then.
Runs of parsers one after the other are put together and taken apart here. A stream
spells a word where its tokens have the kinds of the word and the end comes behind
them; a parser that stands at a word moves on to the rest of it.
-/

namespace Descent

variable {κ α β γ : Type}

namespace Parser

/-- A run that starts at `s` comes to the outcome `r` and stands at `s'` then. -/
def Gives (p : Parser κ α β) (s : Standing κ) (r : Except (ParseError α) β) (s' : Standing κ) :
    Prop :=
  p.run s = (r, s')

variable {p : Parser κ α β} {f : β → Parser κ α γ} {s s' u : Standing κ} {b : β}
  {e : ParseError α}

/-- Every run comes to an outcome. -/
theorem exists_gives (p : Parser κ α β) (s : Standing κ) : ∃ r s', p.Gives s r s' := ⟨_, _, rfl⟩

/-- A run has one outcome. -/
theorem Gives.unique {r r' : Except (ParseError α) β} (h : p.Gives s r s') (h' : p.Gives s r' u) :
    r = r' ∧ s' = u :=
  Prod.mk.inj (h.symm.trans h')

/-- A run whose outcome is known comes to that outcome only. -/
theorem Gives.iff {r r' : Except (ParseError α) β} (h : p.Gives s r u) :
    p.Gives s r' s' ↔ r' = r ∧ s' = u :=
  ⟨fun h' => h'.unique h, fun ⟨hr, hs⟩ => hr ▸ hs ▸ h⟩

/-- The first part of a run is its outcome. -/
theorem Gives.fst_run {r : Except (ParseError α) β} (h : p.Gives s r s') : (p.run s).1 = r :=
  congrArg Prod.fst h

/-- A parser that does nothing comes to its value where it stands. -/
theorem gives_pure {r : Except (ParseError α) β} :
    (pure b : Parser κ α β).Gives s r s' ↔ r = .ok b ∧ s' = s := Gives.iff rfl

/-- The second parser goes on where the first one is done. -/
theorem Gives.bind {r : Except (ParseError α) γ} (h : p.Gives s (.ok b) u)
    (hf : (f b).Gives u r s') : (p >>= f).Gives s r s' := by
  have hrun : (p >>= f).run s = (f b).run u := by
    change ExceptT.bindCont f (p.run s).1 (p.run s).2 = _
    rw [h]
    rfl
  exact hrun.trans hf

/-- The second parser does not run where the first one fails. -/
theorem Gives.bind_error (h : p.Gives s (.error e) u) : (p >>= f).Gives s (.error e) u := by
  change ExceptT.bindCont f (p.run s).1 (p.run s).2 = _
  rw [h]
  rfl

/-- A run of two parsers is a run of the first that fails, or one of each. -/
theorem gives_bind {r : Except (ParseError α) γ} : (p >>= f).Gives s r s' ↔
    (∃ b u, p.Gives s (.ok b) u ∧ (f b).Gives u r s') ∨
      ∃ e, r = .error e ∧ p.Gives s (.error e) s' := by
  constructor
  · intro h
    obtain ⟨r', u, hp⟩ := exists_gives p s
    cases r' with
    | ok b =>
        obtain ⟨r'', u', hf⟩ := exists_gives (f b) u
        obtain ⟨rfl, rfl⟩ := h.unique (hp.bind hf)
        exact Or.inl ⟨b, u, hp, hf⟩
    | error e =>
        obtain ⟨rfl, rfl⟩ := h.unique hp.bind_error
        exact Or.inr ⟨e, rfl, hp⟩
  · rintro (⟨b, u, hp, hf⟩ | ⟨e, rfl, hp⟩)
    · exact hp.bind hf
    · exact hp.bind_error

/-- Two parsers succeed where the first and then the second one does. -/
theorem gives_bind_ok {c : γ} : (p >>= f).Gives s (.ok c) s' ↔
    ∃ b u, p.Gives s (.ok b) u ∧ (f b).Gives u (.ok c) s' := by
  rw [gives_bind]
  exact or_iff_left fun ⟨_, he, _⟩ => nomatch he

/-- Looking at the kind of the current token changes nothing. -/
theorem gives_kind_bind {f : κ → Parser κ α β} {r : Except (ParseError α) β} :
    (kind >>= f).Gives s r s' ↔ (f s.kind).Gives s r s' := Iff.rfl

/-- To look at the token is to go on with it. -/
theorem gives_current_bind {f : Token → Parser κ α β} {r : Except (ParseError α) β} :
    (current >>= f).Gives s r s' ↔ (f s.token).Gives s r s' := Iff.rfl

/-- To report an unexpected token fails with it where the parser stands. -/
theorem gives_unexpected {names : List String} {r : Except (ParseError α) β} :
    (unexpected names : Parser κ α β).Gives s r s' ↔
      r = .error (.unfit (.unexpected names s.token)) ∧ s' = s := Gives.iff rfl

/-- An action that fails stops the parser with its cause where it stands. -/
theorem gives_act_error {cause : α} {r : Except (ParseError α) β} :
    (act (.error cause) : Parser κ α β).Gives s r s' ↔ r = .error (.action cause) ∧ s' = s :=
  Gives.iff rfl

section

variable [DecidableEq κ] {expected endKind : κ} {name : String} {value : Token → β}
  {start : Parser κ α β}

/-- A token of another kind is reported. -/
theorem terminal_of_kind_ne {f : Token → Except α β} (h : s.kind ≠ expected) :
    (terminal expected name f).Gives s (.error (.unfit (.unexpected [name] s.token))) s := by
  refine gives_kind_bind.mpr ?_
  rw [if_neg h]
  exact gives_unexpected.mpr ⟨rfl, rfl⟩

/-- A token is taken if it is of the expected kind and the next one can be fetched. -/
theorem gives_terminal_ok : (terminal expected name fun t => .ok (value t)).Gives s
    (.ok b : Except (ParseError α) β) s' ↔
      s.kind = expected ∧ b = value s.token ∧ (advance : Parser κ α Unit).Gives s (.ok ()) s' := by
  by_cases hkind : s.kind = expected
  · rw [terminal, gives_kind_bind, if_pos hkind, gives_current_bind, gives_bind_ok]
    constructor
    · rintro ⟨_, u, hnext, hrun⟩
      obtain ⟨hb, rfl⟩ := gives_pure.mp hrun
      exact ⟨hkind, Except.ok.inj hb, hnext⟩
    · rintro ⟨_, rfl, hnext⟩
      exact ⟨(), s', hnext, gives_pure.mpr ⟨rfl, rfl⟩⟩
  · refine iff_of_false (fun h => ?_) fun h => hkind h.1
    exact nomatch (h.unique (terminal_of_kind_ne hkind)).1

/-- A terminal fails at a token of another kind, or where the next token cannot be fetched. -/
theorem gives_terminal_error (h : (terminal expected name fun t => .ok (value t)).Gives s
    (.error e : Except (ParseError α) β) s') :
    (s.kind ≠ expected ∧ e = .unfit (.unexpected [name] s.token) ∧ s' = s) ∨
      s.kind = expected ∧ (advance : Parser κ α Unit).Gives s (.error e) s' := by
  by_cases hkind : s.kind = expected
  · rw [terminal, gives_kind_bind, if_pos hkind, gives_current_bind, gives_bind] at h
    rcases h with ⟨_, u, _, hrun⟩ | ⟨e', he, hnext⟩
    · cases (gives_pure.mp hrun).1
    · obtain rfl := Except.error.inj he
      exact Or.inr ⟨hkind, hnext⟩
  · obtain ⟨he, rfl⟩ := h.unique (terminal_of_kind_ne hkind)
    exact Or.inl ⟨hkind, Except.error.inj he, rfl⟩

/-- The whole input is parsed where the start rule leads to the end. -/
theorem gives_whole_ok : (whole endKind start).Gives s (.ok b) s' ↔
    ∃ u, (advance : Parser κ α Unit).Gives s (.ok ()) u ∧ start.Gives u (.ok b) s' ∧
      s'.kind = endKind := by
  rw [whole, gives_bind_ok]
  refine ⟨fun ⟨_, u, hnext, h⟩ => ⟨u, hnext, ?_⟩, fun ⟨u, hnext, h⟩ => ⟨(), u, hnext, ?_⟩⟩
  · obtain ⟨c, v, hstart, h⟩ := gives_bind_ok.mp h
    rw [gives_kind_bind] at h
    by_cases hend : v.kind = endKind
    · rw [if_pos hend] at h
      obtain ⟨hb, rfl⟩ := gives_pure.mp h
      obtain rfl := Except.ok.inj hb
      exact ⟨hstart, hend⟩
    · rw [if_neg hend] at h
      cases (Prod.mk.inj h).1
  · refine h.1.bind (gives_kind_bind.mpr ?_)
    rw [if_pos h.2]
    exact gives_pure.mpr ⟨rfl, rfl⟩

/-- What follows the start rule and is not the end is reported. -/
theorem whole_trailing {u : Standing κ} (hnext : (advance : Parser κ α Unit).Gives s (.ok ()) u)
    (hstart : start.Gives u (.ok b) s') (hend : s'.kind ≠ endKind) :
    (whole endKind start).Gives s (.error (.unfit (.trailing s'.token))) s' := by
  refine hnext.bind (hstart.bind (gives_kind_bind.mpr ?_))
  rw [if_neg hend]
  rfl

/-- A failure of the start rule is one of the whole. -/
theorem whole_error {u : Standing κ} (hnext : (advance : Parser κ α Unit).Gives s (.ok ()) u)
    (hstart : start.Gives u (.error e) s') : (whole endKind start).Gives s (.error e) s' :=
  hnext.bind hstart.bind_error

/-- Behind the first token the whole fails where the start rule does, or in front of what follows the
start rule and is not the end. -/
theorem gives_whole_error {u : Standing κ}
    (hnext : (advance : Parser κ α Unit).Gives s (.ok ()) u) :
    (whole endKind start).Gives s (.error e) s' ↔ start.Gives u (.error e) s' ∨
      ∃ b, start.Gives u (.ok b) s' ∧ s'.kind ≠ endKind ∧ e = .unfit (.trailing s'.token) := by
  constructor
  · intro h
    obtain ⟨r, v, hrun⟩ := exists_gives start u
    cases r with
    | error e' =>
        obtain ⟨he, rfl⟩ := h.unique (whole_error hnext hrun)
        obtain rfl := Except.error.inj he
        exact Or.inl hrun
    | ok b =>
        by_cases hend : v.kind = endKind
        · cases (h.unique (gives_whole_ok.mpr ⟨u, hnext, hrun, hend⟩)).1
        · obtain ⟨he, rfl⟩ := h.unique (whole_trailing hnext hrun hend)
          exact Or.inr ⟨b, hrun, hend, Except.error.inj he⟩
  · rintro (hrun | ⟨b, hrun, hend, rfl⟩)
    · exact whole_error hnext hrun
    · exact whole_trailing hnext hrun hend

end

end Parser

/-- The tokens of a stream have the kinds of the word, none of which is the kind of the end, and the
end comes behind them. -/
inductive Stream.Spells (endKind : κ) : Stream κ → List κ → Prop where
  | finished (token : Token) : Spells endKind (.finished endKind token) []
  | token {kind : κ} (token : Token) {rest : Stream κ} {w : List κ} (hkind : kind ≠ endKind)
      (h : Spells endKind rest w) : Spells endKind (.token kind token rest) (kind :: w)

/-- A stream spells one word at most. -/
theorem Stream.Spells.unique {endKind : κ} {stream : Stream κ} {w w' : List κ}
    (h : stream.Spells endKind w) (h' : stream.Spells endKind w') : w = w' := by
  induction h generalizing w' with
  | finished =>
      cases h'
      rfl
  | token _ _ _ ih =>
      cases h' with
      | token _ _ h' => rw [ih h']

/-- A parser stands at the word: the current token has the kind of its first letter, and the stream
spells the others. -/
def Standing.Reads (endKind : κ) (s : Standing κ) : List κ → Prop
  | [] => s.kind = endKind ∧ s.upcoming.Spells endKind []
  | k :: w => s.kind = k ∧ k ≠ endKind ∧ s.upcoming.Spells endKind w

namespace Standing.Reads

variable {endKind : κ} {s : Standing κ} {w w' : List κ}

/-- The kind of the current token is the first of the word, or the kind of the end. -/
theorem kind_eq (h : s.Reads endKind w) : s.kind = w.headD endKind := by
  cases w with
  | nil => exact h.1
  | cons k w => exact h.1

/-- A parser stands at one word only. -/
theorem unique (h : s.Reads endKind w) (h' : s.Reads endKind w') : w = w' := by
  cases w with
  | nil =>
      cases w' with
      | nil => rfl
      | cons k' w' => exact absurd (h'.1.symm.trans h.1) h'.2.1
  | cons k w =>
      cases w' with
      | nil => exact absurd (h.1.symm.trans h'.1) h.2.1
      | cons k' w' => rw [h.1.symm.trans h'.1, h.2.2.unique h'.2.2]

/-- At the end of a word stands the end, and only there. -/
theorem eq_nil (h : s.Reads endKind w) (hkind : s.kind = endKind) : w = [] := by
  cases w with
  | nil => rfl
  | cons k w => exact absurd (h.1.symm.trans hkind) h.2.1

end Standing.Reads

/-- Where the stream spells a word, fetching a token leads to the word. -/
theorem Parser.advance_reads {endKind : κ} {s : Standing κ} {w : List κ}
    (h : s.upcoming.Spells endKind w) :
    ∃ u, (advance : Parser κ α Unit).Gives s (.ok ()) u ∧ u.Reads endKind w := by
  obtain ⟨kind, token, upcoming⟩ := s
  cases h with
  | finished token => exact ⟨_, rfl, rfl, .finished token⟩
  | token token hkind hrest => exact ⟨_, rfl, rfl, hkind, hrest⟩

/-- From a token that is not the end, fetching the next one leads to the rest of the word. -/
theorem Standing.Reads.advance {endKind : κ} {s : Standing κ} {w : List κ}
    (h : s.Reads endKind w) (hkind : s.kind ≠ endKind) :
    ∃ v u, w = s.kind :: v ∧ (Parser.advance : Parser κ α Unit).Gives s (.ok ()) u ∧
      u.Reads endKind v := by
  cases w with
  | nil => exact absurd h.1 hkind
  | cons k v =>
      obtain ⟨rfl, -, hspells⟩ := h
      obtain ⟨u, hnext, hu⟩ := Parser.advance_reads hspells
      exact ⟨v, u, rfl, hnext, hu⟩

/-- A stream whose tokens have the kinds of the word. -/
def Stream.ofWord (endKind : κ) (name : κ → String) : List κ → Stream κ
  | [] => .finished endKind (.atEnd 0)
  | k :: w => .token k ⟨name k, name k, 0⟩ (ofWord endKind name w)

/-- The stream of a word spells it. -/
theorem Stream.spells_ofWord {endKind : κ} (name : κ → String) {w : List κ} (h : endKind ∉ w) :
    (ofWord endKind name w).Spells endKind w := by
  induction w with
  | nil => exact .finished _
  | cons k w ih =>
      have hk : k ≠ endKind := fun he => h (he ▸ List.mem_cons_self)
      exact .token _ hk (ih fun hw => h (List.mem_cons_of_mem k hw))

end Descent
