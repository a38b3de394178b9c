import Descent.Proofs.Tokens.Runs
import Mathlib.Logic.Relation

/-!
# Movement along a stream

A parser moves by fetching tokens, one after the other, and never goes back. Where the
end of a stream is of the kind of the end, each token that is taken leaves fewer of
them ahead.
-/

namespace Descent

variable {κ α β γ : Type}

/-- Where a parser stands when it has fetched the next token, or why it cannot. -/
def Standing.next (s : Standing κ) : Except LexicalError (Standing κ) :=
  match s.upcoming with
  | .token kind token rest => .ok ⟨kind, token, rest⟩
  | .finished kind token => .ok { s with kind, token }
  | .stuck e => .error e

/-- The second place is reached from the first one by fetching tokens. -/
def Standing.Reaches : Standing κ → Standing κ → Prop :=
  Relation.ReflTransGen fun s u => s.next = .ok u

namespace Parser

variable {p : Parser κ α β} {f : β → Parser κ α γ} {s s' u : Standing κ} {e : ParseError α}

/-- Looking where the parser stands changes nothing. -/
theorem gives_get_bind {f : Standing κ → Parser κ α β} {r : Except (ParseError α) β} :
    (get >>= f).Gives s r s' ↔ (f s).Gives s r s' := Iff.rfl

/-- A token is taken by fetching the next one, or the failure of the lexer is reported. -/
theorem advance_gives (s : Standing κ) : (advance : Parser κ α Unit).Gives s
    (match s.next with | .ok _ => .ok () | .error e => .error (.lexical e))
    (match s.next with | .ok u => u | .error _ => s) := by
  obtain ⟨kind, token, upcoming⟩ := s
  cases upcoming <;> rfl

/-- A token is taken if the next one can be fetched, and the parser stands there. -/
theorem gives_advance_ok : (advance : Parser κ α Unit).Gives s (.ok ()) s' ↔ s.next = .ok s' := by
  have hrun := advance_gives (α := α) s
  cases hnext : s.next with
  | ok u =>
      simp only [hnext] at hrun
      simp [hrun.iff, eq_comm]
  | error e =>
      simp only [hnext] at hrun
      simp [hrun.iff]

/-- To take a token fails if the next one cannot be fetched, with that failure. -/
theorem gives_advance_error : (advance : Parser κ α Unit).Gives s (.error e) s' ↔
    ∃ cause, s.next = .error cause ∧ e = .lexical cause ∧ s' = s := by
  have hrun := advance_gives (α := α) s
  cases hnext : s.next with
  | ok u =>
      simp only [hnext] at hrun
      simp [hrun.iff]
  | error cause =>
      simp only [hnext] at hrun
      simp [hrun.iff]

section

variable [DecidableEq κ] {expected : κ} {name : String} {g : Token → Except α β} {b : β} {cause : α}

/-- A token is taken if it is of the expected kind, something can be made of it, and the next one can
be fetched. -/
theorem gives_terminal_token : (terminal expected name g).Gives s (.ok b) s' ↔
    s.kind = expected ∧ g s.token = .ok b ∧ s.next = .ok s' := by
  by_cases hkind : s.kind = expected
  · rw [terminal, gives_kind_bind, if_pos hkind, gives_current_bind]
    cases hg : g s.token with
    | ok c =>
        rw [gives_bind_ok]
        constructor
        · rintro ⟨_, u, hnext, hdone⟩
          obtain ⟨hb, rfl⟩ := gives_pure.mp hdone
          exact ⟨hkind, congrArg _ (Except.ok.inj hb).symm, gives_advance_ok.mp hnext⟩
        · rintro ⟨-, hb, hnext⟩
          obtain rfl := Except.ok.inj hb
          exact ⟨(), s', gives_advance_ok.mpr hnext, gives_pure.mpr ⟨rfl, rfl⟩⟩
    | error cause =>
        refine iff_of_false (fun h => ?_) fun h => ?_
        · cases (Prod.mk.inj h).1
        · cases h.2.1
  · refine iff_of_false (fun h => ?_) fun h => hkind h.1
    cases (h.unique (terminal_of_kind_ne hkind)).1

/-- Where nothing can be made of the token, the action fails in front of it. -/
theorem terminal_of_failure (hkind : s.kind = expected) (hg : g s.token = .error cause) :
    (terminal expected name g).Gives s (.error (.action cause)) s := by
  rw [terminal, gives_kind_bind, if_pos hkind, gives_current_bind, hg]
  rfl

end

/-- Every run of the parser stops at a place that is reached from where it starts. -/
def Forward (p : Parser κ α β) : Prop := ∀ ⦃s r s'⦄, p.Gives s r s' → s.Reaches s'

/-- A parser that stays where it is moves forward. -/
theorem Forward.of_still (h : ∀ s, ∃ r, p.Gives s r s) : p.Forward := by
  intro s r s' hrun
  obtain ⟨r', hstill⟩ := h s
  obtain ⟨-, rfl⟩ := hrun.unique hstill
  exact .refl

/-- Parsers one behind the other go forward if both do. -/
theorem Forward.bind (hp : p.Forward) (hf : ∀ b, (f b).Forward) : (p >>= f).Forward := by
  intro s r s' hrun
  rcases gives_bind.mp hrun with ⟨b, u, hb, hrest⟩ | ⟨e, -, he⟩
  · exact (hp hb).trans (hf b hrest)
  · exact hp he

/-- A parser that does nothing goes forward. -/
theorem forward_pure (b : β) : (pure b : Parser κ α β).Forward := .of_still fun _ => ⟨_, rfl⟩

/-- To look at the kind of the token goes forward. -/
theorem forward_kind : (kind : Parser κ α κ).Forward := .of_still fun _ => ⟨_, rfl⟩

private theorem forward_current : (current : Parser κ α Token).Forward :=
  .of_still fun _ => ⟨_, rfl⟩

private theorem forward_throw (e : ParseError α) : (throw e : Parser κ α β).Forward :=
  .of_still fun _ => ⟨_, rfl⟩

/-- To take a token goes forward. -/
theorem forward_advance : (advance : Parser κ α Unit).Forward := by
  intro s r s' hrun
  cases r with
  | ok _ => exact .single (gives_advance_ok.mp hrun)
  | error e =>
      obtain ⟨_, -, -, rfl⟩ := gives_advance_error.mp hrun
      exact .refl

/-- To report an unexpected token goes forward. -/
theorem forward_unexpected (names : List String) : (unexpected names : Parser κ α β).Forward :=
  .of_still fun _ => ⟨_, rfl⟩

/-- An action goes forward. -/
theorem forward_act (r : Except α β) : (act r : Parser κ α β).Forward := by
  cases r with
  | ok b => exact forward_pure b
  | error e => exact forward_throw _

/-- To wait for a token goes forward. -/
theorem forward_terminal [DecidableEq κ] (expected : κ) (name : String) (f : Token → Except α β) :
    (terminal expected name f).Forward := by
  refine forward_kind.bind fun k => ?_
  split
  · refine forward_current.bind fun t => ?_
    split
    · exact forward_advance.bind fun _ => forward_pure _
    · exact forward_throw _
  · exact forward_unexpected _

/-- What the run on the whole input does behind the start rule. -/
theorem forward_ending [DecidableEq κ] (endKind : κ) (b : β) :
    (do if (← kind) = endKind then return b else throw (.unfit (.trailing (← current))) :
      Parser κ α β).Forward := by
  refine forward_kind.bind fun k => ?_
  split
  · exact forward_pure b
  · exact forward_current.bind fun t => forward_throw _

end Parser

/-- The end of the stream, if it has one, is of the given kind. -/
def Stream.Closed (endKind : κ) : Stream κ → Prop
  | .token _ _ rest => rest.Closed endKind
  | .finished kind _ => kind = endKind
  | .stuck _ => True

/-- What is ahead of the next place is closed if what is ahead of this one is. -/
theorem Stream.Closed.next {endKind : κ} {s u : Standing κ} (h : s.upcoming.Closed endKind)
    (hnext : s.next = .ok u) : u.upcoming.Closed endKind := by
  obtain ⟨kind, token, upcoming⟩ := s
  cases upcoming with
  | token kind token rest =>
      obtain rfl := Except.ok.inj hnext
      exact h
  | finished kind token =>
      obtain rfl := Except.ok.inj hnext
      exact h
  | stuck e => cases hnext

/-- What is ahead of a place that is reached is closed if what was ahead before is. -/
theorem Stream.Closed.reaches {endKind : κ} {s u : Standing κ} (h : s.upcoming.Closed endKind)
    (hreach : s.Reaches u) : u.upcoming.Closed endKind := by
  induction hreach with
  | refl => exact h
  | tail _ hnext ih => exact ih.next hnext

/-- The number of tokens that can still be taken: the current one, if it is not the end, and those
that are upcoming. -/
def Standing.ahead [DecidableEq κ] (endKind : κ) (s : Standing κ) : Nat :=
  s.upcoming.length + if s.kind = endKind then 0 else 1

section

variable [DecidableEq κ] {endKind : κ} {s u : Standing κ}

/-- Behind a fetched token stands no more than was upcoming before. -/
theorem Standing.ahead_next_le (h : s.upcoming.Closed endKind) (hnext : s.next = .ok u) :
    u.ahead endKind ≤ s.upcoming.length := by
  obtain ⟨kind, token, upcoming⟩ := s
  cases upcoming with
  | token kind token rest =>
      obtain rfl := Except.ok.inj hnext
      simp only [ahead, Stream.length]
      split <;> omega
  | finished kind token =>
      obtain rfl := Except.ok.inj hnext
      have hkind : kind = endKind := h
      simp [ahead, Stream.length, hkind]
  | stuck e => cases hnext

/-- Taking a token that is not the end leaves less ahead. -/
theorem Standing.ahead_next_lt (h : s.upcoming.Closed endKind) (hkind : s.kind ≠ endKind)
    (hnext : s.next = .ok u) : u.ahead endKind < s.ahead endKind := by
  have hle := ahead_next_le h hnext
  rw [ahead.eq_1 endKind s, if_neg hkind]
  omega

/-- At a place that is reached no more tokens are ahead than before. -/
theorem Standing.Reaches.ahead_le (hreach : s.Reaches u) (h : s.upcoming.Closed endKind) :
    u.ahead endKind ≤ s.ahead endKind := by
  induction hreach with
  | refl => exact Nat.le_refl _
  | @tail t u hto hnext ih =>
      have hle := Standing.ahead_next_le (h.reaches hto) hnext
      have hcount : t.upcoming.length ≤ t.ahead endKind := Nat.le_add_right _ _
      omega

end

namespace Lexicon

/-- Where nothing is left behind the skips, the end token is fetched. -/
theorem next_of_end {lexicon : Lexicon κ} {cursor : Cursor}
    (h : (lexicon.skipAll cursor).rest.isEmpty = true) :
    (lexicon.next cursor).1 =
      .ok (lexicon.endKind, .atEnd (lexicon.skipAll cursor).offset) := by
  rw [Lexicon.next]
  simp only [h, if_true]

/-- The streams of a lexicon end with its kind of the end. -/
theorem closed_stream (lexicon : Lexicon κ) (input : String) :
    (lexicon.stream input).Closed lexicon.endKind := by
  suffices h : ∀ fuel cursor, (lexicon.streamFrom fuel cursor).Closed lexicon.endKind from h _ _
  intro fuel
  induction fuel with
  | zero => exact fun _ => rfl
  | succ fuel ih =>
      intro cursor
      rw [streamFrom]
      split
      · trivial
      · next kind token after hnext =>
          split
          · next hend =>
              have hfirst := next_of_end hend
              rw [hnext] at hfirst
              exact (Prod.mk.inj (Except.ok.inj hfirst)).1
          · exact ih after

end Lexicon
end Descent
