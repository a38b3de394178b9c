import Descent.Proofs.Tokens.Ahead
import Descent.Proofs.Tokens.Movement

/-!
# Parsers that fetch their tokens from a lexer

The parser holds its current token, and its lexer stands at a cursor. The stream ahead of
the parser is all that the lexer returns from there, so that a parser that moves along the
stream asks the lexer, token after token, until the parse is over or the lexer fails.
-/

namespace Descent

open Descent.Text

variable {κ α β γ : Type}

/-! ### A parser and its lexer -/

/-- The current token of a parser, with its kind, and where the lexer of the parser stands. -/
structure Place (κ : Type) where
  kind : κ
  token : Token
  cursor : Cursor

namespace Lexicon

variable {lexicon : Lexicon κ} {p q r : Place κ} {failure : Option LexicalError}

/-- The place of a new parser, whose lexer stands in front of the input. -/
def newPlace (lexicon : Lexicon κ) (input : String) : Place κ :=
  ⟨lexicon.endKind, .atEnd 0, .start input.toList⟩

/-- Where a parser at the place stands in the stream of its lexer. -/
def standing (lexicon : Lexicon κ) (p : Place κ) : Standing κ :=
  ⟨p.kind, p.token, lexicon.streamAt p.cursor⟩

/-- The place of a new parser is where it stands in front of the stream. -/
theorem standing_newPlace (lexicon : Lexicon κ) (input : String) :
    lexicon.standing (lexicon.newPlace input) = .new lexicon input := rfl

/-- On the way from the first place to the last one the parser asks its lexer for tokens, as often as it
wants. If the lexer fails, it does so at the last time. -/
inductive Asks (lexicon : Lexicon κ) : Place κ → Option LexicalError → Place κ → Prop where
  | stop (p : Place κ) : Asks lexicon p none p
  | fail {p : Place κ} {e : LexicalError} {after : Cursor}
      (h : lexicon.next p.cursor = (.error e, after)) :
      Asks lexicon p (some e) { p with cursor := after }
  | fetch {p q : Place κ} {failure : Option LexicalError} {kind : κ} {t : Token} {after : Cursor}
      (h : lexicon.next p.cursor = (.ok (kind, t), after))
      (hrest : Asks lexicon ⟨kind, t, after⟩ failure q) : Asks lexicon p failure q

/-- A lexer that is asked from one place to the next is asked all the way. -/
theorem Asks.trans (h : lexicon.Asks p none q) (h' : lexicon.Asks q failure r) :
    lexicon.Asks p failure r := by
  generalize hnone : none = f at h
  induction h with
  | stop => exact h'
  | fail => cases hnone
  | fetch hnext _ ih => exact .fetch hnext (ih h' hnone)

/-- A call never moves the cursor back. -/
theorem offset_next_le (lexicon : Lexicon κ) (cursor : Cursor) :
    cursor.offset ≤ (lexicon.next cursor).2.offset := by
  obtain ⟨taken, htaken⟩ := accounts_next lexicon cursor
  rw [htaken.offset]
  exact Nat.le_add_right _ _

/-- The lexer never goes back. -/
theorem Asks.offset_le (h : lexicon.Asks p failure q) : p.cursor.offset ≤ q.cursor.offset := by
  induction h with
  | stop => exact Nat.le_refl _
  | @fail p e after hnext =>
      have hle := offset_next_le lexicon p.cursor
      rwa [hnext] at hle
  | @fetch p q failure kind t after hnext _ ih =>
      have hle := offset_next_le lexicon p.cursor
      rw [hnext] at hle
      exact Nat.le_trans hle ih

/-- Fetching a token from the stream is to ask the lexer. -/
theorem next_standing {u : Standing κ} (h : (lexicon.standing p).next = .ok u) :
    ∃ kind t after, lexicon.next p.cursor = (.ok (kind, t), after) ∧
      lexicon.standing ⟨kind, t, after⟩ = u := by
  have hbegins := begins_next lexicon p.cursor
  obtain ⟨answer, after, hnext⟩ : ∃ a c, lexicon.next p.cursor = (a, c) := ⟨_, _, rfl⟩
  rw [standing] at h
  rw [hnext] at hbegins
  generalize lexicon.streamAt p.cursor = stream at h hbegins
  cases hbegins with
  | finish _ hafter =>
      obtain rfl := Except.ok.inj h
      exact ⟨_, _, after, hnext, by rw [standing, hafter]⟩
  | token =>
      obtain rfl := Except.ok.inj h
      exact ⟨_, _, after, hnext, rfl⟩
  | fail => cases h

/-- Where no token can be fetched the lexer fails, and goes on to fail. -/
theorem next_standing_error {e : LexicalError} (h : (lexicon.standing p).next = .error e) :
    ∃ after, lexicon.next p.cursor = (.error e, after) ∧
      lexicon.standing { p with cursor := after } = lexicon.standing p := by
  have hbegins := begins_next lexicon p.cursor
  obtain ⟨answer, after, hnext⟩ : ∃ a c, lexicon.next p.cursor = (a, c) := ⟨_, _, rfl⟩
  rw [standing] at h
  rw [hnext] at hbegins
  generalize hstream : lexicon.streamAt p.cursor = stream at h hbegins
  cases hbegins with
  | finish => cases h
  | token => cases h
  | fail hafter =>
      obtain rfl := Except.error.inj h
      exact ⟨after, hnext, by rw [standing, standing, hafter, hstream]⟩

/-- Moving along the stream is to ask the lexer for tokens. -/
theorem asks_of_reaches {u : Standing κ} (h : (lexicon.standing p).Reaches u) :
    ∃ q, lexicon.Asks p none q ∧ lexicon.standing q = u := by
  induction h with
  | refl => exact ⟨p, .stop p, rfl⟩
  | tail _ hnext ih =>
      obtain ⟨q, hasks, rfl⟩ := ih
      obtain ⟨kind, t, after, hcall, rfl⟩ := next_standing hnext
      exact ⟨_, hasks.trans (.fetch hcall (.stop _)), rfl⟩

end Lexicon

/-! ### Parsers that move by fetching -/

namespace Parser

variable {p : Parser κ α β} {f : β → Parser κ α γ} {s s' : Standing κ}

/-- The failure of the lexer with which a parse ends. -/
def lexicalFailure? : Except (ParseError α) β → Option LexicalError
  | .ok _ => none
  | .error e => e.lexical?

/-- The parser moves by fetching tokens. If it ends with a failure of the lexer, no token can be fetched
where it stands. -/
structure Fetching (p : Parser κ α β) : Prop where
  forward : p.Forward
  failing : ∀ ⦃s e s'⦄, p.Gives s (.error (.lexical e)) s' → s'.next = .error e

/-- What the parser does in the stream of its lexer is to ask the lexer for tokens. -/
theorem Fetching.asks {lexicon : Lexicon κ} {place : Place κ} (hp : p.Fetching)
    {o : Except (ParseError α) β} (h : p.Gives (lexicon.standing place) o s') :
    ∃ place', lexicon.Asks place (lexicalFailure? o) place' ∧ lexicon.standing place' = s' := by
  obtain ⟨q, hasks, rfl⟩ := Lexicon.asks_of_reaches (hp.forward h)
  cases hfailure : lexicalFailure? o with
  | none => exact ⟨q, hasks, rfl⟩
  | some e =>
      obtain rfl : o = .error (.lexical e) := by
        match o with
        | .ok _ => cases hfailure
        | .error (.lexical e') => cases hfailure; rfl
        | .error (.unfit _) => cases hfailure
        | .error (.action _) => cases hfailure
      obtain ⟨after, hcall, hsame⟩ := Lexicon.next_standing_error (hp.failing h)
      exact ⟨_, hasks.trans (.fail hcall), hsame⟩

/-- A parser that stays where it is, and fails for no reason of the lexer. -/
theorem Fetching.of_still (h : ∀ s, ∃ r, p.Gives s r s ∧ lexicalFailure? r = none) :
    p.Fetching where
  forward := .of_still fun s => (h s).imp fun _ hr => hr.1
  failing s e s' hrun := by
    obtain ⟨r, hstill, hnone⟩ := h s
    obtain ⟨rfl, -⟩ := hrun.unique hstill
    cases hnone

/-- Parsers one behind the other move by fetching tokens if both do. -/
theorem Fetching.bind (hp : p.Fetching) (hf : ∀ b, (f b).Fetching) : (p >>= f).Fetching where
  forward := hp.forward.bind fun b => (hf b).forward
  failing s e s' hrun := by
    rcases gives_bind.mp hrun with ⟨b, u, -, hrest⟩ | ⟨e', he, hfail⟩
    · exact (hf b).failing hrest
    · obtain rfl := Except.error.inj he
      exact hp.failing hfail

/-- A parser that does nothing moves by fetching tokens. -/
theorem fetching_pure (b : β) : (pure b : Parser κ α β).Fetching :=
  .of_still fun _ => ⟨_, rfl, rfl⟩

/-- To look at the kind of the token moves by fetching tokens. -/
theorem fetching_kind : (kind : Parser κ α κ).Fetching := .of_still fun _ => ⟨_, rfl, rfl⟩

private theorem fetching_current : (current : Parser κ α Token).Fetching :=
  .of_still fun _ => ⟨_, rfl, rfl⟩

/-- To report an unexpected token moves by fetching tokens. -/
theorem fetching_unexpected (names : List String) : (unexpected names : Parser κ α β).Fetching :=
  .of_still fun _ => ⟨_, rfl, rfl⟩

/-- An action moves by fetching tokens. -/
theorem fetching_act (r : Except α β) : (act r : Parser κ α β).Fetching := by
  cases r with
  | ok b => exact fetching_pure b
  | error e => exact .of_still fun _ => ⟨_, rfl, rfl⟩

/-- To take a token is to fetch the next one. -/
theorem fetching_advance : (advance : Parser κ α Unit).Fetching where
  forward := forward_advance
  failing s e s' hrun := by
    obtain ⟨cause, hnext, he, rfl⟩ := gives_advance_error.mp hrun
    obtain rfl := ParseError.lexical.inj he
    exact hnext

section

variable [DecidableEq κ]

/-- To wait for a token moves by fetching tokens. -/
theorem fetching_terminal (expected : κ) (name : String) (g : Token → Except α β) :
    (terminal expected name g).Fetching := by
  refine fetching_kind.bind fun k => ?_
  split
  · refine fetching_current.bind fun t => ?_
    split
    · exact fetching_advance.bind fun _ => fetching_pure _
    · exact .of_still fun _ => ⟨_, rfl, rfl⟩
  · exact fetching_unexpected _

/-- A whole parse moves by fetching tokens if its start rule does. -/
theorem Fetching.whole (hp : p.Fetching) (endKind : κ) : (whole endKind p).Fetching := by
  refine fetching_advance.bind fun _ => hp.bind fun b => fetching_kind.bind fun k => ?_
  split
  · exact fetching_pure b
  · exact fetching_current.bind fun t => .of_still fun _ => ⟨_, rfl, rfl⟩

end

end Parser
end Descent
