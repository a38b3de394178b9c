import Descent.Proofs.Tokens.Fetching
import Mathlib.Logic.Function.Iterate
import Mathlib.Tactic.Choose

/-!
# Calls of one parser

A parser can be called again after a parse, however that ended, and goes on from where its
lexer stands. Each call begins with fetching a token, so that the tokens ahead become fewer
until the end or a failure of the lexer is all that is ahead. From then on the calls answer
the same for ever. A call succeeds at the end only, and so at most one does.
-/

namespace Descent

open Descent.Text

variable {κ α β : Type}

/-! ### The end ahead -/

/-- The end token closes the stream, and nothing else in it is of the kind of the end. -/
def Stream.EndsWith (endKind : κ) (last : Token) : Stream κ → Prop
  | .token kind _ rest => kind ≠ endKind ∧ rest.EndsWith endKind last
  | .finished kind t => kind = endKind ∧ t = last
  | .stuck _ => True

/-- The end token of a lexer stands where the input ends. -/
theorem Lexicon.endsWith_streamAt {lexicon : Lexicon κ}
    (h : ∀ r ∈ lexicon.rules, r.kind ≠ lexicon.endKind) (cursor : Cursor) :
    (lexicon.streamAt cursor).EndsWith lexicon.endKind
      (.atEnd (cursor.offset + byteLength cursor.rest)) := by
  -- every token leaves less of the text
  induction hlength : cursor.rest.length using Nat.strong_induction_on generalizing cursor with
  | _ length ih =>
      have hbegins := lexicon.begins_next cursor
      obtain ⟨taken, htaken⟩ := lexicon.accounts_next cursor
      obtain ⟨answer, after, hnext⟩ : ∃ a c, lexicon.next cursor = (a, c) := ⟨_, _, rfl⟩
      rw [hnext] at hbegins htaken
      generalize lexicon.streamAt cursor = stream at hbegins
      cases hbegins with
      | finish hn => exact ⟨rfl, congrArg _ hn⟩
      | token hr hlt =>
          have hrest := ih _ (hlength ▸ hlt) after rfl
          rw [htaken.end_eq] at hrest
          exact ⟨h _ hr, hrest⟩
      | fail => trivial

/-- The end closes what is ahead, and where it is the current token nothing else is ahead. -/
structure Standing.Closes (endKind : κ) (last : Token) (s : Standing κ) : Prop where
  ends : s.upcoming.EndsWith endKind last
  closed : s.kind = endKind → s.token = last ∧ s.upcoming = .finished endKind last

namespace Standing

variable {endKind : κ} {last : Token} {s u : Standing κ}

/-- Fetching the token of the end leaves nothing else ahead. -/
theorem closes_next (h : s.upcoming.EndsWith endKind last) (hnext : s.next = .ok u) :
    u.Closes endKind last := by
  obtain ⟨kind, token, upcoming⟩ := s
  cases upcoming with
  | token kind token rest =>
      obtain rfl := Except.ok.inj hnext
      exact ⟨h.2, fun hkind => absurd hkind h.1⟩
  | finished kind token =>
      obtain rfl := Except.ok.inj hnext
      obtain ⟨rfl, rfl⟩ := h
      exact ⟨⟨rfl, rfl⟩, fun _ => ⟨rfl, rfl⟩⟩
  | stuck e => cases hnext

/-- A stream that closes at a place does so at those that are reached. -/
theorem Closes.reaches (h : s.Closes endKind last) (hreach : s.Reaches u) :
    u.Closes endKind last := by
  induction hreach with
  | refl => exact h
  | tail _ hnext ih => exact closes_next ih.ends hnext

private theorem length_next (hnext : s.next = .ok u) :
    u.upcoming.length = s.upcoming.length - 1 := by
  obtain ⟨kind, token, upcoming⟩ := s
  cases upcoming with
  | token kind token rest =>
      obtain rfl := Except.ok.inj hnext
      rfl
  | finished kind token =>
      obtain rfl := Except.ok.inj hnext
      rfl
  | stuck e => cases hnext

/-- A stream that is ahead of a place that is reached is no longer than before. -/
theorem Reaches.length_le (h : s.Reaches u) : u.upcoming.length ≤ s.upcoming.length := by
  induction h with
  | refl => exact Nat.le_refl _
  | tail _ hnext ih =>
      rw [length_next hnext]
      omega

end Standing

namespace Parser

/-! ### Series of calls -/

/-- Where a parser stands after the given number of calls. -/
def standingAfter (p : Parser κ α β) (s : Standing κ) (calls : Nat) : Standing κ :=
  (fun u => (p.run u).2)^[calls] s

/-- The outcome of the call that comes after the given number of calls. -/
def outcome (p : Parser κ α β) (s : Standing κ) (calls : Nat) : Except (ParseError α) β :=
  (p.run (p.standingAfter s calls)).1

private theorem standingAfter_succ (p : Parser κ α β) (s : Standing κ) (calls : Nat) :
    p.standingAfter s (calls + 1) = (p.run (p.standingAfter s calls)).2 :=
  Function.iterate_succ_apply' _ _ _

/-- Each call goes on where the calls before have left the parser. -/
theorem gives_outcome (p : Parser κ α β) (s : Standing κ) (calls : Nat) :
    p.Gives (p.standingAfter s calls) (p.outcome s calls) (p.standingAfter s (calls + 1)) := by
  rw [standingAfter_succ]
  rfl

/-- What holds of the calls of one parser for an input. -/
structure Reusable (p : Parser κ α β) (lexicon : Lexicon κ) (names : List String)
    (input : String) : Prop where
  /-- Each call asks the lexer for tokens, up to its failure if that is the outcome, and the offset
  of the lexer never decreases. -/
  offsets : ∃ place : Nat → Place κ, place 0 = lexicon.newPlace input ∧ ∀ i,
    lexicon.standing (place i) = p.standingAfter (.new lexicon input) i ∧
      lexicon.Asks (place i) (lexicalFailure? (p.outcome (.new lexicon input) i)) (place (i + 1)) ∧
      (place i).cursor.offset ≤ (place (i + 1)).cursor.offset
  /-- At most one call succeeds. -/
  succeeds_once : ∀ {i j v w}, p.outcome (.new lexicon input) i = .ok v →
    p.outcome (.new lexicon input) j = .ok w → i = j
  /-- After a success every call finds the end where a name of the start rule is expected. -/
  after_success : ∀ {i j v}, i < j → p.outcome (.new lexicon input) i = .ok v →
    p.outcome (.new lexicon input) j =
      .error (.unfit (.unexpected names (.atEnd (byteLength input.toList))))
  /-- After a failure of the lexer every call fails with it. -/
  after_failure : ∀ {i j e}, i < j → p.outcome (.new lexicon input) i = .error (.lexical e) →
    p.outcome (.new lexicon input) j = .error (.lexical e)
  /-- The lexer fails or the end is found where something else is expected, after as many calls as the
  input has bytes and one more at the latest. -/
  settles : ∃ i < byteLength input.toList + 2,
    (∃ e, p.outcome (.new lexicon input) i = .error (.lexical e)) ∨
      ∃ expected, p.outcome (.new lexicon input) i =
        .error (.unfit (.unexpected expected (.atEnd (byteLength input.toList))))

/-! ### One call -/

/-- The start rule fetches its tokens, and where it stands at the end it reports the names. -/
structure Starts (start : Nat → Parser κ α β) (endKind : κ) (names : List String) : Prop where
  fetching : ∀ n, (start n).Fetching
  refuses : ∀ n s, s.kind = endKind →
    (start n).Gives s (.error (.unfit (.unexpected names s.token))) s

section

variable [DecidableEq κ] {start : Nat → Parser κ α β} {p : Parser κ α β} {endKind : κ}
  {names : List String} {last : Token} {s s' : Standing κ} {o : Except (ParseError α) β}

/-- A call fails where no token can be fetched, or goes on from the first token. -/
theorem gives_whole_cases {q : Parser κ α β} (hq : q.Forward)
    (h : (whole endKind q).Gives s o s') :
    (∃ e, s.next = .error e ∧ o = .error (.lexical e) ∧ s' = s) ∨
      ∃ u, s.next = .ok u ∧ u.Reaches s' := by
  rcases gives_bind.mp h with ⟨⟨⟩, u, hadvance, hrest⟩ | ⟨e, he, hadvance⟩
  · have hbehind : u.Reaches s' := (hq.bind fun b => forward_ending endKind b) hrest
    exact Or.inr ⟨u, gives_advance_ok.mp hadvance, hbehind⟩
  · obtain ⟨cause, hnext, rfl, rfl⟩ := gives_advance_error.mp hadvance
    exact Or.inl ⟨cause, hnext, he, rfl⟩

variable (hparse : p = do whole endKind (start (← get).upcoming.length))
include hparse

/-- A call in front of a failure of the lexer reports it and stays. -/
theorem call_of_stuck {e : LexicalError} (h : s.upcoming = .stuck e) :
    p.Gives s (.error (.lexical e)) s := by
  subst hparse
  have hnext : s.next = .error e := by rw [Standing.next, h]
  exact gives_get_bind.mpr (Gives.bind_error (gives_advance_error.mpr ⟨e, hnext, rfl, rfl⟩))

variable (hstart : Starts start endKind names)
include hstart

private theorem fetching_of_starts : p.Fetching := by
  subst hparse
  have hwhole := fun n => (hstart.fetching n).whole endKind
  exact ⟨fun s r s' h => (hwhole _).forward (gives_get_bind.mp h),
    fun s e s' h => (hwhole _).failing (gives_get_bind.mp h)⟩

/-- A call at the end reports the token of the end and stays. -/
theorem call_of_finished (h : s.upcoming = .finished endKind last) :
    p.Gives s (.error (.unfit (.unexpected names last)))
      ⟨endKind, last, .finished endKind last⟩ := by
  subst hparse
  have hnext : s.next = .ok ⟨endKind, last, .finished endKind last⟩ := by rw [Standing.next, h]
  exact gives_get_bind.mpr (whole_error (gives_advance_ok.mpr hnext) (hstart.refuses _ _ rfl))

/-- Where a token is ahead a call takes it. -/
theorem length_of_call (h : p.Gives s o s') (hne : s.upcoming.length ≠ 0) :
    s'.upcoming.length < s.upcoming.length := by
  subst hparse
  rcases gives_whole_cases (hstart.fetching _).forward (gives_get_bind.mp h) with
    ⟨e, hnext, -⟩ | ⟨u, hnext, hreach⟩
  · obtain ⟨kind, token, upcoming⟩ := s
    cases upcoming with
    | stuck e => exact absurd rfl hne
    | token | finished => cases hnext
  · have hle := hreach.length_le
    rw [Standing.length_next hnext] at hle
    omega

/-- A call leaves the end of what is ahead as it was. -/
theorem endsWith_of_call (h : p.Gives s o s') (hs : s.upcoming.EndsWith endKind last) :
    s'.upcoming.EndsWith endKind last := by
  subst hparse
  rcases gives_whole_cases (hstart.fetching _).forward (gives_get_bind.mp h) with
    ⟨e, -, -, rfl⟩ | ⟨u, hnext, hreach⟩
  · exact hs
  · exact ((Standing.closes_next hs hnext).reaches hreach).ends

/-- A call succeeds at the end only. -/
theorem finished_of_success {v : β} (h : p.Gives s (.ok v) s')
    (hs : s.upcoming.EndsWith endKind last) : s'.upcoming = .finished endKind last := by
  subst hparse
  have hend := (gives_whole_ok.mp (gives_get_bind.mp h)).choose_spec.2.2
  rcases gives_whole_cases (hstart.fetching _).forward (gives_get_bind.mp h) with
    ⟨e, -, ⟨⟩, -⟩ | ⟨u, hnext, hreach⟩
  exact (((Standing.closes_next hs hnext).reaches hreach).closed hend).2

/-- A call that fails with the lexer stands in front of that failure. -/
theorem stuck_of_failure {e : LexicalError} (h : p.Gives s (.error (.lexical e)) s') :
    s'.upcoming = .stuck e := by
  have hnext := (fetching_of_starts hparse hstart).failing h
  obtain ⟨kind, token, upcoming⟩ := s'
  cases upcoming with
  | stuck e' => exact congrArg _ (Except.error.inj hnext)
  | token | finished => cases hnext

/-! ### All calls -/

/-- After any number of calls the end of what is ahead is as it was. -/
theorem endsWith_standingAfter (hs : s.upcoming.EndsWith endKind last) (i : Nat) :
    (p.standingAfter s i).upcoming.EndsWith endKind last := by
  induction i with
  | zero => exact hs
  | succ i ih => exact endsWith_of_call hparse hstart (gives_outcome p s i) ih

/-- Where the end is all that is ahead it stays so, and every call reports it. -/
theorem finished_persists {i j : Nat} (h : (p.standingAfter s i).upcoming = .finished endKind last)
    (hij : i ≤ j) : (p.standingAfter s j).upcoming = .finished endKind last ∧
      p.outcome s j = .error (.unfit (.unexpected names last)) := by
  have hupcoming : (p.standingAfter s j).upcoming = .finished endKind last := by
    induction j, hij using Nat.le_induction with
    | base => exact h
    | succ j _ ih =>
        rw [((gives_outcome p s j).unique (call_of_finished hparse hstart ih)).2]
  exact ⟨hupcoming, ((gives_outcome p s j).unique (call_of_finished hparse hstart hupcoming)).1⟩

omit hstart in
/-- Where a failure of the lexer is all that is ahead it stays so, and every call fails with it. -/
theorem stuck_persists {i j : Nat} {e : LexicalError}
    (h : (p.standingAfter s i).upcoming = .stuck e) (hij : i ≤ j) :
    (p.standingAfter s j).upcoming = .stuck e ∧ p.outcome s j = .error (.lexical e) := by
  have hupcoming : (p.standingAfter s j).upcoming = .stuck e := by
    induction j, hij using Nat.le_induction with
    | base => exact h
    | succ j _ ih =>
        rw [((gives_outcome p s j).unique (call_of_stuck hparse ih)).2]
        exact ih
  exact ⟨hupcoming, ((gives_outcome p s j).unique (call_of_stuck hparse hupcoming)).1⟩

/-- As each call takes a token, none is ahead after as many calls as there are tokens. -/
theorem exists_length_eq_zero (s : Standing κ) :
    ∃ i ≤ s.upcoming.length, (p.standingAfter s i).upcoming.length = 0 := by
  induction hlength : s.upcoming.length using Nat.strong_induction_on generalizing s with
  | _ length ih =>
      by_cases hzero : s.upcoming.length = 0
      · exact ⟨0, Nat.zero_le _, hzero⟩
      · have hlt : (p.standingAfter s 1).upcoming.length < s.upcoming.length :=
          length_of_call hparse hstart (gives_outcome p s 0) hzero
        obtain ⟨i, hi, hnone⟩ := ih _ (hlength ▸ hlt) (p.standingAfter s 1) rfl
        refine ⟨i + 1, by omega, ?_⟩
        rwa [standingAfter, Function.iterate_succ_apply]

/-- The places of the parser, call after call. -/
theorem exists_places (lexicon : Lexicon κ) (input : String) :
    ∃ place : Nat → Place κ, place 0 = lexicon.newPlace input ∧ ∀ i,
      lexicon.standing (place i) = p.standingAfter (.new lexicon input) i ∧
        lexicon.Asks (place i) (lexicalFailure? (p.outcome (.new lexicon input) i))
          (place (i + 1)) := by
  have hfetching := fetching_of_starts hparse hstart
  have hcall : ∀ place : Place κ, ∃ place',
      lexicon.Asks place (lexicalFailure? (p.run (lexicon.standing place)).1) place' ∧
        lexicon.standing place' = (p.run (lexicon.standing place)).2 :=
    fun place => hfetching.asks rfl
  choose next hasks hnext using hcall
  have hstanding : ∀ i, lexicon.standing (next^[i] (lexicon.newPlace input)) =
      p.standingAfter (.new lexicon input) i := by
    intro i
    induction i with
    | zero => exact lexicon.standing_newPlace input
    | succ i ih => rw [Function.iterate_succ_apply', hnext, ih, standingAfter_succ]
  refine ⟨fun i => next^[i] (lexicon.newPlace input), rfl, fun i => ⟨hstanding i, ?_⟩⟩
  have hasked := hasks (next^[i] (lexicon.newPlace input))
  rwa [hstanding i, ← Function.iterate_succ_apply' next] at hasked

/-- A parser whose start rule refuses the end can be called again and again. -/
theorem reusable_of_starts {lexicon : Lexicon κ} (hend : lexicon.endKind = endKind)
    (hkinds : ∀ r ∈ lexicon.rules, r.kind ≠ endKind) (input : String) :
    p.Reusable lexicon names input := by
  subst hend
  let s : Standing κ := .new lexicon input
  let last : Token := .atEnd (byteLength input.toList)
  have hends : s.upcoming.EndsWith lexicon.endKind last := by
    have hstream := Lexicon.endsWith_streamAt hkinds (.start input.toList)
    rwa [Cursor.start, Nat.zero_add] at hstream
  have hsuccess : ∀ {i j v}, i < j → p.outcome s i = .ok v →
      p.outcome s j = .error (.unfit (.unexpected names last)) := by
    intro i j v hij hi
    have hrun := gives_outcome p s i
    rw [hi] at hrun
    have hfinished := finished_of_success hparse hstart hrun
      (endsWith_standingAfter hparse hstart hends i)
    exact (finished_persists hparse hstart hfinished hij).2
  refine ⟨?_, ?_, hsuccess, ?_, ?_⟩
  · obtain ⟨place, hzero, hplace⟩ := exists_places hparse hstart lexicon input
    exact ⟨place, hzero, fun i => ⟨(hplace i).1, (hplace i).2, (hplace i).2.offset_le⟩⟩
  · intro i j v w hi hj
    rcases Nat.lt_trichotomy i j with hij | hij | hij
    · cases hj.symm.trans (hsuccess hij hi)
    · exact hij
    · cases hi.symm.trans (hsuccess hij hj)
  · intro i j e hij hi
    have hrun := gives_outcome p s i
    rw [hi] at hrun
    exact (stuck_persists hparse (stuck_of_failure hparse hstart hrun) hij).2
  · obtain ⟨i, hi, hzero⟩ := exists_length_eq_zero hparse hstart s
    have hlength : s.upcoming.length ≤ input.toList.length :=
      lexicon.length_streamAt_le (.start input.toList)
    have hbytes := length_le_byteLength input.toList
    refine ⟨i, by omega, ?_⟩
    have hlast := endsWith_standingAfter hparse hstart hends i
    cases hupcoming : (p.standingAfter s i).upcoming with
    | token kind t rest =>
        rw [hupcoming] at hzero
        cases hzero
    | finished kind t =>
        rw [hupcoming] at hlast
        obtain ⟨rfl, rfl⟩ := hlast
        exact Or.inr ⟨names, (finished_persists hparse hstart hupcoming (Nat.le_refl i)).2⟩
    | stuck e => exact Or.inl ⟨e, (stuck_persists hparse hupcoming (Nat.le_refl i)).2⟩

end

end Parser
end Descent
