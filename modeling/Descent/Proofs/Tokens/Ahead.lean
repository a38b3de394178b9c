import Descent.Proofs.Tokens.Conservation
import Descent.Proofs.Tokens.Settling
import Descent.Tokens.Stream

/-!
# What a lexer returns from a cursor on

What a lexer returns from a cursor on is a stream that begins with what the next call
returns and goes on with the stream from the cursor behind it. Its end stands where the
input ends.
-/

namespace Descent

open Descent.Text Descent.Pattern

variable {κ : Type}

namespace Lexicon

variable {lexicon : Lexicon κ} {cursor after : Cursor}

/-- A rule that finds something finds it in a text that is not empty. -/
theorem ne_nil_of_firstRule? {text : List Char} {x : LexemeRule κ × Nat}
    (h : lexicon.firstRule? text = some x) : text ≠ [] := by
  rintro rfl
  obtain ⟨-, i, hpos, -, hle⟩ := firstRule?_eq_some (r := x.1) (n := x.2) h
  rw [List.length_nil] at hle
  omega

/-- A call gives the answer from where the skipped text ends. -/
theorem Answers.next_eq {answer : Except LexicalError (κ × Token)}
    (h : lexicon.Answers (lexicon.skipAll cursor) answer after) :
    lexicon.next cursor = (answer, after) := by
  rw [next]
  cases h with
  | finish hrest => simp only [hrest, List.isEmpty_nil, if_true]
  | token hfirst =>
      simp only [List.isEmpty_iff, ne_nil_of_firstRule? hfirst, if_false, hfirst]
  | fail hrest hnone => simp only [List.isEmpty_iff, hrest, if_false, hnone]

/-- All that the lexer returns from the cursor on. -/
def streamAt (lexicon : Lexicon κ) (cursor : Cursor) : Stream κ :=
  lexicon.streamFrom (cursor.rest.length + 1) cursor

/-- A token leaves less of the text. -/
theorem length_rest_next_lt {x : κ × Token} (hrest : (lexicon.skipAll cursor).rest ≠ [])
    (h : lexicon.next cursor = (.ok x, after)) : after.rest.length < cursor.rest.length := by
  obtain ⟨texts, hstrips⟩ := strips_skipAll lexicon cursor
  have hle := hstrips.length_le
  have hanswers := answers_next lexicon cursor
  rw [h] at hanswers
  cases hanswers with
  | finish hnil => exact absurd hnil hrest
  | @token r n hfirst =>
      obtain ⟨-, i, hpos, -, hn⟩ := firstRule?_eq_some hfirst
      change ((lexicon.skipAll cursor).rest.drop n).length < _
      rw [List.length_drop]
      omega

/-- The tokens ahead are no more than the characters, so that a greater bound changes nothing. -/
theorem streamFrom_eq {fuel fuel' : Nat} (h : cursor.rest.length < fuel)
    (h' : cursor.rest.length < fuel') :
    lexicon.streamFrom fuel cursor = lexicon.streamFrom fuel' cursor := by
  induction fuel generalizing fuel' cursor with
  | zero => omega
  | succ fuel ih =>
      obtain ⟨fuel', rfl⟩ := Nat.exists_eq_succ_of_ne_zero (Nat.ne_of_gt (Nat.zero_lt_of_lt h'))
      rw [streamFrom, streamFrom]
      split
      · rfl
      · next kind token after hnext =>
          split
          · rfl
          · next hrest =>
              have hlt := length_rest_next_lt (mt List.isEmpty_iff.mpr hrest) hnext
              have htail : lexicon.streamFrom fuel after = lexicon.streamFrom fuel' after :=
                ih (by omega) (by omega)
              rw [htail]

/-- The stream of an input is the one from the start of the input on. -/
theorem stream_eq_streamAt (input : String) :
    lexicon.stream input = lexicon.streamAt (.start input.toList) := rfl

/-- Where the next call fails the stream is stuck with the failure. -/
theorem streamAt_of_error {e : LexicalError} (h : lexicon.next cursor = (.error e, after)) :
    lexicon.streamAt cursor = .stuck e := by
  rw [streamAt, streamFrom, h]

/-- Where nothing is left but what may be skipped the stream ends. -/
theorem streamAt_of_end (hrest : (lexicon.skipAll cursor).rest = []) :
    lexicon.streamAt cursor =
      .finished lexicon.endKind (.atEnd (lexicon.skipAll cursor).offset) := by
  rw [streamAt, streamFrom, next]
  simp only [hrest, List.isEmpty_nil, if_true]

/-- Where the next call returns a token of a rule the stream begins with it. -/
theorem streamAt_of_token {kind : κ} {t : Token} (hrest : (lexicon.skipAll cursor).rest ≠ [])
    (h : lexicon.next cursor = (.ok (kind, t), after)) :
    lexicon.streamAt cursor = .token kind t (lexicon.streamAt after) := by
  have hlt := length_rest_next_lt hrest h
  rw [streamAt, streamFrom, h]
  simp only [List.isEmpty_iff, hrest, if_false]
  rw [streamFrom_eq hlt (Nat.lt_succ_self _), streamAt]

/-- A call skips what may be skipped at once. -/
theorem next_skipAll (lexicon : Lexicon κ) (cursor : Cursor) :
    lexicon.next (lexicon.skipAll cursor) = lexicon.next cursor := by
  obtain ⟨texts, hstrips⟩ := strips_skipAll lexicon cursor
  rw [next, next, skipAll_of_none hstrips.halted]

/-- What a call returns begins the stream that was ahead before, and leaves the rest of it ahead.
The end and a failure stay ahead for ever. -/
inductive Begins (lexicon : Lexicon κ) (cursor after : Cursor) :
    Except LexicalError (κ × Token) → Stream κ → Prop where
  | finish {n : Nat} (hn : n = cursor.offset + byteLength cursor.rest)
      (hafter : lexicon.streamAt after = .finished lexicon.endKind (.atEnd n)) :
      Begins lexicon cursor after (.ok (lexicon.endKind, .atEnd n))
        (.finished lexicon.endKind (.atEnd n))
  | token {r : LexemeRule κ} {t : Token} (hr : r ∈ lexicon.rules)
      (hlt : after.rest.length < cursor.rest.length) :
      Begins lexicon cursor after (.ok (r.kind, t)) (.token r.kind t (lexicon.streamAt after))
  | fail {e : LexicalError} (hafter : lexicon.streamAt after = .stuck e) :
      Begins lexicon cursor after (.error e) (.stuck e)

/-- The stream from a cursor on begins with what the next call returns. -/
theorem begins_next (lexicon : Lexicon κ) (cursor : Cursor) :
    lexicon.Begins cursor (lexicon.next cursor).2 (lexicon.next cursor).1
      (lexicon.streamAt cursor) := by
  obtain ⟨texts, hstrips⟩ := strips_skipAll lexicon cursor
  have hanswers := answers_next lexicon cursor
  obtain ⟨answer, after, hnext⟩ : ∃ a c, lexicon.next cursor = (a, c) := ⟨_, _, rfl⟩
  rw [hnext] at hanswers ⊢
  cases hanswers with
  | finish hrest =>
      obtain ⟨taken, htaken⟩ := hstrips.accounts
      have hend := htaken.end_eq
      rw [hrest, byteLength_nil, Nat.add_zero] at hend
      have hskip : lexicon.skipAll { lexicon.skipAll cursor with
          tokens := (lexicon.skipAll cursor).tokens + 1 } = _ := skipAll_of_none hstrips.halted
      rw [streamAt_of_end hrest]
      refine .finish hend ?_
      rw [streamAt_of_end (by rw [hskip]; exact hrest), hskip]
  | token hfirst =>
      have hrest := ne_nil_of_firstRule? hfirst
      rw [streamAt_of_token hrest hnext]
      exact .token (firstRule?_eq_some hfirst).1 (length_rest_next_lt hrest hnext)
  | fail hrest hnone =>
      rw [streamAt_of_error hnext]
      exact .fail (streamAt_of_error ((next_skipAll lexicon cursor).trans hnext))

/-- No more tokens are ahead than characters. -/
theorem length_streamAt_le (lexicon : Lexicon κ) (cursor : Cursor) :
    (lexicon.streamAt cursor).length ≤ cursor.rest.length := by
  induction hlength : cursor.rest.length using Nat.strong_induction_on generalizing cursor with
  | _ length ih =>
      have hbegins := lexicon.begins_next cursor
      generalize lexicon.streamAt cursor = stream at hbegins
      generalize (lexicon.next cursor).1 = answer at hbegins
      cases hbegins with
      | finish => exact Nat.zero_le _
      | token _ hlt =>
          have hle := ih _ (hlength ▸ hlt) (lexicon.next cursor).2 rfl
          rw [Stream.length]
          omega
      | fail => exact Nat.zero_le _

end Lexicon
end Descent
