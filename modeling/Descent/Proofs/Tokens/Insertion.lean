import Descent.Proofs.Tokens.Relocation
import Descent.Proofs.Tokens.Splitting

/-!
# Text between tokens

A text that a tokenizer skips wherever it meets it can be put in front of an input, behind
it or directly behind a token without a change of the tokens. What the tokenizer returns is
described with the offsets of the tokens here, so that each of them is seen to stay in front
of the point, or to move by the length of the text that is put there.
-/

namespace Descent

open Descent.Text Descent.Pattern

variable {κ : Type}

/-! ### Answers and streams -/

/-- What a call returns that comes after the given number of calls, each of which took one element
of the stream. -/
def Stream.answer : Stream κ → Nat → Except LexicalError (κ × Token)
  | .token kind t _, 0 => .ok (kind, t)
  | .token _ _ rest, calls + 1 => rest.answer calls
  | .finished kind t, _ => .ok (kind, t)
  | .stuck e, _ => .error e

/-- A token of the stream ends at the offset. -/
inductive Stream.EndsAt (offset : Nat) : Stream κ → Prop where
  | here {kind : κ} {t : Token} {rest : Stream κ}
      (h : t.offset + byteLength t.text.toList = offset) : EndsAt offset (.token kind t rest)
  | later {kind : κ} {t : Token} {rest : Stream κ} (h : EndsAt offset rest) :
      EndsAt offset (.token kind t rest)

/-- The answers of a stream whose tokens are changed are the changed answers. -/
theorem Stream.answer_mapToken (f : Token → Token) (stream : Stream κ) (calls : Nat) :
    (stream.mapToken f).answer calls = (stream.answer calls).map fun x => (x.1, f x.2) := by
  induction stream generalizing calls with
  | token kind t rest ih =>
      cases calls with
      | zero => rfl
      | succ calls => exact ih calls
  | finished kind t => rfl
  | stuck e => rfl

/-- A stream whose end is returned comes to its end. -/
theorem Stream.exists_tokens?_of_answer {endKind : κ} {stream : Stream κ} {calls : Nat} {t : Token}
    (hproper : stream.Proper endKind) (h : stream.answer calls = .ok (endKind, t)) :
    ∃ us, stream.tokens? = some us := by
  induction stream generalizing calls with
  | token kind u rest ih =>
      cases calls with
      | zero => exact absurd (Prod.mk.inj (Except.ok.inj h)).1 hproper.1
      | succ calls =>
          obtain ⟨us, hus⟩ := ih hproper.2 h
          exact ⟨(kind, u) :: us, by rw [tokens?, hus, Option.map_some]⟩
  | finished => exact ⟨[], rfl⟩
  | stuck => cases h

namespace Lexicon

variable {lexicon : Lexicon κ} {cursor : Cursor}

/-- The calls from a cursor on return the elements of the stream there. -/
theorem next_iterate_eq_answer (calls : Nat) (cursor : Cursor) :
    (lexicon.next ((fun c => (lexicon.next c).2)^[calls] cursor)).1 =
      (lexicon.streamAt cursor).answer calls := by
  induction calls generalizing cursor with
  | zero =>
      have hbegins := lexicon.begins_next cursor
      rw [Function.iterate_zero_apply]
      generalize lexicon.streamAt cursor = stream at hbegins ⊢
      generalize (lexicon.next cursor).1 = answer at hbegins ⊢
      cases hbegins <;> rfl
  | succ calls ih =>
      have hbegins := lexicon.begins_next cursor
      rw [Function.iterate_succ_apply, ih]
      generalize lexicon.streamAt cursor = stream at hbegins ⊢
      generalize (lexicon.next cursor).1 = answer at hbegins
      cases hbegins with
      | finish _ hafter => rw [hafter]; rfl
      | token => rfl
      | fail hafter => rw [hafter]; rfl

/-- The answers of a lexicon are those of its stream. -/
theorem answer_eq_answer_stream (lexicon : Lexicon κ) (input : String) (calls : Nat) :
    lexicon.answer input calls = (lexicon.stream input).answer calls :=
  next_iterate_eq_answer calls _

/-! ### A text that may stand between tokens -/

/-- A word that is matched is not empty. -/
theorem ne_nil_of_firstRule?_length {word text : List Char} {r : LexemeRule κ}
    (h : lexicon.firstRule? text = some (r, word.length)) : word ≠ [] := by
  rintro rfl
  obtain ⟨-, i, hpos, -⟩ := firstRule?_eq_some h
  exact Nat.not_lt_zero i hpos

/-- The text is skipped wherever it is put between tokens, and what is put there changes nothing of
what is skipped or matched in front of it. -/
structure Insertable (lexicon : Lexicon κ) (u : List Char) : Prop where
  /-- It is skipped in front of any text. -/
  front : ∀ text, lexicon.skipText (u ++ text) = lexicon.skipText text
  /-- It is skipped behind a text that is skipped. -/
  back : ∀ text, lexicon.skipText text = [] → lexicon.skipText (text ++ u) = []
  /-- What is skipped in front of a word is so without regard to the text behind the word. -/
  skips : ∀ skipped word text text', word ≠ [] →
    lexicon.skipText (skipped ++ (word ++ text)) = word ++ text →
      lexicon.skipText (skipped ++ (word ++ text')) = word ++ text'
  /-- A word is matched without regard to the text that is put anywhere behind it. -/
  finds : ∀ word between after r,
    lexicon.firstRule? (word ++ (between ++ after)) = some (r, word.length) →
      lexicon.firstRule? (word ++ (between ++ (u ++ after))) = some (r, word.length)

namespace Scans

variable {offset point : Nat} {text before after u : List Char} {stream : Stream κ}

/-- The tokens of a text that stands farther behind are moved as far. -/
theorem shift (h : lexicon.Scans offset text stream) (hpoint : point ≤ offset) (distance : Nat) :
    lexicon.Scans (offset + distance) text (stream.mapToken (Token.moveFrom point distance)) := by
  induction h with
  | @finish offset text hskip =>
      have hmoved : (Token.atEnd (offset + byteLength text)).moveFrom point distance =
          .atEnd (offset + distance + byteLength text) := by
        rw [Token.moveFrom_atEnd (Nat.le_add_right_of_le hpoint), Nat.add_right_comm]
      rw [Stream.mapToken, hmoved]
      exact .finish hskip
  | @token offset skipped word back r rest hskip hfirst _ ih =>
      have hplace : offset + byteLength skipped + distance =
          offset + distance + byteLength skipped := by omega
      have hrest := ih (by omega)
      rw [Nat.add_right_comm _ _ distance, hplace] at hrest
      rw [Stream.mapToken, Token.moveFrom_of_le (by dsimp only; omega)]
      dsimp only
      rw [hplace]
      exact .token hskip hfirst hrest

/-- Where the skipped text begins does not matter, but where it ends. -/
theorem of_skipText_eq {text' : List Char} {offset' : Nat} (h : lexicon.Scans offset text stream)
    (hskips : lexicon.skipText text' = lexicon.skipText text)
    (hend : offset' + byteLength text' = offset + byteLength text) :
    lexicon.Scans offset' text' stream := by
  cases h with
  | finish hskip => exact hend ▸ .finish (hskips.trans hskip)
  | @token _ skipped word back r rest hskip hfirst hrest =>
      obtain ⟨skipped', htext, -⟩ := exists_skipped_text lexicon (.start text')
      change text' = skipped' ++ lexicon.skipText text' at htext
      rw [hskips, hskip] at htext
      have hplace : offset + byteLength skipped = offset' + byteLength skipped' := by
        simp only [htext, byteLength_append] at hend
        omega
      rw [hplace] at hrest ⊢
      rw [htext, hskip] at hskips
      exact htext ▸ .token hskips hfirst hrest

/-- In front of the tokens the text may stand. -/
theorem insert_front (hu : lexicon.Insertable u) (h : lexicon.Scans offset text stream) :
    lexicon.Scans offset (u ++ text)
      (stream.mapToken (Token.moveFrom offset (byteLength u))) := by
  have hshift := h.shift (Nat.le_refl offset) (byteLength u)
  refine hshift.of_skipText_eq (hu.front text) ?_
  rw [byteLength_append, Nat.add_assoc]

/-- A token ends behind where the text begins. -/
theorem le_of_endsAt (h : lexicon.Scans offset text stream) (hends : stream.EndsAt point) :
    offset ≤ point := by
  induction h with
  | finish => cases hends
  | token _ _ _ ih =>
      cases hends with
      | here h =>
          simp only [String.toList_ofList] at h
          omega
      | later h =>
          have hbehind := ih h
          omega

/-- No token ends in front of the end of the first one, and what ends behind it ends farther on. -/
theorem endsAt_token {kind : κ} {name : String} {word back : List Char} {rest : Stream κ}
    (hrest : lexicon.Scans (offset + byteLength word) back rest)
    (hends : (Stream.token kind ⟨name, String.ofList word, offset⟩ rest).EndsAt point) :
    point = offset + byteLength word ∨
      offset + byteLength word ≤ point ∧ rest.EndsAt point := by
  cases hends with
  | here h => exact Or.inl (by simpa using h.symm)
  | later h => exact Or.inr ⟨hrest.le_of_endsAt h, h⟩

/-- A call returns a token that ends at some place in the stream, or the end. -/
theorem endsAt_of_answer {calls : Nat} {kind : κ} {t : Token}
    (h : lexicon.Scans offset text stream) (hanswer : stream.answer calls = .ok (kind, t)) :
    stream.EndsAt (t.offset + byteLength t.text.toList) ∨
      t.offset + byteLength t.text.toList = offset + byteLength text := by
  induction h generalizing calls with
  | finish =>
      obtain ⟨-, rfl⟩ := Prod.mk.inj (Except.ok.inj hanswer)
      exact Or.inr rfl
  | token _ _ _ ih =>
      cases calls with
      | zero =>
          obtain ⟨-, rfl⟩ := Prod.mk.inj (Except.ok.inj hanswer)
          exact Or.inl (.here rfl)
      | succ calls =>
          rcases ih hanswer with hends | hlast
          · exact Or.inl (.later hends)
          · refine Or.inr ?_
            simp only [byteLength_append]
            omega

/-- Behind all tokens, and directly behind each of them, the text may stand. -/
theorem insert_behind (hu : lexicon.Insertable u) (h : lexicon.Scans offset text stream)
    (htext : text = before ++ after)
    (hpoint : after = [] ∨ stream.EndsAt (offset + byteLength before)) :
    lexicon.Scans offset (before ++ (u ++ after))
      (stream.mapToken (Token.moveFrom (offset + byteLength before) (byteLength u))) := by
  induction h generalizing before with
  | @finish offset text hskip =>
      obtain rfl : after = [] := hpoint.resolve_right fun hends => nomatch hends
      rw [List.append_nil] at htext ⊢
      obtain rfl := htext
      have hend : offset + byteLength text + byteLength u = offset + byteLength (text ++ u) := by
        rw [byteLength_append, Nat.add_assoc]
      rw [Stream.mapToken, Token.moveFrom_atEnd (Nat.le_refl _), hend]
      exact .finish (hu.back text hskip)
  | @token offset skipped word back r rest hskip hfirst hrest ih =>
      have hword := ne_nil_of_firstRule?_length hfirst
      have hbytes : 0 < byteLength word :=
        Nat.lt_of_lt_of_le (List.length_pos_iff.mpr hword) (length_le_byteLength word)
      rw [← List.append_assoc] at htext
      -- the point is not in front of the end of the token
      have hle : byteLength (skipped ++ word) ≤ byteLength before := by
        rcases hpoint with rfl | hends
        · rw [← List.append_nil before, ← htext, byteLength_append _ back]
          exact Nat.le_add_right _ _
        · rw [byteLength_append]
          rcases hrest.endsAt_token hends with hhere | ⟨hbehind, -⟩ <;> omega
      obtain ⟨between, rfl, rfl⟩ := exists_between htext hle
      have hplace : offset + byteLength (skipped ++ word ++ between) =
          offset + byteLength skipped + byteLength word + byteLength between := by
        simp only [byteLength_append, Nat.add_assoc]
      have hbefore : offset + byteLength skipped <
          offset + byteLength (skipped ++ word ++ between) := by omega
      have hinserted : lexicon.Scans (offset + byteLength skipped + byteLength word)
          (between ++ (u ++ after)) (rest.mapToken (Token.moveFrom
            (offset + byteLength (skipped ++ word ++ between)) (byteLength u))) := by
        rw [hplace] at hpoint ⊢
        rcases hpoint with rfl | hends
        · exact ih rfl (Or.inl rfl)
        · rcases hrest.endsAt_token hends with hhere | ⟨-, hlater⟩
          · obtain rfl := eq_nil_of_byteLength (show byteLength between = 0 by omega)
            exact hrest.insert_front hu
          · exact ih rfl (Or.inr hlater)
      rw [Stream.mapToken, Token.moveFrom_of_lt hbefore, List.append_assoc, List.append_assoc]
      exact .token (hu.skips _ _ _ _ hword hskip) (hu.finds _ _ _ _ hfirst) hinserted

/-- The text may stand in front of all tokens, behind all of them, and directly behind each of
them. The tokens stay the same, and those behind are moved. -/
theorem insert (hu : lexicon.Insertable u) (h : lexicon.Scans offset (before ++ after) stream)
    (hpoint : before = [] ∨ after = [] ∨ stream.EndsAt (offset + byteLength before)) :
    lexicon.Scans offset (before ++ (u ++ after))
      (stream.mapToken (Token.moveFrom (offset + byteLength before) (byteLength u))) := by
  rcases hpoint with rfl | hpoint
  · exact h.insert_front hu
  · exact h.insert_behind hu rfl hpoint

end Scans

/-! ### Points of an input -/

/-- The two texts are the input in front of a point and behind it. The point is the start of the
input, its end, or directly behind the text of a token that is returned. -/
inductive Gap (lexicon : Lexicon κ) (source : String) : List Char → List Char → Prop where
  | start : Gap lexicon source [] source.toList
  | finish : Gap lexicon source source.toList []
  | behind {before after : List Char} {calls : Nat} {kind : κ} {t : Token}
      (hsplit : source.toList = before ++ after)
      (hanswer : lexicon.answer source calls = .ok (kind, t))
      (hend : t.offset + byteLength t.text.toList = byteLength before) :
      Gap lexicon source before after

/-- In an input whose tokens come to the end, the text may stand at any such point. -/
theorem stream_insert {source : String} {before after u : List Char} {us : List (κ × Token)}
    (hu : lexicon.Insertable u) (htokens : (lexicon.stream source).tokens? = some us)
    (hgap : lexicon.Gap source before after) :
    lexicon.stream (String.ofList (before ++ (u ++ after))) =
      (lexicon.stream source).mapToken (Token.moveFrom (byteLength before) (byteLength u)) := by
  rw [stream_eq_streamAt] at htokens ⊢
  have hscans := scans_of_tokens? htokens
  rw [← stream_eq_streamAt, Cursor.start] at hscans
  have hinserted : lexicon.Scans 0 (before ++ (u ++ after)) ((lexicon.stream source).mapToken
      (Token.moveFrom (0 + byteLength before) (byteLength u))) := by
    cases hgap with
    | start => exact hscans.insert hu (Or.inl rfl)
    | finish => exact Scans.insert hu (by rwa [List.append_nil]) (Or.inr (Or.inl rfl))
    | behind hsplit hanswer hend =>
        rw [answer_eq_answer_stream] at hanswer
        have hpoint := hscans.endsAt_of_answer hanswer
        rw [hsplit] at hscans hpoint
        refine hscans.insert hu (Or.inr ?_)
        rw [hend, byteLength_append] at hpoint
        rcases hpoint with hends | hlast
        · exact Or.inr (by rwa [Nat.zero_add])
        · exact Or.inl (eq_nil_of_byteLength (by omega))
  rw [Nat.zero_add] at hinserted
  exact streamAt_of_scans hinserted String.toList_ofList rfl

end Lexicon
end Descent
