import Descent.Proofs.Tokens.Calls

/-!
# What tokenizing takes

Whatever a tokenizer takes from an input is either skipped or the text of a token. The
pieces that a series of calls takes stand side by side from the beginning of the input up
to the cursor, none of them empty and each where a pattern finds it; nothing is lost
between them and nothing is taken twice.
-/

namespace Descent

open Descent.Text Descent.Pattern

variable {κ : Type}

/-- A piece that a tokenizer takes from its input. -/
inductive Taken (κ : Type) where
  | skip (text : List Char)
  | token (kind : κ) (token : Token)

namespace Taken

/-- The text that is taken. -/
def text : Taken κ → List Char
  | skip text => text
  | token _ t => t.text.toList

/-- The token that is made of the piece, if it is not skipped. -/
def token? : Taken κ → Option (κ × Token)
  | skip _ => none
  | token kind t => some (kind, t)

/-- Whether the piece is skipped. -/
def isSkip : Taken κ → Bool
  | skip _ => true
  | token _ _ => false

end Taken

/-- The text of pieces that stand side by side. -/
def takenText (taken : List (Taken κ)) : List Char := taken.flatMap Taken.text

/-- The text of the token stands in the input at the offset of the token. -/
def Token.IsSliceOf (t : Token) (input : List Char) : Prop :=
  ∃ before after, input = before ++ t.text.toList ++ after ∧ byteLength before = t.offset

/-- The token of a call that returns one with a text. -/
def properToken? : Except LexicalError (κ × Token) → Option (κ × Token)
  | .ok (kind, t) => if t.text = "" then none else some (kind, t)
  | .error _ => none

namespace Lexicon

/-- A pattern finds the piece where the text at the offset begins: the match ends with the piece. -/
def Finds (lexicon : Lexicon κ) (offset : Nat) (text : List Char) : Taken κ → Prop
  | .skip piece => ∃ p ∈ lexicon.skips, ∃ i, p.find text = some (i, piece.length)
  | .token kind t => t.offset = offset ∧ ∃ r ∈ lexicon.rules, r.kind = kind ∧ r.name = t.name ∧
      ∃ i < t.text.toList.length, r.pattern.find text = some (i, t.text.toList.length)

/-- The pieces stand side by side in the text, the first one at the offset, up to the rest; each is
found where it begins, and none is empty. -/
inductive Tiles (lexicon : Lexicon κ) : Nat → List Char → List (Taken κ) → List Char → Prop where
  | nil (offset : Nat) (rest : List Char) : Tiles lexicon offset rest [] rest
  | cons {offset : Nat} {x : Taken κ} {taken : List (Taken κ)} {back rest : List Char}
      (hfound : lexicon.Finds offset (x.text ++ back) x) (hne : x.text ≠ [])
      (hrest : Tiles lexicon (offset + byteLength x.text) back taken rest) :
      Tiles lexicon offset (x.text ++ back) (x :: taken) rest

variable {lexicon : Lexicon κ} {offset : Nat} {text rest : List Char} {taken : List (Taken κ)}

namespace Tiles

/-- Pieces behind pieces tile a text. -/
theorem append {taken' : List (Taken κ)} {rest' : List Char}
    (h : lexicon.Tiles offset text taken rest)
    (h' : lexicon.Tiles (offset + byteLength (takenText taken)) rest taken' rest') :
    lexicon.Tiles offset text (taken ++ taken') rest' := by
  induction h with
  | nil offset rest => simpa [takenText] using h'
  | cons hfound hne _ ih =>
      refine .cons hfound hne (ih ?_)
      simpa [takenText, Nat.add_assoc] using h'

/-- The piece of the next characters is put in front of those behind it. -/
theorem take {x : Taken κ} {n : Nat} (hx : x.text = text.take n) (hpos : 0 < n)
    (hle : n ≤ text.length) (hfound : lexicon.Finds offset text x)
    (hrest : lexicon.Tiles (offset + byteLength (text.take n)) (text.drop n) taken rest) :
    lexicon.Tiles offset text (x :: taken) rest := by
  have hsplit : text = x.text ++ text.drop n := by rw [hx, List.take_append_drop]
  have hne : x.text ≠ [] := by
    rw [← List.length_pos_iff, hx, List.length_take_of_le hle]
    exact hpos
  rw [← hx] at hrest
  rw [hsplit] at hfound ⊢
  exact .cons hfound hne hrest

/-- The pieces and the rest are the whole text. -/
theorem text_eq (h : lexicon.Tiles offset text taken rest) : text = takenText taken ++ rest := by
  induction h with
  | nil => rfl
  | cons _ _ _ ih => rw [takenText, List.flatMap_cons, List.append_assoc, ← takenText, ← ih]

/-- The pieces that tile a text are not empty. -/
theorem text_ne_nil (h : lexicon.Tiles offset text taken rest) : ∀ x ∈ taken, x.text ≠ [] := by
  induction h with
  | nil => exact fun _ hx => nomatch hx
  | cons _ hne _ ih => exact List.forall_mem_cons.mpr ⟨hne, ih⟩

/-- A token stands in the text at its offset, which counts from the offset of the text. -/
theorem exists_slice (h : lexicon.Tiles offset text taken rest) :
    ∀ x ∈ taken.filterMap Taken.token?, ∃ before after,
      text = before ++ x.2.text.toList ++ after ∧ offset + byteLength before = x.2.offset := by
  induction h with
  | nil => exact fun _ hx => nomatch hx
  | @cons offset x taken back rest hfound _ _ ih =>
      have hlater : ∀ y ∈ taken.filterMap Taken.token?, ∃ before after,
          x.text ++ back = before ++ y.2.text.toList ++ after ∧
            offset + byteLength before = y.2.offset := by
        intro y hy
        obtain ⟨before, after, hback, hoffset⟩ := ih y hy
        refine ⟨x.text ++ before, after, ?_, ?_⟩
        · rw [hback, List.append_assoc, List.append_assoc, List.append_assoc]
        · rw [byteLength_append, ← Nat.add_assoc, hoffset]
      cases x with
      | skip piece => exact hlater
      | token kind t =>
          refine List.forall_mem_cons.mpr ⟨⟨[], back, rfl, ?_⟩, hlater⟩
          exact hfound.1.symm

/-- Tokens stand one behind the other, and behind the offset of the text. -/
theorem apart (h : lexicon.Tiles offset text taken rest) :
    (taken.filterMap Taken.token?).Pairwise fun x y =>
      x.2.offset < y.2.offset ∧ x.2.offset + byteLength x.2.text.toList ≤ y.2.offset := by
  induction h with
  | nil => exact .nil
  | @cons offset x taken back rest hfound hne hrest ih =>
      cases x with
      | skip piece => exact ih
      | token kind t =>
          refine List.pairwise_cons.mpr ⟨fun y hy => ?_, ih⟩
          obtain ⟨before, -, -, hoffset⟩ := hrest.exists_slice y hy
          have hpos : 0 < t.text.toList.length := List.length_pos_iff.mpr hne
          have hbytes := length_le_byteLength t.text.toList
          have hplace : t.offset = offset := hfound.1
          simp only [Taken.text] at hoffset
          dsimp only
          omega

end Tiles

/-- On the way from the first cursor to the last one the answers were given and the pieces taken. -/
structure Accounts (lexicon : Lexicon κ) (first : Cursor)
    (answers : List (Except LexicalError (κ × Token))) (taken : List (Taken κ)) (last : Cursor) :
    Prop where
  tiles : lexicon.Tiles first.offset first.rest taken last.rest
  offset : last.offset = first.offset + byteLength (takenText taken)
  returned : taken.filterMap Taken.token? = answers.filterMap properToken?
  tokens : last.tokens = first.tokens + answers.countP Except.isOk
  skipped : last.skipped = first.skipped + taken.countP Taken.isSkip
  ending : ∀ kind t, .ok (kind, t) ∈ answers → t.text = "" →
    kind = lexicon.endKind ∧ t = .atEnd (first.offset + byteLength first.rest)

namespace Accounts

variable {first middle last : Cursor} {answers answers' : List (Except LexicalError (κ × Token))}
  {taken' : List (Taken κ)}

private theorem refl (lexicon : Lexicon κ) (cursor : Cursor) :
    lexicon.Accounts cursor [] [] cursor :=
  ⟨.nil _ _, rfl, rfl, rfl, rfl, fun _ _ h => nomatch h⟩

/-- The input ends where it ends. -/
theorem end_eq (h : lexicon.Accounts first answers taken last) :
    last.offset + byteLength last.rest = first.offset + byteLength first.rest := by
  rw [h.offset, h.tiles.text_eq, byteLength_append, Nat.add_assoc]

/-- Two series of calls, one behind the other, account for what both take. -/
theorem trans (h : lexicon.Accounts first answers taken middle)
    (h' : lexicon.Accounts middle answers' taken' last) :
    lexicon.Accounts first (answers ++ answers') (taken ++ taken') last where
  tiles := h.tiles.append (h.offset ▸ h'.tiles)
  offset := by
    rw [h'.offset, h.offset, takenText, takenText, takenText, List.flatMap_append,
      byteLength_append, Nat.add_assoc]
  returned := by rw [List.filterMap_append, List.filterMap_append, h.returned, h'.returned]
  tokens := by rw [h'.tokens, h.tokens, List.countP_append, Nat.add_assoc]
  skipped := by rw [h'.skipped, h.skipped, List.countP_append, Nat.add_assoc]
  ending := by
    intro kind t hmem htext
    rcases List.mem_append.mp hmem with hmem | hmem
    · exact h.ending kind t hmem htext
    · exact h.end_eq ▸ h'.ending kind t hmem htext

end Accounts

/-- Rounds of skipping take their texts side by side. -/
theorem Strips.accounts {cursor last : Cursor} {texts : List (List Char)}
    (h : lexicon.Strips cursor texts last) : ∃ taken, lexicon.Accounts cursor [] taken last := by
  induction h with
  | @halt cursor _ => exact ⟨[], .refl lexicon cursor⟩
  | @round cursor last n texts hlength _ ih =>
      obtain ⟨taken, hrest⟩ := ih
      obtain ⟨p, hp, i, hfind, hpos, hle⟩ := skipLength?_eq_some hlength
      have hround : lexicon.Accounts cursor [] [.skip (cursor.rest.take n)]
          { Lexicon.take cursor n with skipped := cursor.skipped + 1 } := by
        refine ⟨.take rfl hpos hle ⟨p, hp, i, ?_⟩ (.nil _ _), ?_, rfl, rfl, rfl,
          fun _ _ h => nomatch h⟩
        · rw [hfind, List.length_take_of_le hle]
        · simp [takenText, Taken.text, Lexicon.take]
      exact ⟨_, hround.trans hrest⟩

/-- The text of a token is what is taken for it, and the end takes nothing. -/
theorem Answers.accounts {cursor last : Cursor} {answer : Except LexicalError (κ × Token)}
    (h : lexicon.Answers cursor answer last) :
    ∃ taken, lexicon.Accounts cursor [answer] taken last := by
  cases h with
  | finish hrest =>
      refine ⟨[], .nil _ _, rfl, rfl, rfl, rfl, fun kind t hmem _ => ?_⟩
      obtain ⟨rfl, rfl⟩ := Prod.mk.inj (Except.ok.inj (List.mem_singleton.mp hmem))
      rw [hrest]
      exact ⟨rfl, rfl⟩
  | @token r n hfirst =>
      obtain ⟨hr, i, hpos, hfind, hle⟩ := firstRule?_eq_some hfirst
      have hlength : (String.ofList (cursor.rest.take n)).toList.length = n := by
        rw [String.toList_ofList, List.length_take_of_le hle]
      have htext := text_ne_of_firstRule? hfirst
      refine ⟨[.token r.kind ⟨r.name, String.ofList (cursor.rest.take n), cursor.offset⟩],
        .take String.toList_ofList (by omega) hle ⟨rfl, r, hr, rfl, rfl, i, ?_⟩ (.nil _ _),
        ?_, ?_, rfl, rfl, fun kind t hmem hempty => ?_⟩
      · rw [hlength]
        exact ⟨hpos, hfind⟩
      · simp [takenText, Taken.text, Lexicon.take]
      · simp [Taken.token?, properToken?, htext]
      · obtain ⟨rfl, rfl⟩ := Prod.mk.inj (Except.ok.inj (List.mem_singleton.mp hmem))
        exact absurd hempty htext
  | fail =>
      refine ⟨[], .nil _ _, rfl, rfl, rfl, rfl, fun kind t hmem _ => ?_⟩
      cases List.mem_singleton.mp hmem

/-- What one call takes. -/
theorem accounts_next (lexicon : Lexicon κ) (cursor : Cursor) : ∃ taken,
    lexicon.Accounts cursor [(lexicon.next cursor).1] taken (lexicon.next cursor).2 := by
  obtain ⟨texts, hstrips⟩ := strips_skipAll lexicon cursor
  obtain ⟨skips, hskips⟩ := hstrips.accounts
  obtain ⟨taken, htaken⟩ := (answers_next lexicon cursor).accounts
  exact ⟨_, hskips.trans htaken⟩

/-- What a series of calls takes. -/
theorem accounts_cursorAfter (lexicon : Lexicon κ) (input : String) (calls : Nat) : ∃ taken,
    lexicon.Accounts (.start input.toList) ((List.range calls).map (lexicon.answer input)) taken
      (lexicon.cursorAfter input calls) := by
  induction calls with
  | zero => exact ⟨[], .refl lexicon _⟩
  | succ calls ih =>
      obtain ⟨taken, htaken⟩ := ih
      obtain ⟨taken', htaken'⟩ := accounts_next lexicon (lexicon.cursorAfter input calls)
      rw [List.range_succ, List.map_append, cursorAfter_succ]
      exact ⟨_, htaken.trans htaken'⟩

/-- The account of the calls that gave the answers and led to the cursor: what they took from the
input, and what they gave for it. -/
structure Conserves (lexicon : Lexicon κ) (input : List Char)
    (answers : List (Except LexicalError (κ × Token))) (cursor : Cursor) (taken : List (Taken κ)) :
    Prop where
  /-- What is consumed are the pieces in order, and the rest stands behind it. -/
  split : input = takenText taken ++ cursor.rest
  /-- The cursor stands between two characters, behind what is consumed. -/
  offset : cursor.offset = byteLength (takenText taken)
  nonempty : ∀ x ∈ taken, x.text ≠ []
  /-- Each piece is found by a pattern where it begins. -/
  tiles : lexicon.Tiles 0 input taken cursor.rest
  /-- The tokens among the pieces are those that were returned, but for the tokens of the end. -/
  returned : taken.filterMap Taken.token? = answers.filterMap properToken?
  /-- A token without a text is one of the end, where the input ends. -/
  ending : ∀ kind t, .ok (kind, t) ∈ answers → t.text = "" →
    kind = lexicon.endKind ∧ t = .atEnd (byteLength input)
  slices : ∀ kind t, .ok (kind, t) ∈ answers → t.IsSliceOf input
  apart : (answers.filterMap properToken?).Pairwise fun x y =>
    x.2.offset < y.2.offset ∧ x.2.offset + byteLength x.2.text.toList ≤ y.2.offset
  /-- Every returned token is counted, those of the end included. -/
  tokens : cursor.tokens = answers.countP Except.isOk
  skipped : cursor.skipped = taken.countP Taken.isSkip

/-- Tokenizing loses nothing and takes nothing twice, however many calls are made. -/
theorem conserves_calls (lexicon : Lexicon κ) (input : String) (calls : Nat) : ∃ taken,
    lexicon.Conserves input.toList ((List.range calls).map (lexicon.answer input))
      (lexicon.cursorAfter input calls) taken := by
  obtain ⟨taken, h⟩ := accounts_cursorAfter lexicon input calls
  have hending : ∀ kind t, .ok (kind, t) ∈ (List.range calls).map (lexicon.answer input) →
      t.text = "" → kind = lexicon.endKind ∧ t = .atEnd (byteLength input.toList) := by
    intro kind t hmem htext
    have := h.ending kind t hmem htext
    rwa [Cursor.start, Nat.zero_add] at this
  refine ⟨taken, h.tiles.text_eq, ?_, h.tiles.text_ne_nil, h.tiles, h.returned, hending,
    fun kind t hmem => ?_, h.returned ▸ h.tiles.apart, ?_, ?_⟩
  · rw [h.offset, Cursor.start, Nat.zero_add]
  · by_cases htext : t.text = ""
    · obtain ⟨-, rfl⟩ := hending kind t hmem htext
      exact ⟨input.toList, [], by simp [Token.atEnd], rfl⟩
    · have hproper : (kind, t) ∈ taken.filterMap Taken.token? := by
        rw [h.returned]
        exact List.mem_filterMap.mpr ⟨_, hmem, if_neg htext⟩
      obtain ⟨before, after, hinput, hoffset⟩ := h.tiles.exists_slice _ hproper
      rw [Cursor.start, Nat.zero_add] at hoffset
      exact ⟨before, after, hinput, hoffset⟩
  · rw [h.tokens, Cursor.start, Nat.zero_add]
  · rw [h.skipped, Cursor.start, Nat.zero_add]

end Lexicon
end Descent
