import Descent.Proofs.Pattern.Classes
import Descent.Proofs.Tokens.Ahead
import Descent.Proofs.Tokens.Listing

/-!
# Splitting a text into tokens

The tokens that a lexer returns are found by taking all that may be skipped and the match
of the first rule in turn. They depend on the text ahead only, and their offsets on where it
begins. Where what may be skipped is one class of characters, it does not matter how many of
them stand between two tokens.
-/

namespace Descent

open Descent.Text Descent.Pattern

variable {κ : Type}

namespace Lexicon

variable {lexicon : Lexicon κ} {cursor cursor' after : Cursor}

/-! ### The text ahead -/

/-- A text without what may be skipped in front of it. -/
def skipText (lexicon : Lexicon κ) (text : List Char) : List Char :=
  (lexicon.skipAll (.start text)).rest

private theorem rest_skipAll (cursor : Cursor) :
    (lexicon.skipAll cursor).rest = lexicon.skipText cursor.rest := by
  suffices h : ∀ fuel (c c' : Cursor), c.rest = c'.rest →
      (lexicon.skipFrom fuel c).rest = (lexicon.skipFrom fuel c').rest from h _ _ _ rfl
  intro fuel
  induction fuel with
  | zero => exact fun _ _ h => h
  | succ fuel ih =>
      intro c c' h
      rw [skipFrom, skipFrom, h]
      split
      · exact ih _ _ (congrArg (List.drop _) h)
      · exact h

/-- Where there is nothing to skip the text is left as it is. -/
theorem skipText_of_none {text : List Char} (h : lexicon.skipLength? text = none) :
    lexicon.skipText text = text := by
  have hround : (Cursor.start text).rest = text := rfl
  rw [← hround] at h
  rw [skipText, skipAll_of_none h]
  rfl

/-- A round of skipping, and those behind it. -/
theorem skipText_of_some {text : List Char} {n : Nat} (h : lexicon.skipLength? text = some n) :
    lexicon.skipText text = lexicon.skipText (text.drop n) := by
  have hround : (Cursor.start text).rest = text := rfl
  obtain ⟨texts, hstrips⟩ := strips_skipAll lexicon
    { take (.start text) n with skipped := (Cursor.start text).skipped + 1 }
  obtain ⟨texts', hstrips'⟩ := strips_skipAll lexicon (.start text)
  rw [skipText, (hstrips'.unique (.round h hstrips)).2, rest_skipAll]
  rfl

/-! ### Tokens with their offsets -/

/-- The text that begins at the offset is split into the tokens of the stream, up to its end. -/
inductive Scans (lexicon : Lexicon κ) : Nat → List Char → Stream κ → Prop where
  | finish {offset : Nat} {text : List Char} (h : lexicon.skipText text = []) :
      Scans lexicon offset text (.finished lexicon.endKind (.atEnd (offset + byteLength text)))
  | token {offset : Nat} {skipped word back : List Char} {r : LexemeRule κ} {rest : Stream κ}
      (hskip : lexicon.skipText (skipped ++ (word ++ back)) = word ++ back)
      (hfirst : lexicon.firstRule? (word ++ back) = some (r, word.length))
      (hrest : Scans lexicon (offset + byteLength skipped + byteLength word) back rest) :
      Scans lexicon offset (skipped ++ (word ++ back))
        (.token r.kind ⟨r.name, String.ofList word, offset + byteLength skipped⟩ rest)

/-- The skipped text stands between the cursor and the place where the skipping stops. -/
theorem exists_skipped_text (lexicon : Lexicon κ) (cursor : Cursor) : ∃ skipped,
    cursor.rest = skipped ++ lexicon.skipText cursor.rest ∧
      (lexicon.skipAll cursor).offset = cursor.offset + byteLength skipped := by
  obtain ⟨texts, hstrips⟩ := strips_skipAll lexicon cursor
  obtain ⟨taken, htaken⟩ := hstrips.accounts
  have htext := htaken.tiles.text_eq
  rw [rest_skipAll] at htext
  exact ⟨takenText taken, htext, htaken.offset⟩

/-- The stream from a cursor on is what the text ahead of the cursor is scanned into. -/
theorem streamAt_of_scans {offset : Nat} {text : List Char} {stream : Stream κ}
    (h : lexicon.Scans offset text stream) (hrest : cursor.rest = text)
    (hoffset : cursor.offset = offset) : lexicon.streamAt cursor = stream := by
  induction h generalizing cursor with
  | finish hskip =>
      obtain ⟨skipped, htext, hplace⟩ := exists_skipped_text lexicon cursor
      rw [hrest, hskip, List.append_nil] at htext
      rw [← hrest, ← rest_skipAll] at hskip
      rw [streamAt_of_end hskip, hplace, hoffset, ← htext]
  | @token offset skipped word back r rest hskip hfirst _ ih =>
      obtain ⟨front, htext, hplace⟩ := exists_skipped_text lexicon cursor
      rw [hrest, hskip, List.append_cancel_right_eq] at htext
      obtain rfl := htext
      rw [← hrest, ← rest_skipAll] at hskip
      rw [← hskip] at hfirst
      rw [streamAt_of_token (ne_nil_of_firstRule? hfirst) (Answers.token hfirst).next_eq, hskip,
        List.take_left, hplace, hoffset]
      congr 1
      refine ih ?_ ?_
      · dsimp only [take]
        rw [hskip, List.drop_left]
      · dsimp only [take]
        rw [hskip, List.take_left, hplace, hoffset]

/-- A stream that comes to its end is one of the tokens of the text. -/
theorem scans_of_tokens? {us : List (κ × Token)}
    (h : (lexicon.streamAt cursor).tokens? = some us) :
    lexicon.Scans cursor.offset cursor.rest (lexicon.streamAt cursor) := by
  -- every token leaves less of the text
  induction hlength : cursor.rest.length using Nat.strong_induction_on generalizing cursor us with
  | _ length ih =>
      obtain ⟨skipped, htext, hplace⟩ := exists_skipped_text lexicon cursor
      have hanswers := answers_next lexicon cursor
      obtain ⟨answer, after, hnext⟩ : ∃ a c, lexicon.next cursor = (a, c) := ⟨_, _, rfl⟩
      rw [hnext] at hanswers
      cases hanswers with
      | finish hrest =>
          rw [streamAt_of_end hrest, hplace]
          rw [rest_skipAll] at hrest
          rw [hrest, List.append_nil] at htext
          exact htext ▸ .finish hrest
      | fail =>
          rw [streamAt_of_error hnext] at h
          cases h
      | @token r n hfirst =>
          have hrest := ne_nil_of_firstRule? hfirst
          rw [streamAt_of_token hrest hnext] at h ⊢
          obtain ⟨us, hus, rfl⟩ := Option.map_eq_some_iff.mp h
          have hscans := ih _ (hlength ▸ length_rest_next_lt hrest hnext) hus rfl
          obtain ⟨-, -, -, -, hle⟩ := firstRule?_eq_some hfirst
          generalize lexicon.streamAt _ = stream at hscans ⊢
          dsimp only [take] at hscans
          rw [rest_skipAll] at hle hfirst hscans ⊢
          obtain ⟨word, back, hsplit, rfl⟩ : ∃ word back,
              lexicon.skipText cursor.rest = word ++ back ∧ word.length = n :=
            ⟨_, _, (List.take_append_drop n _).symm, List.length_take_of_le hle⟩
          have hskip := hsplit
          rw [htext, hsplit] at hskip
          rw [hsplit] at hfirst
          rw [hsplit, List.take_left, List.drop_left, hplace] at hscans
          rw [hsplit, List.take_left, hplace, htext, hsplit]
          exact .token hskip hfirst hscans

/-! ### Tokens without their offsets -/

/-- The text is split into the tokens, each given by its kind and its text. -/
inductive Splits (lexicon : Lexicon κ) : List Char → List (κ × String) → Prop where
  | finish {text : List Char} (h : lexicon.skipText text = []) : Splits lexicon text []
  | token {text : List Char} {r : LexemeRule κ} {n : Nat} {ts : List (κ × String)}
      (hfirst : lexicon.firstRule? (lexicon.skipText text) = some (r, n))
      (hrest : Splits lexicon ((lexicon.skipText text).drop n) ts) :
      Splits lexicon text ((r.kind, String.ofList ((lexicon.skipText text).take n)) :: ts)

/-- Kinds and texts of tokens. -/
def forms (ts : List (κ × Token)) : List (κ × String) := ts.map fun x => (x.1, x.2.text)

@[simp] theorem map_fst_forms (ts : List (κ × Token)) :
    (forms ts).map Prod.fst = ts.map Prod.fst := by
  rw [forms, List.map_map]
  rfl

/-- The first of the forms of tokens is the form of the first token. -/
theorem forms_eq_cons {us : List (κ × Token)} {kind : κ} {word : String} {ts : List (κ × String)}
    (h : forms us = (kind, word) :: ts) :
    ∃ t us', us = (kind, t) :: us' ∧ t.text = word ∧ forms us' = ts := by
  obtain ⟨⟨_, t⟩, us', rfl, hform, hrest⟩ := List.map_eq_cons_iff.mp h
  obtain ⟨rfl, hword⟩ := Prod.mk.inj hform
  exact ⟨t, us', rfl, hword, hrest⟩

/-- What may be skipped in front of a text is no part of its tokens. -/
theorem Splits.of_skipText_eq {text text' : List Char} {ts : List (κ × String)}
    (h : lexicon.Splits text ts) (htext : lexicon.skipText text = lexicon.skipText text') :
    lexicon.Splits text' ts := by
  cases h with
  | finish hskip => exact .finish (htext ▸ hskip)
  | token hfirst hrest =>
      rw [htext] at hfirst hrest ⊢
      exact .token hfirst hrest

/-- The first token is that of the first rule that matches. -/
theorem splits_cons_iff {text : List Char} {kind : κ} {word : String} {ts : List (κ × String)} :
    lexicon.Splits text ((kind, word) :: ts) ↔
      ∃ r n, lexicon.firstRule? (lexicon.skipText text) = some (r, n) ∧ r.kind = kind ∧
        String.ofList ((lexicon.skipText text).take n) = word ∧
        lexicon.Splits ((lexicon.skipText text).drop n) ts := by
  constructor
  · intro h
    cases h with
    | token hfirst hrest => exact ⟨_, _, hfirst, rfl, rfl, hrest⟩
  · rintro ⟨r, n, hfirst, rfl, rfl, hrest⟩
    exact .token hfirst hrest

/-- The token of the first rule that matches is returned. -/
theorem next_of_firstRule? {r : LexemeRule κ} {n : Nat}
    (h : lexicon.firstRule? (lexicon.skipAll cursor).rest = some (r, n)) :
    ∃ t after, lexicon.next cursor = (.ok (r.kind, t), after) ∧
      t.text = String.ofList ((lexicon.skipAll cursor).rest.take n) ∧
      after.rest = (lexicon.skipAll cursor).rest.drop n := by
  have hanswers := answers_next lexicon cursor
  obtain ⟨answer, after, hnext⟩ : ∃ a c, lexicon.next cursor = (a, c) := ⟨_, _, rfl⟩
  rw [hnext] at hanswers
  cases hanswers with
  | finish hrest => exact absurd hrest (ne_nil_of_firstRule? h)
  | fail _ hnone => cases hnone.symm.trans h
  | token hfirst =>
      obtain ⟨rfl, rfl⟩ := Prod.mk.inj (Option.some.inj (h.symm.trans hfirst))
      exact ⟨_, _, hnext, rfl, rfl⟩

/-- A text that is split into words has these words as its tokens. -/
theorem tokens?_of_splits {text : List Char} {ts : List (κ × String)}
    (h : lexicon.Splits text ts) (hcursor : cursor.rest = text) :
    ∃ us, (lexicon.streamAt cursor).tokens? = some us ∧ forms us = ts := by
  induction h generalizing cursor with
  | finish hskip =>
      rw [← hcursor, ← rest_skipAll] at hskip
      rw [streamAt_of_end hskip]
      exact ⟨[], rfl, rfl⟩
  | token hfirst _ ih =>
      rw [← hcursor, ← rest_skipAll] at hfirst ih ⊢
      obtain ⟨t, after, hnext, htext, hrest⟩ := next_of_firstRule? hfirst
      obtain ⟨us, hus, rfl⟩ := ih hrest
      rw [streamAt_of_token (ne_nil_of_firstRule? hfirst) hnext, Stream.tokens?, hus, ← htext]
      exact ⟨_, rfl, rfl⟩

/-- Apart from their offsets the tokens of a scan are those into which the text is split. -/
theorem Scans.splits {offset : Nat} {text : List Char} {stream : Stream κ}
    {us : List (κ × Token)} (h : lexicon.Scans offset text stream)
    (htokens : stream.tokens? = some us) : lexicon.Splits text (forms us) := by
  induction h generalizing us with
  | finish hskip =>
      obtain rfl := Option.some.inj htokens
      exact .finish hskip
  | @token offset skipped word back r rest hskip hfirst _ ih =>
      obtain ⟨us, hus, rfl⟩ := Option.map_eq_some_iff.mp htokens
      rw [← hskip] at hfirst
      have hsplits := Splits.token hfirst (by rw [hskip, List.drop_left]; exact ih hus)
      rwa [hskip, List.take_left] at hsplits

/-- The tokens of a text split it into their words. -/
theorem splits_of_tokens? {us : List (κ × Token)}
    (h : (lexicon.streamAt cursor).tokens? = some us) :
    lexicon.Splits cursor.rest (forms us) :=
  (scans_of_tokens? h).splits h

/-- The tokens of an input are those into which its text is split. -/
theorem splits_iff {input : String} {ts : List (κ × String)} :
    lexicon.Splits input.toList ts ↔
      ∃ us, (lexicon.stream input).tokens? = some us ∧ forms us = ts := by
  rw [stream_eq_streamAt]
  refine ⟨fun h => tokens?_of_splits h rfl, ?_⟩
  rintro ⟨us, hus, rfl⟩
  exact splits_of_tokens? hus

/-! ### One class of characters to skip -/

section

variable {set : CharSet} (hskips : lexicon.skips = [.run set])
include hskips

private theorem skipLength?_eq_some_iff {text : List Char} {n : Nat} :
    lexicon.skipLength? text = some n ↔
      ∃ run back, BeginsWithRun set text run back ∧ run ≠ [] ∧ n = run.length := by
  rw [skipLength?, hskips]
  constructor
  · intro h
    obtain ⟨p, hp, hfound⟩ := List.exists_of_findSome?_eq_some h
    obtain rfl := List.mem_singleton.mp hp
    obtain ⟨⟨i, j⟩, hfind, hlength⟩ := Option.bind_eq_some_iff.mp hfound
    obtain ⟨-, run, back, hrun, hne, rfl⟩ := Compiled.find_run_iff.mp hfind
    rw [if_pos (List.length_pos_iff.mpr hne)] at hlength
    exact ⟨run, back, hrun, hne, (Option.some.inj hlength).symm⟩
  · rintro ⟨run, back, hrun, hne, rfl⟩
    rw [List.findSome?_cons, Compiled.find_run_iff.mpr ⟨rfl, run, back, hrun, hne, rfl⟩,
      Option.bind_some, if_pos (List.length_pos_iff.mpr hne)]

/-- A run of characters that may be skipped is skipped as a whole. -/
theorem skipText_of_run {text run back : List Char} (h : BeginsWithRun set text run back) :
    lexicon.skipText text = back := by
  have hhalt : lexicon.skipLength? back = none := by
    rw [Option.eq_none_iff_forall_ne_some]
    intro n hn
    obtain ⟨run', back', hrun, hne, -⟩ := (skipLength?_eq_some_iff hskips).mp hn
    have hcut : BeginsWithRun set back [] back :=
      { split := rfl, inside := fun _ hc => absurd hc List.not_mem_nil, stops := h.stops }
    exact hne (hrun.takeWhile_eq.symm.trans hcut.takeWhile_eq)
  by_cases hrun : run = []
  · rw [h.split, hrun, List.nil_append, skipText_of_none hhalt]
  · have hround : lexicon.skipLength? text = some run.length :=
      (skipLength?_eq_some_iff hskips).mpr ⟨run, back, h, hrun, rfl⟩
    rw [skipText_of_some hround, h.split, List.drop_left, skipText_of_none hhalt]

/-- Every text begins with a run of what may be skipped, behind which its tokens begin. -/
theorem exists_skipped (text : List Char) :
    ∃ run, BeginsWithRun set text run (lexicon.skipText text) := by
  have hrun := BeginsWithRun.exists_run set text
  exact ⟨_, (skipText_of_run hskips hrun).symm ▸ hrun⟩

/-- A text without tokens consists of what may be skipped. -/
theorem splits_nil_iff {text : List Char} :
    lexicon.Splits text [] ↔ ∀ c ∈ text, set.contains c = true := by
  obtain ⟨run, hrun⟩ := exists_skipped hskips text
  constructor
  · intro h
    cases h with
    | finish hskip =>
        rw [hrun.split, hskip, List.append_nil]
        exact hrun.inside
  · intro h
    have hall : BeginsWithRun set text text [] :=
      { split := (List.append_nil text).symm, inside := h, stops := fun _ hc => nomatch hc }
    exact .finish (skipText_of_run hskips hall)

/-- What may be skipped does not matter in front of a text. -/
theorem splits_append_iff {before text : List Char} {ts : List (κ × String)}
    (hbefore : ∀ c ∈ before, set.contains c = true) :
    lexicon.Splits (before ++ text) ts ↔ lexicon.Splits text ts := by
  obtain ⟨run, hrun⟩ := exists_skipped hskips text
  have hlonger : BeginsWithRun set (before ++ text) (before ++ run) (lexicon.skipText text) :=
    { split := by rw [List.append_assoc, ← hrun.split]
      inside := List.forall_mem_append.mpr ⟨hbefore, hrun.inside⟩
      stops := hrun.stops }
  have hskip := skipText_of_run hskips hlonger
  exact ⟨fun h => h.of_skipText_eq hskip, fun h => h.of_skipText_eq hskip.symm⟩

/-- In front of a character that is not skipped the first rule that matches makes a token. -/
theorem splits_token {word back : List Char} {r : LexemeRule κ} {ts : List (κ × String)}
    (hstops : ∀ c ∈ (word ++ back).head?, set.contains c = false)
    (hfirst : lexicon.firstRule? (word ++ back) = some (r, word.length))
    (hrest : lexicon.Splits back ts) :
    lexicon.Splits (word ++ back) ((r.kind, String.ofList word) :: ts) := by
  have hcut : BeginsWithRun set (word ++ back) [] (word ++ back) :=
    { split := rfl, inside := fun _ hc => absurd hc List.not_mem_nil, stops := hstops }
  have hskip := skipText_of_run hskips hcut
  have hsplits := Splits.token (by rwa [hskip]) (by rwa [hskip, List.drop_left])
  rwa [hskip, List.take_left] at hsplits

end

end Lexicon
end Descent
