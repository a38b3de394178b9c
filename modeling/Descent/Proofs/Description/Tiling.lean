import Descent.Proofs.Description.Extent
import Mathlib.Data.Set.Function

/-!
# Words tile a description

A description that is split into words is made of the spellings of these words, each at its
place, and of white space and comments; a split that fails stops where nothing can begin, behind
a text that is made so. Each word is the one word of its own spelling, and layout without
quotes that is put next to a word changes no word.
-/

namespace Descent.Description

open Descent.Text

/-! ### Texts and their words -/

/-- The text, which begins at the offset, is made of white space, of comments up to the ends of
their lines, and of the spellings of the words at their places. -/
inductive Tiled : Nat → List Char → List Placed → Prop where
  | nil (offset : Nat) : Tiled offset [] []
  | blank {offset : Nat} {c : Char} {text : List Char} {words : List Placed}
      (hc : isLayout c = true) (h : Tiled (offset + byteLength [c]) text words) :
      Tiled offset (c :: text) words
  | comment {offset : Nat} {comment text : List Char} {words : List Placed}
      (hc : '\n' ∉ comment) (hline : ∀ c ∈ text.head?, c = '\n')
      (h : Tiled (offset + byteLength ('-' :: '-' :: comment)) text words) :
      Tiled offset ('-' :: '-' :: (comment ++ text)) words
  | word {offset : Nat} {l : Lexeme} {text : List Char} {words : List Placed}
      (hl : l.StandsBefore text) (h : Tiled (offset + byteLength l.spelling) text words) :
      Tiled offset (l.spelling ++ text) (⟨l, offset, offset + byteLength l.spelling⟩ :: words)

/-- The word with the text as its spelling at the offset, if there is one. -/
def placedAt (offset : Nat) (piece : List Char) (front : Option Lexeme) : List Placed :=
  (front.map fun l => ⟨l, offset, offset + byteLength piece⟩).toList

variable {fuel offset n : Nat} {text rest : List Char} {words : List Placed}
  {front : Option Lexeme}

/-- One step of a split takes what stands at the front. -/
theorem splitFrom_of_front (h : frontLexeme? text = some (front, n)) :
    splitFrom (fuel + 1) offset text =
      (splitFrom fuel (offset + byteLength (text.take n)) (text.drop n)).map
        (placedAt offset (text.take n) front ++ ·) := by
  cases text with
  | nil => cases h
  | cons c text =>
      rw [splitFrom, h]
      dsimp only
      cases splitFrom fuel (offset + byteLength ((c :: text).take n)) ((c :: text).drop n) with
      | error stop => rfl
      | ok later => cases front <;> rfl

/-- What stands at the front is put in front of a text that is tiled by the other words. -/
theorem Tiled.take_append (hfront : frontLexeme? text = some (front, n))
    (h : Tiled (offset + byteLength (text.take n)) rest words) (hrest : rest <+: text.drop n) :
    Tiled offset (text.take n ++ rest) (placedAt offset (text.take n) front ++ words) := by
  obtain ⟨back, hback⟩ := hrest
  cases front with
  | none =>
      obtain ⟨c, after, hc, rfl, rfl⟩ | ⟨comment, after, hc, hline, rfl, rfl⟩ :=
        layout_of_frontLexeme? hfront
      · exact .blank hc h
      · rw [List.drop_left] at hback
        rw [List.take_left] at h ⊢
        refine .comment hc (fun c hmem => hline c ?_) h
        rw [← hback, List.head?_append, hmem]
        rfl
  | some l =>
      obtain ⟨after, rfl, rfl, hl⟩ := spelled_of_frontLexeme? hfront
      rw [List.drop_left] at hback
      rw [List.take_left] at h ⊢
      rw [← hback] at hl
      exact .word (hl.of_noNearer .truncate) h

/-- A split that succeeds finds the words that tile the text. -/
theorem tiled_of_splitFrom (h : splitFrom fuel offset text = .ok words) :
    Tiled offset text words := by
  induction fuel generalizing offset text words with
  | zero =>
      cases text with
      | nil =>
          obtain rfl := Except.ok.inj h
          exact .nil offset
      | cons c text => cases h
  | succ fuel ih =>
      cases hfront : frontLexeme? text with
      | none =>
          cases text with
          | nil =>
              obtain rfl := Except.ok.inj h
              exact .nil offset
          | cons c text =>
              rw [splitFrom, hfront] at h
              cases h
      | some found =>
          rw [splitFrom_of_front hfront] at h
          cases hlater : splitFrom fuel (offset + byteLength (text.take found.2))
              (text.drop found.2) with
          | error stop =>
              rw [hlater] at h
              cases h
          | ok later =>
              rw [hlater] at h
              obtain rfl := Except.ok.inj h
              have htiled := (ih hlater).take_append hfront (List.prefix_refl _)
              rwa [List.take_append_drop] at htiled

/-- A split that fails, and not for want of fuel, stops behind a text that is tiled and in front of
one at which nothing begins. -/
theorem halted_of_splitFrom {stop : Nat} (hfuel : text.length ≤ fuel)
    (h : splitFrom fuel offset text = .error stop) :
    ∃ front back words, text = front ++ back ∧ offset + byteLength front = stop ∧
      Tiled offset front words ∧ NothingBegins back := by
  induction fuel generalizing offset text with
  | zero =>
      obtain rfl := List.length_eq_zero_iff.mp (Nat.le_zero.mp hfuel)
      cases h
  | succ fuel ih =>
      cases hfront : frontLexeme? text with
      | none =>
          cases text with
          | nil => cases h
          | cons c text =>
              rw [splitFrom, hfront] at h
              obtain rfl := Except.error.inj h
              exact ⟨[], c :: text, [], rfl, rfl, .nil offset,
                nothingBegins_of_frontLexeme? (List.cons_ne_nil c text) hfront⟩
      | some found =>
          have hpos := pos_of_frontLexeme? hfront
          have hlength : (text.drop found.2).length ≤ fuel := by
            rw [List.length_drop]
            omega
          rw [splitFrom_of_front hfront] at h
          cases hlater : splitFrom fuel (offset + byteLength (text.take found.2))
              (text.drop found.2) with
          | ok later =>
              rw [hlater] at h
              cases h
          | error stop' =>
              rw [hlater] at h
              obtain rfl := Except.error.inj h
              obtain ⟨taken, back, later, hsplit, rfl, htiled, hnothing⟩ := ih hlength hlater
              refine ⟨text.take found.2 ++ taken, back, _, ?_, ?_,
                htiled.take_append hfront ⟨back, hsplit.symm⟩, hnothing⟩
              · rw [List.append_assoc, ← hsplit, List.take_append_drop]
              · rw [byteLength_append, Nat.add_assoc]

namespace Tiled

/-- A text that is tiled is split into the words. -/
theorem splitFrom_eq (h : Tiled offset text words) (hfuel : text.length ≤ fuel) :
    splitFrom fuel offset text = .ok words := by
  induction h generalizing fuel with
  | nil => cases fuel <;> rfl
  | blank hc _ ih =>
      obtain ⟨fuel, rfl⟩ := Nat.exists_eq_succ_of_ne_zero (Nat.ne_zero_of_lt hfuel)
      rw [splitFrom_of_front (frontLexeme?_blank hc)]
      simp only [List.take_succ_cons, List.take_zero, List.drop_succ_cons, List.drop_zero]
      rw [ih (Nat.le_of_succ_le_succ hfuel)]
      rfl
  | @comment offset comment text words hc hline _ ih =>
      obtain ⟨fuel, rfl⟩ := Nat.exists_eq_succ_of_ne_zero (Nat.ne_zero_of_lt hfuel)
      rw [splitFrom_of_front (frontLexeme?_comment hc hline)]
      have htake : ('-' :: '-' :: (comment ++ text)).take (comment.length + 2) =
          '-' :: '-' :: comment := by simp
      have hdrop : ('-' :: '-' :: (comment ++ text)).drop (comment.length + 2) = text := by simp
      rw [htake, hdrop, ih]
      · rfl
      · simp only [List.length_cons, List.length_append] at hfuel
        omega
  | word hl _ ih =>
      have hpos := hl.length_pos
      rw [List.length_append] at hfuel
      obtain ⟨fuel, rfl⟩ := Nat.exists_eq_succ_of_ne_zero (show fuel ≠ 0 by omega)
      rw [splitFrom_of_front (frontLexeme?_of_standsBefore hl), List.take_left, List.drop_left,
        ih (by omega)]
      rfl

/-- Each word is spelled at its place, in front of a text in front of which it stands. -/
theorem exists_spelled (h : Tiled offset text words) : ∀ w ∈ words, ∃ before after,
    text = before ++ (w.lexeme.spelling ++ after) ∧ offset + byteLength before = w.start ∧
      w.start + byteLength w.lexeme.spelling = w.stop ∧ w.lexeme.StandsBefore after := by
  have behind : ∀ (piece : List Char) {text : List Char} {offset : Nat} {w : Placed},
      (∃ before after, text = before ++ (w.lexeme.spelling ++ after) ∧
        offset + byteLength piece + byteLength before = w.start ∧
        w.start + byteLength w.lexeme.spelling = w.stop ∧ w.lexeme.StandsBefore after) →
      ∃ before after, piece ++ text = before ++ (w.lexeme.spelling ++ after) ∧
        offset + byteLength before = w.start ∧
        w.start + byteLength w.lexeme.spelling = w.stop ∧ w.lexeme.StandsBefore after := by
    rintro piece _ offset w ⟨before, after, rfl, hstart, hstop, hw⟩
    refine ⟨piece ++ before, after, (List.append_assoc _ _ _).symm, ?_, hstop, hw⟩
    rw [byteLength_append, ← Nat.add_assoc, hstart]
  induction h with
  | nil => exact fun _ hw => nomatch hw
  | blank _ _ ih => exact fun w hw => behind [_] (ih w hw)
  | @comment _ comment _ _ _ _ _ ih =>
      exact fun w hw => behind ('-' :: '-' :: comment) (ih w hw)
  | @word offset l text words hl _ ih =>
      exact List.forall_mem_cons.mpr
        ⟨⟨[], text, rfl, rfl, rfl, hl⟩, fun w hw => behind l.spelling (ih w hw)⟩

/-- A word takes a byte at least, behind the offset of the text. -/
theorem bounds (h : Tiled offset text words) :
    ∀ w ∈ words, offset ≤ w.start ∧ w.start < w.stop := by
  intro w hw
  obtain ⟨before, after, -, hstart, hstop, hstands⟩ := h.exists_spelled w hw
  have hpos := hstands.length_pos
  have hbytes := length_le_byteLength w.lexeme.spelling
  omega

/-- Words come one behind the other. -/
theorem pairwise (h : Tiled offset text words) : words.Pairwise fun v w => v.stop ≤ w.start := by
  induction h with
  | nil => exact .nil
  | blank _ _ ih => exact ih
  | comment _ _ _ ih => exact ih
  | word _ hrest ih => exact List.pairwise_cons.mpr ⟨fun w hw => (hrest.bounds w hw).1, ih⟩

/-- A text that is made of white space, comments and words is split into these words. -/
theorem splitsInto (h : Tiled offset text words) : SplitsInto text (words.map (·.lexeme)) := by
  induction h with
  | nil => exact .nil
  | blank hc _ ih => exact .blank hc ih
  | comment hc hline _ ih => exact .comment hc hline ih
  | word hl _ ih => exact .word hl ih

end Tiled

/-- The words of a text are those that tile it. -/
theorem lexemes_eq_ok_iff : lexemes text = .ok words ↔ Tiled 0 text words :=
  ⟨tiled_of_splitFrom, fun h => h.splitFrom_eq le_rfl⟩

/-! ### Layout between words -/

/-- White space and comments that end with their lines. -/
inductive IsSpacing : List Char → Prop where
  | nil : IsSpacing []
  | blank {c : Char} {text : List Char} (hc : isLayout c = true) (h : IsSpacing text) :
      IsSpacing (c :: text)
  | comment {comment text : List Char} (hc : '\n' ∉ comment) (h : IsSpacing text) :
      IsSpacing ('-' :: '-' :: (comment ++ '\n' :: text))

variable {gap : List Char} {ls : List Lexeme}

/-- White space and comments in front of a text do not change its words. -/
theorem SplitsInto.spacing (hgap : IsSpacing gap) (h : SplitsInto text ls) :
    SplitsInto (gap ++ text) ls := by
  induction hgap with
  | nil => exact h
  | blank hc _ ih => exact .blank hc ih
  | @comment comment gap hc _ ih =>
      have hline : SplitsInto ('-' :: '-' :: (comment ++ '\n' :: (gap ++ text))) ls :=
        .comment hc (by simp) (.blank rfl ih)
      simpa using hline

private theorem isNamePart_of_isLayout {c : Char} (h : isLayout c = true) :
    isNamePart c = false := by
  simp only [isLayout, Bool.or_eq_true, beq_iff_eq] at h
  rcases h with (((rfl | rfl) | rfl) | rfl) | rfl <;> decide

/-- Spacing is no part of a name. -/
theorem IsSpacing.head_not_name (h : IsSpacing gap) : gap.head?.any isNamePart = false := by
  cases h with
  | nil => rfl
  | blank hc => exact isNamePart_of_isLayout hc
  | comment => rfl

/-- White space and comments without a single quote bring no single quote nearer. -/
theorem IsSpacing.noNearer (h : IsSpacing gap) (hquote : '\'' ∉ gap) :
    NoNearer text (gap ++ text) :=
  .insert h.head_not_name hquote

/-- No word begins at a newline. -/
theorem Tiled.lt_start (h : Tiled offset text words) (hline : ∀ c ∈ text.head?, c = '\n') :
    ∀ w ∈ words, offset < w.start := by
  cases h with
  | nil => exact fun _ hw => nomatch hw
  | @blank _ c _ _ _ hrest =>
      intro w hw
      have hbound := (hrest.bounds w hw).1
      have hsize := c.utf8Size_pos
      rw [byteLength_cons] at hbound
      omega
  | comment => cases hline '-' rfl
  | @word _ l _ _ hl _ =>
      obtain ⟨c, spelling, hspelling⟩ := List.exists_cons_of_length_pos hl.length_pos
      have hword := frontLexeme?_of_standsBefore hl
      rw [hspelling] at hline hword
      obtain rfl := hline c rfl
      rw [List.cons_append, frontLexeme?_blank rfl] at hword
      cases hword

/-- A place in a word that stands behind a piece of the text is behind the piece. -/
theorem Tiled.exists_behind (piece : List Char) {before after : List Char}
    (h : Tiled (offset + byteLength piece) text words) (hsplit : piece ++ text = before ++ after)
    {w : Placed} (hw : w ∈ words)
    (hplace : offset + byteLength before = w.start ∨ offset + byteLength before = w.stop) :
    ∃ between, before = piece ++ between ∧ text = between ++ after ∧
      (offset + byteLength piece + byteLength between = w.start ∨
        offset + byteLength piece + byteLength between = w.stop) := by
  obtain ⟨hstart, hstop⟩ := h.bounds w hw
  obtain ⟨between, rfl, rfl⟩ := exists_between hsplit (by omega)
  refine ⟨between, rfl, rfl, ?_⟩
  rw [byteLength_append] at hplace
  omega

/-- Spacing without single quotes at the beginning or the end of a word changes no word. -/
theorem Tiled.insert (h : Tiled offset text words) (hgap : IsSpacing gap) (hquote : '\'' ∉ gap)
    {w : Placed} (hw : w ∈ words) {before after : List Char} (hsplit : text = before ++ after)
    (hplace : offset + byteLength before = w.start ∨ offset + byteLength before = w.stop) :
    SplitsInto (before ++ (gap ++ after)) (words.map (·.lexeme)) := by
  induction h generalizing before after with
  | nil => cases hw
  | @blank offset c text words hc hrest ih =>
      obtain ⟨between, rfl, rfl, hplace⟩ := hrest.exists_behind [c] hsplit hw hplace
      exact .blank hc (ih hw rfl hplace)
  | @comment offset comment text words hc hline hrest ih =>
      obtain ⟨between, rfl, rfl, hplace⟩ :=
        hrest.exists_behind ('-' :: '-' :: comment) hsplit hw hplace
      have hlater : SplitsInto ('-' :: '-' :: (comment ++ (between ++ (gap ++ after))))
          (words.map (·.lexeme)) := by
        refine .comment hc (fun c hmem => ?_) (ih hw rfl hplace)
        cases between with
        | nil =>
            -- the comment ends in front of a newline, where no word begins or ends
            have hstart := hrest.lt_start hline w hw
            have hstop := (hrest.bounds w hw).2
            rw [byteLength_nil, Nat.add_zero] at hplace
            omega
        | cons x between => exact hline c hmem
      simpa using hlater
  | @word offset l text words hl hrest ih =>
      rcases List.mem_cons.mp hw with rfl | hw
      · rcases hplace with hplace | hplace
        · obtain rfl := eq_nil_of_byteLength (Nat.add_eq_left.mp hplace)
          rw [List.nil_append] at hsplit ⊢
          rw [← hsplit]
          exact .spacing hgap (.word hl hrest.splitsInto)
        · have hlength : byteLength before = byteLength l.spelling := Nat.add_left_cancel hplace
          obtain ⟨between, rfl, rfl⟩ := exists_between hsplit hlength.ge
          rw [byteLength_append, Nat.add_eq_left] at hlength
          obtain rfl := eq_nil_of_byteLength hlength
          rw [List.append_nil]
          exact .word (hl.of_noNearer (hgap.noNearer hquote)) (.spacing hgap hrest.splitsInto)
      · obtain ⟨between, rfl, rfl, hplace⟩ := hrest.exists_behind l.spelling hsplit hw hplace
        rw [List.append_assoc]
        exact .word (hl.of_noNearer (hgap.noNearer hquote).append) (ih hw rfl hplace)

/-! ### Descriptions -/

/-- The part of the text between the two offsets. -/
def IsSlice (text : List Char) (start stop : Nat) (part : List Char) : Prop :=
  ∃ before after, text = before ++ (part ++ after) ∧ byteLength before = start ∧
    start + byteLength part = stop

/-- What the words of a description are to its text. -/
structure TiledBy (text : List Char) (words : List Placed) : Prop where
  tiled : Tiled 0 text words
  nonempty : ∀ w ∈ words, w.start < w.stop
  ordered : words.Pairwise fun v w => v.stop ≤ w.start
  /-- The text of a word is one word by itself. -/
  alone : ∀ w ∈ words, ∃ part, IsSlice text w.start w.stop part ∧
    lexemes part = .ok [⟨w.lexeme, 0, byteLength part⟩]
  /-- Spacing without single quotes next to a word changes no word. -/
  spaced : ∀ w ∈ words, ∀ before after gap, text = before ++ after →
    (byteLength before = w.start ∨ byteLength before = w.stop) →
    IsSpacing gap → '\'' ∉ gap →
    ∃ moved, lexemes (before ++ (gap ++ after)) = .ok moved ∧
      moved.map (·.lexeme) = words.map (·.lexeme)

/-- The text up to the offset is split into words, and nothing begins there. -/
def StopsAt (text : List Char) (stop : Nat) : Prop :=
  ∃ before after, text = before ++ after ∧ byteLength before = stop ∧
    (∃ words, lexemes before = .ok words) ∧ NothingBegins after

/-- A spelling in front of the end is one word. -/
theorem Lexeme.StandsBefore.lexemes_spelling {l : Lexeme} (h : l.StandsBefore rest) :
    lexemes l.spelling = .ok [⟨l, 0, byteLength l.spelling⟩] := by
  have htiled := Tiled.word (h.of_noNearer .nil) (.nil (0 + byteLength l.spelling))
  rw [List.append_nil, Nat.zero_add] at htiled
  exact lexemes_eq_ok_iff.mpr htiled

/-- The word at a place of a text that is split stands there with its own spelling. -/
theorem exists_slice (h : lexemes text = .ok words) {w : Placed} (hw : w ∈ words) :
    IsSlice text w.start w.stop w.lexeme.spelling ∧ ∃ after, w.lexeme.StandsBefore after := by
  obtain ⟨before, after, htext, hstart, hstop, hstands⟩ :=
    (lexemes_eq_ok_iff.mp h).exists_spelled w hw
  rw [Nat.zero_add] at hstart
  exact ⟨⟨before, after, htext, hstart, hstop⟩, after, hstands⟩

/-- A description is tiled by its words, or it stops where nothing begins. -/
theorem lexemes_tile_text (text : List Char) :
    match lexemes text with
    | .ok words => TiledBy text words
    | .error stop => StopsAt text stop := by
  cases hlexemes : lexemes text with
  | ok words =>
      have htiled := lexemes_eq_ok_iff.mp hlexemes
      refine ⟨htiled, fun w hw => (htiled.bounds w hw).2, htiled.pairwise, fun w hw => ?_, ?_⟩
      · obtain ⟨hslice, after, hstands⟩ := exists_slice hlexemes hw
        exact ⟨_, hslice, hstands.lexemes_spelling⟩
      · intro w hw before after gap hsplit hplace hgap hquote
        have hinto := htiled.insert hgap hquote hw hsplit (by simpa using hplace)
        exact hinto _ 0 le_rfl
  | error stop =>
      obtain ⟨before, after, words, hsplit, hstop, htiled, hnothing⟩ :=
        halted_of_splitFrom le_rfl hlexemes
      rw [Nat.zero_add] at hstop
      exact ⟨before, after, hsplit, hstop, ⟨words, lexemes_eq_ok_iff.mpr htiled⟩, hnothing⟩

/-! ### Patterns -/

/-- The texts that are one pattern each, without anything around it. -/
def patternTexts : Set (List Char) :=
  {text | ∃ p, lexemes text = .ok [⟨.pattern p, 0, byteLength text⟩]}

/-- A pattern in which each backslash is paired is read back from its quoted form. -/
theorem lexemes_pattern {p : String} (hp : isPaired p.toList = true) :
    lexemes (Lexeme.pattern p).spelling =
      .ok [⟨.pattern p, 0, byteLength (Lexeme.pattern p).spelling⟩] := by
  have hstands : (Lexeme.pattern p).StandsBefore [] := hp
  exact hstands.lexemes_spelling

/-- A pattern of a description stands there in its quoted form. -/
theorem slice_of_pattern (h : lexemes text = .ok words) {w : Placed} (hw : w ∈ words) {p : String}
    (hp : w.lexeme = .pattern p) :
    isPaired p.toList = true ∧ IsSlice text w.start w.stop (Lexeme.pattern p).spelling := by
  obtain ⟨hslice, after, hstands⟩ := exists_slice h hw
  rw [hp] at hslice hstands
  exact ⟨hstands, hslice⟩

/-- The slice from the beginning of a text to its end is the whole text. -/
theorem IsSlice.eq_whole {part : List Char} (h : IsSlice text 0 (byteLength text) part) :
    part = text := by
  obtain ⟨before, after, htext, hstart, hstop⟩ := h
  obtain rfl := eq_nil_of_byteLength hstart
  rw [List.nil_append] at htext
  rw [Nat.zero_add, htext, byteLength_append, Nat.left_eq_add] at hstop
  obtain rfl := eq_nil_of_byteLength hstop
  rw [htext, List.append_nil]

/-- Patterns that are spelled alike are the same pattern. -/
theorem injOn_spelling_pattern :
    Set.InjOn (fun p => (Lexeme.pattern p).spelling) {p | isPaired p.toList = true} := by
  intro p hp q hq heq
  have hwords := (lexemes_pattern hp).symm.trans ((congrArg lexemes heq).trans (lexemes_pattern hq))
  obtain ⟨rfl, -⟩ : p = q ∧ _ := by simpa using hwords
  rfl

/-- Each text that is one pattern is the spelling of a pattern. -/
theorem surjOn_spelling_pattern :
    Set.SurjOn (fun p => (Lexeme.pattern p).spelling) {p | isPaired p.toList = true}
      patternTexts := by
  rintro text ⟨p, h⟩
  obtain ⟨hp, hslice⟩ := slice_of_pattern h List.mem_cons_self rfl
  exact ⟨p, hp, hslice.eq_whole⟩

/-- A pattern in which each backslash is paired is read back from its quoted form, each pattern of a
description is such a one and stands there in its quoted form, and so quoting is a bijection
between these patterns and the texts that are one pattern each. -/
theorem pattern_quoting_exact :
    (∀ p : String, isPaired p.toList = true → lexemes (Lexeme.pattern p).spelling =
      .ok [⟨.pattern p, 0, byteLength (Lexeme.pattern p).spelling⟩]) ∧
    (∀ text words, lexemes text = .ok words → ∀ w ∈ words, ∀ p, w.lexeme = .pattern p →
      isPaired p.toList = true ∧ IsSlice text w.start w.stop (Lexeme.pattern p).spelling) ∧
    Set.BijOn (fun p => (Lexeme.pattern p).spelling) {p | isPaired p.toList = true}
      patternTexts :=
  ⟨fun _ hp => lexemes_pattern hp, fun _ _ h _ hw _ hp => slice_of_pattern h hw hp,
    fun p hp => ⟨p, lexemes_pattern hp⟩, injOn_spelling_pattern, surjOn_spelling_pattern⟩

end Descent.Description
