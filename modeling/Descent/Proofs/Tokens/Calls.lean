import Descent.Proofs.Pattern.Matching
import Descent.Tokens.Tokenizer
import Mathlib.Logic.Function.Iterate

/-!
# Calls of a tokenizer

A call first strips what may be skipped, round by round, and then answers from where the
rounds stop: with the end, with the token of a rule, or with a failure. Every round and
every token takes a character at least, so the rounds come to an end.
-/

namespace Descent

open Descent.Text Descent.Pattern

variable {κ : Type}

namespace Lexicon

variable {lexicon : Lexicon κ} {cursor last : Cursor} {rest : List Char} {n : Nat}

/-! ### Rounds of skipping -/

/-- What is skipped ends where the match of a skip pattern ends, within the text. -/
theorem skipLength?_eq_some (h : lexicon.skipLength? rest = some n) :
    ∃ p ∈ lexicon.skips, ∃ i, p.find rest = some (i, n) ∧ 0 < n ∧ n ≤ rest.length := by
  obtain ⟨p, hp, hfound⟩ := List.exists_of_findSome?_eq_some h
  obtain ⟨⟨i, j⟩, hfind, hlength⟩ := Option.bind_eq_some_iff.mp hfound
  split at hlength
  · next hpos =>
      obtain rfl := Option.some.inj hlength
      exact ⟨p, hp, i, hfind, hpos, (Compiled.matches_of_find hfind).2.1⟩
  · cases hlength

/-- What is matched ends where the match of the pattern of a rule ends, within the text. -/
theorem firstRule?_eq_some {r : LexemeRule κ} (h : lexicon.firstRule? rest = some (r, n)) :
    r ∈ lexicon.rules ∧ ∃ i < n, r.pattern.find rest = some (i, n) ∧ n ≤ rest.length := by
  obtain ⟨r', hr, hfound⟩ := List.exists_of_findSome?_eq_some h
  obtain ⟨⟨i, j⟩, hfind, hlength⟩ := Option.bind_eq_some_iff.mp hfound
  split at hlength
  · next hpos =>
      obtain ⟨rfl, rfl⟩ := Prod.mk.inj (Option.some.inj hlength)
      exact ⟨hr, i, hpos, hfind, (Compiled.matches_of_find hfind).2.1⟩
  · cases hlength

/-- A token has a text. -/
theorem text_ne_of_firstRule? {r : LexemeRule κ} (h : lexicon.firstRule? rest = some (r, n)) :
    String.ofList (rest.take n) ≠ "" := by
  obtain ⟨-, i, hpos, -, hle⟩ := firstRule?_eq_some h
  intro hempty
  have hlength := congrArg (fun s => s.toList.length) hempty
  simp only [String.toList_ofList, List.length_take_of_le hle] at hlength
  have hzero : n = 0 := hlength
  omega

/-- The rounds of skipping from the first cursor strip the texts and stop at the last one, where
there is nothing more to skip. -/
inductive Strips (lexicon : Lexicon κ) : Cursor → List (List Char) → Cursor → Prop where
  | halt {cursor : Cursor} (h : lexicon.skipLength? cursor.rest = none) :
      Strips lexicon cursor [] cursor
  | round {cursor last : Cursor} {n : Nat} {texts : List (List Char)}
      (h : lexicon.skipLength? cursor.rest = some n)
      (hrest : Strips lexicon { take cursor n with skipped := cursor.skipped + 1 } texts last) :
      Strips lexicon cursor (cursor.rest.take n :: texts) last

/-- Where the rounds of skipping stop nothing more can be skipped. -/
theorem Strips.halted {texts : List (List Char)} (h : lexicon.Strips cursor texts last) :
    lexicon.skipLength? last.rest = none := by
  induction h with
  | halt h => exact h
  | round _ _ ih => exact ih

/-- Rounds of skipping go one way. -/
theorem Strips.unique {texts texts' : List (List Char)} {last' : Cursor}
    (h : lexicon.Strips cursor texts last) (h' : lexicon.Strips cursor texts' last') :
    texts = texts' ∧ last = last' := by
  induction h generalizing texts' with
  | halt hnone =>
      cases h' with
      | halt => exact ⟨rfl, rfl⟩
      | round hsome => cases hnone.symm.trans hsome
  | round hsome _ ih =>
      cases h' with
      | halt hnone => cases hnone.symm.trans hsome
      | round hsome' hrest' =>
          obtain rfl := Option.some.inj (hsome.symm.trans hsome')
          obtain ⟨rfl, rfl⟩ := ih hrest'
          exact ⟨rfl, rfl⟩

/-- As many rounds as there are characters are enough. -/
theorem strips_skipFrom {fuel : Nat} (h : cursor.rest.length ≤ fuel) :
    ∃ texts, lexicon.Strips cursor texts (lexicon.skipFrom fuel cursor) := by
  induction fuel generalizing cursor with
  | zero =>
      have hnone : lexicon.skipLength? cursor.rest = none := by
        rw [Option.eq_none_iff_forall_ne_some]
        intro n hn
        obtain ⟨_, _, _, _, hpos, hle⟩ := skipLength?_eq_some hn
        omega
      exact ⟨[], .halt hnone⟩
  | succ fuel ih =>
      rw [skipFrom]
      split
      · next n hn =>
          obtain ⟨_, _, _, _, hpos, hle⟩ := skipLength?_eq_some hn
          have hlength : (take cursor n).rest.length ≤ fuel := by
            rw [take, List.length_drop]
            omega
          obtain ⟨texts, htexts⟩ : ∃ texts, lexicon.Strips
              { take cursor n with skipped := cursor.skipped + 1 } texts _ := ih hlength
          exact ⟨_, .round hn htexts⟩
      · next hnone => exact ⟨[], .halt hnone⟩

/-- The rounds of skipping come to an end, and all that can be skipped is stripped then. -/
theorem strips_skipAll (lexicon : Lexicon κ) (cursor : Cursor) :
    ∃ texts, lexicon.Strips cursor texts (lexicon.skipAll cursor) :=
  strips_skipFrom (Nat.le_refl _)

/-- Nothing is skipped where nothing can be. -/
theorem skipAll_of_none (h : lexicon.skipLength? cursor.rest = none) :
    lexicon.skipAll cursor = cursor := by
  obtain ⟨texts, hstrips⟩ := strips_skipAll lexicon cursor
  exact (hstrips.unique (.halt h)).2

/-! ### Answers -/

/-- The answers from a cursor where there is nothing to skip, and the cursor behind each. -/
inductive Answers (lexicon : Lexicon κ) (cursor : Cursor) :
    Except LexicalError (κ × Token) → Cursor → Prop where
  | finish (hrest : cursor.rest = []) : Answers lexicon cursor
      (.ok (lexicon.endKind, .atEnd cursor.offset)) { cursor with tokens := cursor.tokens + 1 }
  | token {r : LexemeRule κ} {n : Nat} (hfirst : lexicon.firstRule? cursor.rest = some (r, n)) :
      Answers lexicon cursor
        (.ok (r.kind, ⟨r.name, String.ofList (cursor.rest.take n), cursor.offset⟩))
        { take cursor n with tokens := cursor.tokens + 1 }
  | fail (hrest : cursor.rest ≠ []) (hnone : lexicon.firstRule? cursor.rest = none) :
      Answers lexicon cursor (.error ⟨cursor.offset, String.ofList cursor.rest⟩) cursor

/-- Every call answers from where the skipped text ends. -/
theorem answers_next (lexicon : Lexicon κ) (cursor : Cursor) :
    lexicon.Answers (lexicon.skipAll cursor) (lexicon.next cursor).1 (lexicon.next cursor).2 := by
  rw [next]
  dsimp only
  split
  · next hrest => exact .finish (List.isEmpty_iff.mp hrest)
  · next hrest =>
      split
      · next r n hfirst => exact .token hfirst
      · next hnone => exact .fail (fun h => hrest (List.isEmpty_iff.mpr h)) hnone

/-! ### Series of calls -/

/-- The cursor behind the first calls for an input. -/
def cursorAfter (lexicon : Lexicon κ) (input : String) (calls : Nat) : Cursor :=
  (fun cursor => (lexicon.next cursor).2)^[calls] (.start input.toList)

/-- What the call answers that comes after the given number of calls. -/
def answer (lexicon : Lexicon κ) (input : String) (calls : Nat) :
    Except LexicalError (κ × Token) :=
  (lexicon.next (lexicon.cursorAfter input calls)).1

/-- One more call goes on from the cursor behind the calls before. -/
theorem cursorAfter_succ (lexicon : Lexicon κ) (input : String) (calls : Nat) :
    lexicon.cursorAfter input (calls + 1) = (lexicon.next (lexicon.cursorAfter input calls)).2 :=
  Function.iterate_succ_apply' _ _ _

end Lexicon
end Descent
