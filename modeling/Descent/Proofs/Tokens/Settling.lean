import Descent.Proofs.Tokens.Calls
import Mathlib.Data.Nat.Find

/-!
# How tokenizing ends

Every call either takes a character at least for a token or gives a final answer: the
token of the end, or a failure. A final answer leaves the cursor where there is nothing to
skip and nothing to match, so that it is given again by every later call.
-/

namespace Descent

open Descent.Text Descent.Pattern

variable {κ : Type}

namespace Lexicon

/-- The answer is that nothing is left of the input at the cursor, or a failure. -/
def Final (lexicon : Lexicon κ) (cursor : Cursor) (answer : Except LexicalError (κ × Token)) :
    Prop :=
  (cursor.rest = [] ∧ answer = .ok (lexicon.endKind, .atEnd cursor.offset)) ∨
    ∃ e, answer = .error e

/-- The answer at a cursor where no token begins. -/
def finalAnswer (lexicon : Lexicon κ) (cursor : Cursor) : Except LexicalError (κ × Token) :=
  if cursor.rest = [] then .ok (lexicon.endKind, .atEnd cursor.offset)
  else .error ⟨cursor.offset, String.ofList cursor.rest⟩

/-- At the cursor there is nothing to skip, and no token begins there. -/
structure Settled (lexicon : Lexicon κ) (cursor : Cursor) : Prop where
  skip : lexicon.skipLength? cursor.rest = none
  token : cursor.rest = [] ∨ lexicon.firstRule? cursor.rest = none

/-- The cursors stand at one place and have skipped as much; one may have counted more tokens. -/
structure SamePlace (cursor cursor' : Cursor) : Prop where
  rest : cursor.rest = cursor'.rest
  offset : cursor.offset = cursor'.offset
  skipped : cursor.skipped = cursor'.skipped

variable {lexicon : Lexicon κ} {cursor cursor' last : Cursor}
  {answer : Except LexicalError (κ × Token)}

private theorem SamePlace.trans {cursor'' : Cursor} (h : SamePlace cursor cursor')
    (h' : SamePlace cursor' cursor'') : SamePlace cursor cursor'' :=
  ⟨h.rest.trans h'.rest, h.offset.trans h'.offset, h.skipped.trans h'.skipped⟩

private theorem SamePlace.finalAnswer_eq (h : SamePlace cursor cursor') :
    lexicon.finalAnswer cursor = lexicon.finalAnswer cursor' := by
  rw [finalAnswer, finalAnswer, h.rest, h.offset]

/-- A cursor at the place of a settled one is settled. -/
theorem Settled.of_samePlace (h : lexicon.Settled cursor) (hsame : SamePlace cursor' cursor) :
    lexicon.Settled cursor' :=
  ⟨hsame.rest ▸ h.skip, hsame.rest ▸ h.token⟩

/-- Skipping leaves no more than there was. -/
theorem Strips.length_le {texts : List (List Char)} (h : lexicon.Strips cursor texts last) :
    last.rest.length ≤ cursor.rest.length := by
  induction h with
  | halt => exact Nat.le_refl _
  | @round cursor last n texts _ _ ih =>
      have hdrop : (take cursor n).rest.length = cursor.rest.length - n := List.length_drop
      have hle : last.rest.length ≤ (take cursor n).rest.length := ih
      omega

/-- A final answer is given where nothing is skipped and no token begins; any other answer is a
token, which takes a character at least. -/
theorem Answers.settled_or_lt (h : lexicon.Answers cursor answer last)
    (hskip : lexicon.skipLength? cursor.rest = none) :
    (lexicon.Final last answer ∧ lexicon.Settled last ∧ answer = lexicon.finalAnswer last) ∨
      (¬ lexicon.Final last answer ∧ last.rest.length < cursor.rest.length) := by
  cases h with
  | finish hrest => exact Or.inl ⟨Or.inl ⟨hrest, rfl⟩, ⟨hskip, Or.inl hrest⟩, (if_pos hrest).symm⟩
  | @token r n hfirst =>
      refine Or.inr ⟨?_, ?_⟩
      · rintro (⟨-, hend⟩ | ⟨e, he⟩)
        · have htext := congrArg Token.text (Prod.mk.inj (Except.ok.inj hend)).2
          exact text_ne_of_firstRule? hfirst htext
        · cases he
      · obtain ⟨-, i, hpos, -, hle⟩ := firstRule?_eq_some hfirst
        change (cursor.rest.drop n).length < _
        rw [List.length_drop]
        omega
  | fail hrest hnone =>
      exact Or.inl ⟨Or.inr ⟨_, rfl⟩, ⟨hskip, Or.inr hnone⟩, (if_neg hrest).symm⟩

/-- Where no token begins the answer says so, and the cursor stays. -/
theorem Answers.of_settled (h : lexicon.Answers cursor answer last)
    (hsettled : lexicon.Settled cursor) :
    answer = lexicon.finalAnswer cursor ∧ SamePlace last cursor := by
  cases h with
  | finish hrest => exact ⟨(if_pos hrest).symm, rfl, rfl, rfl⟩
  | @token r n hfirst =>
      rcases hsettled.token with hrest | hnone
      · obtain ⟨-, i, hpos, -, hle⟩ := firstRule?_eq_some hfirst
        rw [hrest, List.length_nil] at hle
        omega
      · cases hnone.symm.trans hfirst
  | fail hrest => exact ⟨(if_neg hrest).symm, rfl, rfl, rfl⟩

/-- A call from a settled cursor gives the final answer and stays there. -/
theorem next_of_settled (h : lexicon.Settled cursor) :
    (lexicon.next cursor).1 = lexicon.finalAnswer cursor ∧
      SamePlace (lexicon.next cursor).2 cursor := by
  have hanswers := answers_next lexicon cursor
  rw [skipAll_of_none h.skip] at hanswers
  exact hanswers.of_settled h

/-- A call gives a final answer and settles, or takes a character at least. -/
theorem settled_or_lt_next (lexicon : Lexicon κ) (cursor : Cursor) :
    (lexicon.Final (lexicon.next cursor).2 (lexicon.next cursor).1 ∧
      lexicon.Settled (lexicon.next cursor).2 ∧
        (lexicon.next cursor).1 = lexicon.finalAnswer (lexicon.next cursor).2) ∨
      (¬ lexicon.Final (lexicon.next cursor).2 (lexicon.next cursor).1 ∧
        (lexicon.next cursor).2.rest.length < cursor.rest.length) := by
  obtain ⟨texts, hstrips⟩ := strips_skipAll lexicon cursor
  have hle := hstrips.length_le
  refine ((answers_next lexicon cursor).settled_or_lt hstrips.halted).imp_right ?_
  rintro ⟨hfinal, hlt⟩
  exact ⟨hfinal, Nat.lt_of_lt_of_le hlt hle⟩

/-- The answer of the call behind the given number of calls is final. -/
def FinalAt (lexicon : Lexicon κ) (input : String) (calls : Nat) : Prop :=
  lexicon.Final (lexicon.cursorAfter input (calls + 1)) (lexicon.answer input calls)

variable {input : String} {k m : Nat}

/-- As long as no answer is final, each call takes a character at least. -/
theorem length_le_of_not_final (h : ∀ j < m, ¬ lexicon.FinalAt input j) :
    (lexicon.cursorAfter input m).rest.length + m ≤ input.toList.length := by
  induction m with
  | zero => exact Nat.le_refl _
  | succ m ih =>
      have hrest := ih fun j hj => h j (Nat.lt_succ_of_lt hj)
      have hlast := h m (Nat.lt_succ_self m)
      rw [FinalAt, cursorAfter_succ, answer] at hlast
      rw [cursorAfter_succ]
      rcases settled_or_lt_next lexicon (lexicon.cursorAfter input m) with ⟨hfinal, -⟩ | ⟨-, hlt⟩
      · exact absurd hfinal hlast
      · omega

/-- A final answer comes after as many calls as there are characters, at the latest. -/
theorem exists_finalAt (lexicon : Lexicon κ) (input : String) :
    ∃ k ≤ input.toList.length, lexicon.FinalAt input k := by
  refine Classical.byContradiction fun hnone => ?_
  have hlength := length_le_of_not_final (m := input.toList.length + 1) fun j hj hfinal =>
    hnone ⟨j, Nat.le_of_lt_succ hj, hfinal⟩
  omega

/-- Behind a final answer every call gives it again and stays at its place. -/
theorem FinalAt.persists (h : lexicon.FinalAt input k) (hm : k ≤ m) :
    lexicon.answer input m = lexicon.answer input k ∧
      SamePlace (lexicon.cursorAfter input (m + 1)) (lexicon.cursorAfter input (k + 1)) := by
  have hk : lexicon.Settled (lexicon.cursorAfter input (k + 1)) ∧
      lexicon.answer input k = lexicon.finalAnswer (lexicon.cursorAfter input (k + 1)) := by
    rw [FinalAt, cursorAfter_succ, answer] at h
    rw [cursorAfter_succ, answer]
    rcases settled_or_lt_next lexicon (lexicon.cursorAfter input k) with ⟨-, hk⟩ | ⟨hfinal, -⟩
    · exact hk
    · exact absurd h hfinal
  obtain ⟨hsettled, hanswer⟩ := hk
  induction m, hm using Nat.le_induction with
  | base => exact ⟨rfl, rfl, rfl, rfl⟩
  | succ m _ ih =>
      obtain ⟨-, hsame⟩ := ih
      obtain ⟨hnext, hstays⟩ := next_of_settled (hsettled.of_samePlace hsame)
      rw [hsame.finalAnswer_eq, ← hanswer] at hnext
      exact ⟨hnext, (cursorAfter_succ lexicon input (m + 1)).symm ▸ hstays.trans hsame⟩

/-- Rounds of skipping halt, and the calls for an input come to an answer that is the end or a
failure, after as many tokens as the input has bytes at the latest. It is given again for ever
after. -/
theorem settles (lexicon : Lexicon κ) (input : String) :
    (∀ cursor, ∃ texts, lexicon.Strips cursor texts (lexicon.skipAll cursor)) ∧
      ∃ k < byteLength input.toList + 1, lexicon.FinalAt input k ∧
        (∀ j < k, ¬ lexicon.FinalAt input j) ∧
        ∀ m ≥ k, lexicon.answer input m = lexicon.answer input k ∧
          (lexicon.cursorAfter input (m + 1)).offset =
            (lexicon.cursorAfter input (k + 1)).offset ∧
          (lexicon.cursorAfter input (m + 1)).skipped =
            (lexicon.cursorAfter input (k + 1)).skipped := by
  classical
  refine ⟨strips_skipAll lexicon, ?_⟩
  obtain ⟨n, hn, hfinal⟩ := exists_finalAt lexicon input
  have hexists : ∃ k, lexicon.FinalAt input k := ⟨n, hfinal⟩
  have hfirst : Nat.find hexists ≤ n := Nat.find_min' hexists hfinal
  have hbytes := length_le_byteLength input.toList
  refine ⟨Nat.find hexists, by omega, Nat.find_spec hexists, fun j hj => Nat.find_min hexists hj,
    fun m hm => ?_⟩
  obtain ⟨hanswer, hsame⟩ := (Nat.find_spec hexists).persists hm
  exact ⟨hanswer, hsame.offset, hsame.skipped⟩

end Lexicon
end Descent
