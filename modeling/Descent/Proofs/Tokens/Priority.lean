import Descent.Proofs.Tokens.Ahead
import Descent.Proofs.Tokens.Compiling

/-!
# Priorities of a tokenizer

Order decides, and not length: of the skip patterns the first one whose match ends behind
the cursor is taken, again and again, and then the first rule whose match is not empty
makes the token. What the searches of a call find is said here of the lists of patterns
and rules, and from that what any call answers after any calls before it.
-/

namespace Descent

open Descent.Text Descent.Pattern

variable {κ : Type}

namespace Lexicon

variable {lexicon : Lexicon κ} {cursor place after : Cursor} {text : List Char} {n : Nat}

/-! ### What the searches find -/

/-- The match of a skip pattern on the text ends behind its first `n` characters, one at least. -/
def SkipsOver (p : Compiled) (text : List Char) (n : Nat) : Prop :=
  0 < n ∧ ∃ i, p.find text = some (i, n)

/-- The match of the rule on the text is not empty, and it ends behind the first `n` characters. -/
def RuleMatches (r : LexemeRule κ) (text : List Char) (n : Nat) : Prop :=
  ∃ i < n, r.pattern.find text = some (i, n)

/-- The first skip pattern, in the order of the list, that skips anything of the text skips `n`
characters. -/
def FirstSkip (lexicon : Lexicon κ) (text : List Char) (n : Nat) : Prop :=
  ∃ before p behind, lexicon.skips = before ++ p :: behind ∧ SkipsOver p text n ∧
    ∀ q ∈ before, ∀ m, ¬ SkipsOver q text m

/-- The rule is the first one, in the order of the list, with a match on the text that is not
empty, and the match ends behind `n` characters. -/
def FirstMatch (lexicon : Lexicon κ) (text : List Char) (r : LexemeRule κ) (n : Nat) : Prop :=
  ∃ before behind, lexicon.rules = before ++ r :: behind ∧ RuleMatches r text n ∧
    ∀ q ∈ before, ∀ m, ¬ RuleMatches q text m

private theorem skip_eq_some_iff {p : Compiled} :
    ((p.find text).bind fun m => if 0 < m.2 then some m.2 else none) = some n ↔
      SkipsOver p text n := by
  simp only [Option.bind_eq_some_iff, Option.ite_none_right_eq_some, Option.some.injEq,
    Prod.exists]
  constructor
  · rintro ⟨i, m, hfind, hpos, rfl⟩
    exact ⟨hpos, i, hfind⟩
  · rintro ⟨hpos, i, hfind⟩
    exact ⟨i, n, hfind, hpos, rfl⟩

private theorem match_eq_some_iff {q r : LexemeRule κ} :
    ((q.pattern.find text).bind fun m => if m.1 < m.2 then some (q, m.2) else none) = some (r, n) ↔
      q = r ∧ RuleMatches q text n := by
  simp only [Option.bind_eq_some_iff, Option.ite_none_right_eq_some, Option.some.injEq,
    Prod.mk.injEq, Prod.exists]
  constructor
  · rintro ⟨i, m, hfind, hlt, rfl, rfl⟩
    exact ⟨rfl, i, hlt, hfind⟩
  · rintro ⟨rfl, i, hlt, hfind⟩
    exact ⟨i, n, hfind, hlt, rfl, rfl⟩

private theorem skip_eq_none_iff {p : Compiled} :
    ((p.find text).bind fun m => if 0 < m.2 then some m.2 else none) = none ↔
      ∀ m, ¬ SkipsOver p text m := by
  simp only [Option.eq_none_iff_forall_ne_some, ne_eq, skip_eq_some_iff]

private theorem match_eq_none_iff {r : LexemeRule κ} :
    ((r.pattern.find text).bind fun m => if m.1 < m.2 then some (r, m.2) else none) = none ↔
      ∀ m, ¬ RuleMatches r text m := by
  simp only [Option.eq_none_iff_forall_ne_some, Prod.forall, ne_eq, match_eq_some_iff]
  exact ⟨fun h m hm => h r m ⟨rfl, hm⟩, fun h _ m hm => h m hm.2⟩

/-- A round of skipping takes what the first skip pattern takes that has anything to skip. -/
theorem skipLength?_eq_some_iff_firstSkip :
    lexicon.skipLength? text = some n ↔ lexicon.FirstSkip text n := by
  rw [skipLength?, List.findSome?_eq_some_iff]
  simp only [skip_eq_some_iff, skip_eq_none_iff, FirstSkip]

/-- Nothing is skipped exactly where no skip pattern moves ahead. -/
theorem skipLength?_eq_none_iff :
    lexicon.skipLength? text = none ↔ ∀ p ∈ lexicon.skips, ∀ m, ¬ SkipsOver p text m := by
  rw [skipLength?, List.findSome?_eq_none_iff]
  simp only [skip_eq_none_iff]

/-- The search for a token stops at the first rule with a match that is not empty. -/
theorem firstRule?_eq_some_iff {r : LexemeRule κ} :
    lexicon.firstRule? text = some (r, n) ↔ lexicon.FirstMatch text r n := by
  rw [firstRule?, List.findSome?_eq_some_iff]
  simp only [match_eq_some_iff, match_eq_none_iff, FirstMatch]
  constructor
  · rintro ⟨before, q, behind, hrules, ⟨rfl, hmatch⟩, hbefore⟩
    exact ⟨before, behind, hrules, hmatch, hbefore⟩
  · rintro ⟨before, behind, hrules, hmatch, hbefore⟩
    exact ⟨before, r, behind, hrules, ⟨rfl, hmatch⟩, hbefore⟩

/-- No rule is found exactly where none matches. -/
theorem firstRule?_eq_none_iff :
    lexicon.firstRule? text = none ↔ ∀ r ∈ lexicon.rules, ∀ m, ¬ RuleMatches r text m := by
  rw [firstRule?, List.findSome?_eq_none_iff]
  simp only [match_eq_none_iff]

/-! ### Calls -/

/-- From the first cursor the skip patterns lead to the second one. Each round takes what the first
of them takes that has anything to skip, and the rounds stop where none has. -/
inductive SkipsTo (lexicon : Lexicon κ) : Cursor → Cursor → Prop where
  | stop {cursor : Cursor} (h : ∀ p ∈ lexicon.skips, ∀ m, ¬ SkipsOver p cursor.rest m) :
      SkipsTo lexicon cursor cursor
  | round {cursor place : Cursor} {n : Nat} (h : lexicon.FirstSkip cursor.rest n)
      (hrest : SkipsTo lexicon
        { rest := cursor.rest.drop n
          offset := cursor.offset + byteLength (cursor.rest.take n)
          tokens := cursor.tokens
          skipped := cursor.skipped + 1 } place) : SkipsTo lexicon cursor place

/-- The rounds of skipping lead to the place where nothing more is skipped. -/
theorem Strips.skipsTo {texts : List (List Char)} (h : lexicon.Strips cursor texts place) :
    lexicon.SkipsTo cursor place := by
  induction h with
  | halt h => exact .stop (skipLength?_eq_none_iff.mp h)
  | round h _ ih => exact .round (skipLength?_eq_some_iff_firstSkip.mp h) ih

/-- Skipping returns no tokens. -/
theorem SkipsTo.tokens_eq (h : lexicon.SkipsTo cursor place) : place.tokens = cursor.tokens := by
  induction h with
  | stop => rfl
  | round _ _ ih => exact ih

/-- A call from the cursor skips up to the place, answers there by the order of the rules, and
leaves the tokenizer at the last cursor. -/
structure MeetsPriorities (lexicon : Lexicon κ) (input : List Char) (cursor place : Cursor)
    (answer : Except LexicalError (κ × Token)) (after : Cursor) : Prop where
  skips : lexicon.SkipsTo cursor place
  /-- At the offset of the place stands the rest of the input. -/
  placed : ∃ before, input = before ++ place.rest ∧ place.offset = byteLength before
  /-- The end is returned at the end of the input only, and always there. -/
  finish : answer = .ok (lexicon.endKind, .atEnd place.offset) ↔ place.offset = byteLength input
  isEnd : ∀ kind t, answer = .ok (kind, t) → (t.isEnd = true ↔ place.offset = byteLength input)
  empty : ∀ kind t, answer = .ok (kind, t) → (t.text = "" ↔ place.offset = byteLength input)
  /-- In front of the end a token is that of the first rule with a match that is not empty. -/
  token : place.offset < byteLength input → ∀ kind t, answer = .ok (kind, t) ↔
    ∃ r n, lexicon.FirstMatch place.rest r n ∧ kind = r.kind ∧
      t = ⟨r.name, String.ofList (place.rest.take n), place.offset⟩
  /-- A call fails in front of the end where no rule has such a match, and nowhere else. -/
  fails : (∃ e, answer = .error e) ↔
    place.offset < byteLength input ∧ ∀ r ∈ lexicon.rules, ∀ n, ¬ RuleMatches r place.rest n
  failure : ∀ e, answer = .error e → e = ⟨place.offset, String.ofList place.rest⟩ ∧
    after = place ∧ after.tokens = cursor.tokens
  /-- A token is taken off the input and counted. -/
  success : ∀ kind t, answer = .ok (kind, t) →
    place.rest = t.text.toList ++ after.rest ∧
      after.offset = place.offset + byteLength t.text.toList ∧
      after.tokens = cursor.tokens + 1 ∧ after.skipped = place.skipped

section

variable {input before : List Char} (hskips : lexicon.SkipsTo cursor place)
  (hinput : input = before ++ place.rest) (hoffset : place.offset = byteLength before)
include hinput hoffset

private theorem offset_eq_iff : place.offset = byteLength input ↔ place.rest = [] := by
  have hbytes := length_le_byteLength place.rest
  rw [hinput, byteLength_append, hoffset]
  constructor
  · intro hlength
    exact List.length_eq_zero_iff.mp (by omega)
  · intro hrest
    rw [hrest, byteLength_nil, Nat.add_zero]

private theorem offset_lt_iff : place.offset < byteLength input ↔ place.rest ≠ [] := by
  have hle : place.offset ≤ byteLength input := by
    rw [hinput, byteLength_append, hoffset]
    exact Nat.le_add_right _ _
  rw [ne_eq, ← offset_eq_iff hinput hoffset]
  omega

include hskips

/-- Where nothing is left the end is returned. -/
theorem meetsPriorities_finish (hrest : place.rest = []) :
    lexicon.MeetsPriorities input cursor place (.ok (lexicon.endKind, .atEnd place.offset))
      { place with tokens := place.tokens + 1 } := by
  have hend := (offset_eq_iff hinput hoffset).mpr hrest
  have hlt : ¬ place.offset < byteLength input := by omega
  exact
    { skips := hskips
      placed := ⟨before, hinput, hoffset⟩
      finish := iff_of_true rfl hend
      isEnd := by rintro kind t ⟨⟩; exact iff_of_true rfl hend
      empty := by rintro kind t ⟨⟩; exact iff_of_true rfl hend
      token := fun h => absurd h hlt
      fails := iff_of_false (fun ⟨_, he⟩ => nomatch he) fun h => hlt h.1
      failure := fun _ he => nomatch he
      success := by
        rintro kind t ⟨⟩
        exact ⟨rfl, rfl, congrArg (· + 1) hskips.tokens_eq, rfl⟩ }

/-- A token is that of the first rule that matches; its name is not that of the end. -/
theorem meetsPriorities_token {r : LexemeRule κ} (hname : r.name ≠ endName)
    (hfirst : lexicon.firstRule? place.rest = some (r, n)) :
    lexicon.MeetsPriorities input cursor place
      (.ok (r.kind, ⟨r.name, String.ofList (place.rest.take n), place.offset⟩))
      { take place n with tokens := place.tokens + 1 } := by
  obtain ⟨hr, i, hpos, hfind, -⟩ := firstRule?_eq_some hfirst
  have htext := text_ne_of_firstRule? hfirst
  have hlt := (offset_lt_iff hinput hoffset).mpr (ne_nil_of_firstRule? hfirst)
  have hne : place.offset ≠ byteLength input := by omega
  exact
    { skips := hskips
      placed := ⟨before, hinput, hoffset⟩
      finish := by
        refine iff_of_false (fun h => ?_) hne
        exact htext (congrArg Token.text (Prod.mk.inj (Except.ok.inj h)).2)
      isEnd := by
        rintro kind t ⟨⟩
        exact iff_of_false (by simpa [Token.isEnd] using hname) hne
      empty := by rintro kind t ⟨⟩; exact iff_of_false htext hne
      token := by
        intro _ kind t
        simp only [← firstRule?_eq_some_iff, hfirst, Option.some.injEq, Prod.mk.injEq,
          Except.ok.injEq]
        constructor
        · rintro ⟨rfl, rfl⟩
          exact ⟨r, n, ⟨rfl, rfl⟩, rfl, rfl⟩
        · rintro ⟨_, _, ⟨rfl, rfl⟩, rfl, rfl⟩
          exact ⟨rfl, rfl⟩
      fails := iff_of_false (fun ⟨_, he⟩ => nomatch he) fun h => h.2 r hr n ⟨i, hpos, hfind⟩
      failure := fun _ he => nomatch he
      success := by
        rintro kind t ⟨⟩
        dsimp only [take]
        rw [String.toList_ofList, List.take_append_drop]
        exact ⟨rfl, rfl, congrArg (· + 1) hskips.tokens_eq, rfl⟩ }

/-- Where no rule matches the call fails and takes nothing more. -/
theorem meetsPriorities_fail (hrest : place.rest ≠ [])
    (hnone : lexicon.firstRule? place.rest = none) :
    lexicon.MeetsPriorities input cursor place
      (.error ⟨place.offset, String.ofList place.rest⟩) place := by
  have hlt := (offset_lt_iff hinput hoffset).mpr hrest
  have hmatches := firstRule?_eq_none_iff.mp hnone
  exact
    { skips := hskips
      placed := ⟨before, hinput, hoffset⟩
      finish := iff_of_false (fun h => nomatch h) (by omega)
      isEnd := fun _ _ h => nomatch h
      empty := fun _ _ h => nomatch h
      token := by
        intro _ kind t
        refine iff_of_false (fun h => nomatch h) ?_
        rintro ⟨r, n, hfirst, -⟩
        cases hnone.symm.trans (firstRule?_eq_some_iff.mpr hfirst)
      fails := iff_of_true ⟨_, rfl⟩ ⟨hlt, hmatches⟩
      failure := by rintro e ⟨⟩; exact ⟨rfl, rfl, hskips.tokens_eq⟩
      success := fun _ _ h => nomatch h }

end

/-- Every call, after any number of calls before it, skips and answers by the order of the skip
patterns and of the rules, if no rule has the name of the end. -/
theorem next_by_priority (lexicon : Lexicon κ) (hnames : ∀ r ∈ lexicon.rules, r.name ≠ endName)
    (input : String) (calls : Nat) : ∃ place,
    lexicon.MeetsPriorities input.toList (lexicon.cursorAfter input calls) place
      (lexicon.answer input calls) (lexicon.cursorAfter input (calls + 1)) := by
  obtain ⟨taken, haccounts⟩ := accounts_cursorAfter lexicon input calls
  obtain ⟨texts, hstrips⟩ := strips_skipAll lexicon (lexicon.cursorAfter input calls)
  obtain ⟨skips, hskips⟩ := hstrips.accounts
  have hplace := haccounts.trans hskips
  have hinput := hplace.tiles.text_eq
  have hoffset : (lexicon.skipAll (lexicon.cursorAfter input calls)).offset =
      byteLength (takenText (taken ++ skips)) := by
    rw [hplace.offset, Cursor.start, Nat.zero_add]
  have hanswers := answers_next lexicon (lexicon.cursorAfter input calls)
  rw [← cursorAfter_succ] at hanswers
  refine ⟨lexicon.skipAll (lexicon.cursorAfter input calls), ?_⟩
  rw [answer]
  generalize (lexicon.next (lexicon.cursorAfter input calls)).1 = result at hanswers ⊢
  generalize lexicon.cursorAfter input (calls + 1) = after at hanswers ⊢
  cases hanswers with
  | finish hrest => exact meetsPriorities_finish hstrips.skipsTo hinput hoffset hrest
  | token hfirst =>
      have hname := hnames _ (firstRule?_eq_some hfirst).1
      exact meetsPriorities_token hstrips.skipsTo hinput hoffset hname hfirst
  | fail hrest hnone => exact meetsPriorities_fail hstrips.skipsTo hinput hoffset hrest hnone

/-- Two skip patterns take turns in front of a keyword and a name that begins with it. -/
theorem next_by_priority_keyword :
    ∃ lexicon, ofPatterns? ["x*", " +", "_"] [('l', "LET", "let"), ('i', "NAME", "[a-z]+")] 'e' =
        some lexicon ∧ (∀ r ∈ lexicon.rules, r.name ≠ endName) ∧
      ∃ place, lexicon.MeetsPriorities "_ _letter let".toList
        (lexicon.cursorAfter "_ _letter let" 1) place (lexicon.answer "_ _letter let" 1)
        (lexicon.cursorAfter "_ _letter let" 2) := by
  have haccepted : (ofPatterns? ["x*", " +", "_"]
      [('l', "LET", "let"), ('i', "NAME", "[a-z]+")] 'e').isSome = true := by decide +kernel
  obtain ⟨lexicon, hlexicon⟩ := Option.isSome_iff_exists.mp haccepted
  have hnames : ∀ r ∈ lexicon.rules, r.name ≠ endName := by
    intro r hr
    obtain ⟨pattern, hrule, -⟩ := exists_of_mem_rules hlexicon hr
    simp only [List.mem_cons, Prod.mk.injEq, List.not_mem_nil, or_false] at hrule
    rcases hrule with ⟨-, hname, -⟩ | ⟨-, hname, -⟩ <;> simp [hname, endName]
  exact ⟨lexicon, hlexicon, hnames, next_by_priority lexicon hnames _ 1⟩

/-- The keyword in front of the name is a token by itself, as its rule comes first. -/
example : (ofPatterns? ["x*", " +", "_"] [('l', "LET", "let"), ('i', "NAME", "[a-z]+")] 'e').map
    (fun lexicon => (List.range 3).map fun calls =>
      (lexicon.answer "_ _letter let" calls).toOption) =
      some [some ('l', ⟨"LET", "let", 3⟩), some ('i', ⟨"NAME", "ter", 6⟩),
        some ('l', ⟨"LET", "let", 10⟩)] := by
  decide +kernel

end Lexicon
end Descent
