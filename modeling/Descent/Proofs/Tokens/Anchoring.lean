import Descent.Proofs.Grammar.Conditions
import Descent.Proofs.Pattern.Wrapping
import Descent.Proofs.Tokens.Compiling
import Descent.Proofs.Tokens.Conservation

/-!
# Tokens and the patterns as they are written

A tokenizer is made of patterns that are all accepted in their wrapper, as a grammar
accepts them. Where each of them is a regular expression by itself, whatever is skipped
and every token is a match of its own pattern as it is written, which begins where the
piece begins.
-/

namespace Descent

open Descent.Text Descent.Pattern

variable {κ : Type}

namespace Pattern

/-- The text in front of the rest is a match of the pattern by itself. -/
def MatchesWritten (pattern : String) (text rest : List Char) : Prop :=
  ∃ r, Regex.ofText? pattern.toList = some r ∧
    r.Matches ⟨none, text ++ rest⟩ (Spot.move ⟨none, text ++ rest⟩ text.length)

/-- A pattern that is a regular expression by itself finds its matches at the start of the text. -/
theorem matchesWritten_of_find {pattern : String} {p : Compiled} {text rest : List Char} {i : Nat}
    (hwritten : (Regex.ofText? pattern.toList).isSome = true)
    (hp : compileAnchored? pattern = some p) (h : p.find (text ++ rest) = some (i, text.length)) :
    MatchesWritten pattern text rest := by
  obtain ⟨r, hr⟩ := Option.isSome_iff_exists.mp hwritten
  obtain ⟨r', hr', hcompile⟩ := Option.bind_eq_some_iff.mp hp
  obtain rfl := ofText?_anchoredText hr hr'
  obtain ⟨-, -, ⟨u, ⟨-, rfl⟩, hmatch⟩, hstart⟩ := Compiled.regex_matches_of_find hcompile h
  obtain rfl := hstart rfl
  exact ⟨r, hr, hmatch⟩

end Pattern

namespace Lexicon

variable {lexicon : Lexicon κ} {skips : List String} {rules : List (κ × String × String)}
  {endKind : κ}

/-! ### The pieces of an input -/

/-- Each piece is found in front of what is behind it. -/
theorem Tiles.finds {offset : Nat} {text rest : List Char} {taken before after : List (Taken κ)}
    {x : Taken κ} (h : lexicon.Tiles offset text taken rest)
    (htaken : taken = before ++ x :: after) :
    lexicon.Finds (offset + byteLength (takenText before)) (x.text ++ (takenText after ++ rest)) x ∧
      x.text ≠ [] := by
  induction h generalizing before with
  | nil => simp at htaken
  | @cons offset y taken back rest hfound hne hrest ih =>
    cases before with
    | nil =>
      obtain ⟨rfl, rfl⟩ := List.cons.inj htaken
      rw [← hrest.text_eq]
      exact ⟨hfound, hne⟩
    | cons z before =>
      obtain ⟨rfl, hbehind⟩ := List.cons.inj htaken
      have hbefore : byteLength (takenText (y :: before)) =
          byteLength y.text + byteLength (takenText before) := by
        rw [takenText, List.flatMap_cons, byteLength_append, takenText]
      rw [hbefore, ← Nat.add_assoc]
      exact ih hbehind

/-- The piece in front of the rest is a match of a skip pattern, or of the pattern of the rule that
a token at the offset comes from, as these are written. -/
def IsWritten (skips : List String) (rules : List (κ × String × String)) (offset : Nat)
    (rest : List Char) : Taken κ → Prop
  | .skip text => text ≠ [] ∧ ∃ pattern ∈ skips, MatchesWritten pattern text rest
  | .token kind t => t.text.toList ≠ [] ∧ t.offset = offset ∧
      ∃ pattern, (kind, t.name, pattern) ∈ rules ∧ MatchesWritten pattern t.text.toList rest

/-- A piece that a lexicon takes is a match of its pattern as written, if each pattern is an
expression by itself. -/
theorem isWritten_of_finds (h : ofPatterns? skips rules endKind = some lexicon)
    (hwritten : ∀ pattern ∈ skips ++ rules.map (·.2.2),
      (Regex.ofText? pattern.toList).isSome = true) {offset : Nat} {rest : List Char} {x : Taken κ}
    (hne : x.text ≠ []) (hfinds : lexicon.Finds offset (x.text ++ rest) x) :
    IsWritten skips rules offset rest x := by
  cases x with
  | skip text =>
    obtain ⟨p, hp, i, hfind⟩ := hfinds
    obtain ⟨pattern, hmem, hcompiled⟩ := exists_of_mem_skips h hp
    exact ⟨hne, pattern, hmem,
      matchesWritten_of_find (hwritten _ (List.mem_append_left _ hmem)) hcompiled hfind⟩
  | token kind t =>
    obtain ⟨hoffset, r, hr, rfl, hname, i, -, hfind⟩ := hfinds
    obtain ⟨pattern, hmem, hcompiled⟩ := exists_of_mem_rules h hr
    refine ⟨hne, hoffset, pattern, hname ▸ hmem, ?_⟩
    exact matchesWritten_of_find (hwritten _ (List.mem_append_right _
      (List.mem_map.mpr ⟨_, hmem, rfl⟩))) hcompiled hfind

/-! ### Runs -/

/-- Patterns make a lexicon exactly where each of them passes the check of a grammar, as all do that
are regular expressions by themselves with room for the wrapper and no sign of a comment. If all of
them are regular expressions by themselves, whatever a series of calls takes from an input is a
match of its own pattern as it is written, which begins where the piece begins. -/
theorem takes_written (skips : List String) (rules : List (κ × String × String)) (endKind : κ) :
    ((ofPatterns? skips rules endKind).isSome = true ↔
      ∀ t : TokenRule, t.pattern ∈ skips ++ rules.map (·.2.2) → t.HasValidPattern) ∧
    (∀ t : TokenRule, leavesRoom t.pattern = true → '#' ∉ t.pattern.toList → t.HasValidPattern) ∧
    ∀ lexicon, ofPatterns? skips rules endKind = some lexicon →
      (∀ pattern ∈ skips ++ rules.map (·.2.2), (Regex.ofText? pattern.toList).isSome = true) →
      ∀ (input : String) (calls : Nat), ∃ taken,
        lexicon.Accounts (.start input.toList)
            ((List.range calls).map (lexicon.answer input)) taken
            (lexicon.cursorAfter input calls) ∧
          ∀ before x after, taken = before ++ x :: after →
            IsWritten skips rules (byteLength (takenText before))
              (takenText after ++ (lexicon.cursorAfter input calls).rest) x := by
  refine ⟨?_, fun t => compileAnchored?_isSome, fun lexicon h hwritten input calls => ?_⟩
  · have hall : (∀ pattern ∈ skips ++ rules.map (·.2.2), (compileAnchored? pattern).isSome = true) ↔
        (∀ pattern ∈ skips, (compileAnchored? pattern).isSome = true) ∧
          ∀ r ∈ rules, (compileAnchored? r.2.2).isSome = true := by
      rw [List.forall_mem_append, List.forall_mem_map]
    rw [ofPatterns?_isSome_iff, ← hall]
    exact ⟨fun h t ht => h t.pattern ht, fun h pattern hp => h ⟨"", pattern⟩ hp⟩
  · obtain ⟨taken, haccounts⟩ := accounts_cursorAfter lexicon input calls
    refine ⟨taken, haccounts, fun before x after htaken => ?_⟩
    obtain ⟨hfinds, hne⟩ := haccounts.tiles.finds htaken
    rw [Cursor.start, Nat.zero_add] at hfinds
    exact isWritten_of_finds h hwritten hne hfinds

/-- The pieces of two tokens and of what is skipped between them. -/
theorem takes_written_letters :
    ∃ lexicon, ofPatterns? [" +|_"] [('n', "N", "ab?|c")] 'e' = some lexicon ∧
    ∃ taken, lexicon.Accounts (.start "ab _c".toList)
        ((List.range 2).map (lexicon.answer "ab _c")) taken (lexicon.cursorAfter "ab _c" 2) ∧
      ∀ before x after, taken = before ++ x :: after →
        IsWritten [" +|_"] [('n', "N", "ab?|c")] (byteLength (takenText before))
          (takenText after ++ (lexicon.cursorAfter "ab _c" 2).rest) x := by
  obtain ⟨haccepted, -, hruns⟩ := takes_written [" +|_"] [('n', "N", "ab?|c")] 'e'
  have hvalid : ∀ t : TokenRule, t.pattern ∈ [" +|_", "ab?|c"] → t.HasValidPattern := by
    rintro ⟨name, pattern⟩ hpattern
    have hall : ∀ pattern ∈ [" +|_", "ab?|c"], (compileAnchored? pattern).isSome = true := by
      decide +kernel
    exact hall pattern hpattern
  obtain ⟨lexicon, hlexicon⟩ := Option.isSome_iff_exists.mp (haccepted.mpr hvalid)
  exact ⟨lexicon, hlexicon, hruns lexicon hlexicon (by decide +kernel) "ab _c" 2⟩

/-- A parenthesis in a pattern may close the wrapper. Such a pattern is accepted, although it is no
regular expression by itself, and a token of it need not begin with a match. -/
theorem token_of_unwritten : Regex.ofText? "a)|(?:b".toList = none ∧
    (compileAnchored? "a)|(?:b").map (·.find "xb".toList) = some (some (1, 2)) ∧
    (ofPatterns? [] [('t', "T", "a)|(?:b")] 'e').map (fun l => (l.next (.start "xb".toList)).1) =
      some (.ok ('t', ⟨"T", "xb", 0⟩)) := by
  decide +kernel

end Lexicon
end Descent
