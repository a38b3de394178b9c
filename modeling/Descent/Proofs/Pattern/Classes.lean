import Descent.Pattern.Compiled
import Mathlib.Data.List.TakeWhile

/-!
# Patterns of one class of characters

The simplest patterns ask for one character of a set, for a run of such characters, or for
a run behind one character of another set. What they find is told by the text alone: the
first character if it is in the set, and the longest run of characters of the set, which in
front of the text must not be empty.
-/

namespace Descent.Text.CharSet

/-- The class of a range has the characters from its lower to its upper end. -/
theorem contains_ofRange {lo hi c : Char} :
    (ofRange lo hi).contains c = true ↔ lo ≤ c ∧ c ≤ hi := by
  have hbounds : (ofRange lo hi).contains c = true ↔
      lo.toNat ≤ c.toNat ∧ c.toNat ≤ hi.toNat := by simp [ofRange, contains, containsNat]
  rw [hbounds]
  rfl

/-- A set of one character holds that character alone. -/
theorem contains_singleton {c d : Char} : (singleton c).contains d = true ↔ d = c := by
  rw [singleton, contains_ofRange]
  constructor
  · rintro ⟨hle, hge⟩
    exact Char.le_antisymm hge hle
  · rintro rfl
    exact ⟨Char.le_refl d, Char.le_refl d⟩

end Descent.Text.CharSet

namespace Descent.Pattern

open Descent.Text

/-- One character of the set, at the start of a text. -/
def Compiled.letter (set : CharSet) : Compiled :=
  ⟨.cat 2 (.look 0 .textStart) (.chars 1 set), 3, true⟩

/-- As many characters of the set as there are at the start of a text, one at least. -/
def Compiled.run (set : CharSet) : Compiled :=
  ⟨.cat 4 (.look 0 .textStart) (.cat 3 (.chars 1 set) (.star 2 true (.chars 1 set))), 5, true⟩

/-- One character of the first set at the start of a text, and as many of the second set as there
are behind it. -/
def Compiled.led (first others : CharSet) : Compiled :=
  ⟨.cat 5 (.look 0 .textStart) (.cat 4 (.chars 1 first) (.star 3 true (.chars 2 others))), 6, true⟩

/-- A pattern that is read as a class at the start of the text is compiled to one character of the
class. -/
theorem compileAnchored?_letter {pattern : String} {set : CharSet}
    (hread : Regex.ofText? (anchoredText pattern) = some (.cat (.look .textStart) (.chars set)))
    (hsize : (Regex.cat (.look .textStart) (.chars set)).footprint ≤ footprintLimit) :
    compileAnchored? pattern = some (.letter set) := by
  rw [compileAnchored?, hread, Option.bind_some, Compiled.ofRegex?, if_pos hsize]
  rfl

/-- A pattern that is read as a repeated class at the start of the text is compiled to a run of the
class. -/
theorem compileAnchored?_run {pattern : String} {set : CharSet}
    (hread : Regex.ofText? (anchoredText pattern) =
      some (.cat (.look .textStart) (.rep (.chars set) 1 none true)))
    (hsize : (Regex.cat (.look .textStart) (.rep (.chars set) 1 none true)).footprint ≤
      footprintLimit) : compileAnchored? pattern = some (.run set) := by
  rw [compileAnchored?, hread, Option.bind_some, Compiled.ofRegex?, if_pos hsize]
  rfl

/-- A pattern that is read as one class before a repeated one is compiled to a run behind one
character. -/
theorem compileAnchored?_led {pattern : String} {first others : CharSet}
    (hread : Regex.ofText? (anchoredText pattern) =
      some (.cat (.look .textStart) (.cat (.chars first) (.rep (.chars others) 0 none true))))
    (hsize : (Regex.cat (.look .textStart)
      (.cat (.chars first) (.rep (.chars others) 0 none true))).footprint ≤ footprintLimit)
    (hothers : others.isEmpty = false) : compileAnchored? pattern = some (.led first others) := by
  rw [compileAnchored?, hread, Option.bind_some, Compiled.ofRegex?, if_pos hsize]
  simp only [Regex.build, Regex.consumes, hothers, Bool.not_false, if_true]
  rfl

/-! ### Threads of one character -/

private theorem runThreads_nil (fuel count : Nat) (best : Option Nat) (text : List Char) :
    runThreads fuel [] count best text = best := by
  cases text <;> rfl

private theorem runThreads_done (fuel count : Nat) (best : Option Nat) (text : List Char) :
    runThreads fuel [.done] count best text = some count := by
  cases text <;> rfl

/-- A single thread goes on behind a character of its set only. -/
theorem advance_singleton (fuel : Nat) (c : Char) (spot : Spot) (set : CharSet) (thread : Thread) :
    advance fuel c spot [(set, thread)] 0 =
      if set.contains c then (explore spot fuel thread 0).1 else [] := by
  by_cases hc : set.contains c <;> simp [advance, hc]

/-- A thread that waits for its first character ends where the character is not there. -/
theorem runThreads_char (fuel : Nat) (set : CharSet) (thread : Thread) (c : Char)
    (rest : List Char) : runThreads fuel [.char set thread] 0 none (c :: rest) =
      if set.contains c then runThreads fuel (explore ⟨some c, rest⟩ fuel thread 0).1 1 none rest
      else none := by
  change runThreads fuel (advance fuel c ⟨some c, rest⟩ [(set, thread)] 0) 1 none rest = _
  rw [advance_singleton]
  split
  · rfl
  · exact runThreads_nil _ _ _ _

namespace Compiled

variable {set : CharSet}

private theorem explore_letter (text : List Char) :
    (explore ⟨none, text⟩ 3 [(letter set).node] 0).1 = [.char set []] := by
  simp +decide [letter, explore, Node.label, Look.holds]

/-- In an empty text no character is found. -/
theorem find_letter_nil : (letter set).find [] = none := by
  change (runThreads 3 (explore ⟨none, []⟩ 3 [(letter set).node] 0).1 0 none []).map _ = none
  rw [explore_letter]
  rfl

/-- A letter is found where the text begins with a character of the set. -/
theorem find_letter_cons (c : Char) (rest : List Char) :
    (letter set).find (c :: rest) = if set.contains c then some (0, 1) else none := by
  change (runThreads 3 (explore ⟨none, c :: rest⟩ 3 [(letter set).node] 0).1 0 none
    (c :: rest)).map _ = _
  rw [explore_letter, runThreads_char]
  split
  · rw [explore, runThreads_done, Option.map_some]
  · rfl

/-- One character is found exactly at the beginning of a text that begins with one of the class. -/
theorem find_letter_iff {text : List Char} {i n : Nat} : (letter set).find text = some (i, n) ↔
    i = 0 ∧ n = 1 ∧ ∃ c rest, text = c :: rest ∧ set.contains c = true := by
  cases text with
  | nil => simp [find_letter_nil]
  | cons c rest =>
      rw [find_letter_cons]
      by_cases hc : set.contains c = true
      · simp only [if_pos hc, Option.some.injEq, Prod.mk.injEq]
        constructor
        · rintro ⟨rfl, rfl⟩
          exact ⟨rfl, rfl, c, rest, rfl, hc⟩
        · rintro ⟨rfl, rfl, -⟩
          exact ⟨rfl, rfl⟩
      · rw [if_neg hc]
        refine iff_of_false (fun h => nomatch h) ?_
        rintro ⟨-, -, c', rest', htext, hc'⟩
        obtain ⟨rfl, rfl⟩ := List.cons.inj htext
        exact hc hc'

/-- The rest of a run: another character, or the end. -/
theorem explore_star (spot : Spot) :
    (explore spot 5 [.star 2 true (.chars 1 set)] 0).1 =
      [.char set [.star 2 true (.chars 1 set)], .done] := by
  simp +decide [explore, Node.label]

private theorem explore_run (text : List Char) :
    (explore ⟨none, text⟩ 5 [(run set).node] 0).1 =
      [.char set [.star 2 true (.chars 1 set)]] := by
  simp +decide [run, explore, Node.label, Look.holds]

/-- A thread that may end anywhere or go on behind a character of the set goes on as long as there
are such characters. -/
theorem runThreads_rounds {fuel : Nat} {thread : Thread}
    (hexplore : ∀ spot, (explore spot fuel thread 0).1 = [.char set thread, .done]) (count : Nat)
    (best : Option Nat) (text : List Char) :
    runThreads fuel [.char set thread, .done] count best text =
      some (count + (text.takeWhile set.contains).length) := by
  induction text generalizing count best with
  | nil => rfl
  | cons c rest ih =>
      change runThreads fuel (advance fuel c ⟨some c, rest⟩ [(set, thread)] 0) (count + 1)
        (some count) rest = _
      rw [advance_singleton]
      split
      · next hc =>
          rw [hexplore, ih, List.takeWhile_cons_of_pos hc, List.length_cons,
            Nat.add_right_comm, Nat.add_assoc]
      · next hc => rw [runThreads_nil, List.takeWhile_cons_of_neg hc, List.length_nil, Nat.add_zero]

/-- In an empty text no run is found. -/
theorem find_run_nil : (run set).find [] = none := by
  change (runThreads 5 (explore ⟨none, []⟩ 5 [(run set).node] 0).1 0 none []).map _ = none
  rw [explore_run]
  rfl

/-- A run is found where the text begins with a character of the set, and is as long as it can
be. -/
theorem find_run_cons (c : Char) (rest : List Char) :
    (run set).find (c :: rest) =
      if set.contains c then some (0, ((c :: rest).takeWhile set.contains).length) else none := by
  change (runThreads 5 (explore ⟨none, c :: rest⟩ 5 [(run set).node] 0).1 0 none
    (c :: rest)).map _ = _
  rw [explore_run, runThreads_char]
  split
  · next hc =>
      rw [explore_star, runThreads_rounds explore_star, Option.map_some,
        List.takeWhile_cons_of_pos hc, List.length_cons, Nat.add_comm]
  · rfl

private theorem explore_led {first others : CharSet} (text : List Char) :
    (explore ⟨none, text⟩ 6 [(led first others).node] 0).1 =
      [.char first [.star 3 true (.chars 2 others)]] := by
  simp +decide [led, explore, Node.label, Look.holds]

/-- A run behind a character is found where the text begins with that character, and is as long as
it can be. -/
theorem find_led_cons {first others : CharSet} (c : Char) (rest : List Char) :
    (led first others).find (c :: rest) =
      if first.contains c then some (0, 1 + (rest.takeWhile others.contains).length) else none := by
  have hstar : ∀ spot, (explore spot 6 [.star 3 true (.chars 2 others)] 0).1 =
      [.char others [.star 3 true (.chars 2 others)], .done] := by
    intro spot
    simp +decide [explore, Node.label]
  change (runThreads 6 (explore ⟨none, c :: rest⟩ 6 [(led first others).node] 0).1 0 none
    (c :: rest)).map _ = _
  rw [explore_led, runThreads_char]
  split
  · rw [hstar, runThreads_rounds hstar, Option.map_some]
  · rfl

/-- In an empty text no run behind one character is found. -/
theorem find_led_nil {first others : CharSet} : (led first others).find [] = none := by
  change (runThreads 6 (explore ⟨none, []⟩ 6 [(led first others).node] 0).1 0 none []).map _ = none
  rw [explore_led]
  rfl

end Compiled

/-- To drop as many characters as the first of a kind is to drop those. -/
theorem drop_length_takeWhile (p : Char → Bool) (text : List Char) :
    text.drop (text.takeWhile p).length = text.dropWhile p :=
  calc text.drop (text.takeWhile p).length
    _ = (text.takeWhile p ++ text.dropWhile p).drop (text.takeWhile p).length := by
      rw [List.takeWhile_append_dropWhile]
    _ = text.dropWhile p := List.drop_left

/-- The text begins with a run of characters of the set, which is as long as it can be. -/
structure BeginsWithRun (set : CharSet) (text run back : List Char) : Prop where
  split : text = run ++ back
  inside : ∀ c ∈ run, set.contains c = true
  stops : ∀ c ∈ back.head?, set.contains c = false

namespace BeginsWithRun

variable {set : CharSet} {text run back : List Char}

/-- Every text begins with a run, which may be empty. -/
theorem exists_run (set : CharSet) (text : List Char) : BeginsWithRun set text
    (text.takeWhile set.contains) (text.dropWhile set.contains) where
  split := List.takeWhile_append_dropWhile.symm
  inside _ hc := List.mem_takeWhile_imp hc
  stops c hc := by
    have hhead := List.head?_dropWhile_not set.contains text
    rwa [Option.mem_def.mp hc] at hhead

/-- The run that a text begins with is taken as far as it goes. -/
theorem takeWhile_eq (h : BeginsWithRun set text run back) : text.takeWhile set.contains = run := by
  rw [h.split, List.takeWhile_append_of_pos h.inside]
  cases hback : back with
  | nil => rw [List.takeWhile_nil, List.append_nil]
  | cons c rest =>
      have hc := h.stops c (by rw [hback]; rfl)
      rw [List.takeWhile_cons_of_neg (by simp [hc]), List.append_nil]

end BeginsWithRun

/-- A run is found where it is not empty. -/
theorem Compiled.find_run_iff {set : CharSet} {text : List Char} {i n : Nat} :
    (run set).find text = some (i, n) ↔
      i = 0 ∧ ∃ run back, BeginsWithRun set text run back ∧ run ≠ [] ∧ n = run.length := by
  have hrun := BeginsWithRun.exists_run set text
  constructor
  · intro h
    cases text with
    | nil => rw [find_run_nil] at h; cases h
    | cons c rest =>
        rw [find_run_cons] at h
        split at h
        · next hc =>
            obtain ⟨rfl, rfl⟩ := Prod.mk.inj (Option.some.inj h)
            exact ⟨rfl, _, _, hrun, by simp [hc], rfl⟩
        · cases h
  · rintro ⟨rfl, run, back, hbegins, hne, rfl⟩
    rw [← hbegins.takeWhile_eq] at hne ⊢
    cases text with
    | nil => exact absurd rfl hne
    | cons c rest =>
        rw [find_run_cons]
        split
        · rfl
        · next hc => exact absurd (List.takeWhile_cons_of_neg hc) hne

end Descent.Pattern
