import Descent.Artifact.Source
import Mathlib.Data.List.Infix
import Mathlib.Order.Bounds.Basic

/-!
# Raw literals

A text is written as a raw literal with the least number of hashes for which the closing
delimiter does not occur in it. The delimiter does not occur earlier in the literal either,
where the end of the text meets the quote behind it, so the literal is read as the text,
whatever follows it.
-/

namespace Descent.Artifact

variable {part text rest : List Char} {n fuel : Nat}

/-! ### The number of hashes -/

/-- The search for a part of a text decides whether the text has it. -/
theorem occursIn_iff : occursIn part text = true ↔ part <:+: text := by
  induction text with
  | nil => simp [occursIn]
  | cons c text ih =>
      rw [occursIn, Bool.or_eq_true, ih, List.isPrefixOf_iff_prefix, List.infix_cons_iff]

/-- A closing delimiter that is longer than the text does not occur in it. -/
theorem not_infix_of_length_le (h : text.length ≤ n) : ¬ rawClosing n <:+: text := by
  intro hinfix
  have hlength := hinfix.length_le
  rw [rawClosing, List.length_cons, List.length_replicate] at hlength
  omega

/-- The search ends at the first number for which the delimiter does not occur, if it may go on up
to the length of the text. -/
theorem isLeast_hashesFrom (h : text.length ≤ n + fuel) :
    IsLeast {m | n ≤ m ∧ ¬ rawClosing m <:+: text} (hashesFrom text fuel n) := by
  induction fuel generalizing n with
  | zero => exact ⟨⟨Nat.le_refl n, not_infix_of_length_le h⟩, fun m hm => hm.1⟩
  | succ fuel ih =>
      rw [hashesFrom]
      split
      next hoccurs =>
        have hinfix : rawClosing n <:+: text := occursIn_iff.mp hoccurs
        obtain ⟨⟨hle, hnot⟩, hleast⟩ := ih (n := n + 1) (by omega)
        refine ⟨⟨Nat.le_of_succ_le hle, hnot⟩, fun m hm => hleast ⟨?_, hm.2⟩⟩
        have hne : m ≠ n := by
          rintro rfl
          exact hm.2 hinfix
        have hm := hm.1
        omega
      next hoccurs =>
        exact ⟨⟨Nat.le_refl n, fun hinfix => hoccurs (occursIn_iff.mpr hinfix)⟩, fun m hm => hm.1⟩

/-- The number of hashes is the least with which the closing delimiter does not occur in the
text. -/
theorem isLeast_hashCount (text : List Char) :
    IsLeast {n | ¬ rawClosing n <:+: text} (hashCount text) := by
  have hfuel : text.length ≤ 0 + text.length := Nat.le_add_left _ _
  simpa [hashCount] using isLeast_hashesFrom hfuel

/-! ### Reading -/

/-- What stands in front of a delimiter where it first occurs in a text, and what stands behind. -/
def splitAtFirst (delimiter : List Char) : List Char → Option (List Char × List Char)
  | [] => none
  | c :: rest =>
    if delimiter.isPrefixOf (c :: rest) then some ([], (c :: rest).drop delimiter.length)
    else (splitAtFirst delimiter rest).map fun (front, back) => (c :: front, back)

/-- Reads a raw literal: behind the letter, a number of hashes and a quote, its content goes up to
the first quote that as many hashes follow. What stands behind the literal is given as well. -/
def readRawLiteral : List Char → Option (List Char × List Char)
  | 'r' :: rest =>
    let hashes := rest.takeWhile (· == '#')
    match rest.drop hashes.length with
    | '"' :: body => splitAtFirst (rawClosing hashes.length) body
    | _ => none
  | _ => none

/-- Hashes do not go on beyond a quote. -/
theorem replicate_prefix_of_append (h : List.replicate n '#' <+: text ++ '"' :: rest) :
    List.replicate n '#' <+: text := by
  induction n generalizing text with
  | zero => exact List.nil_prefix
  | succ n ih =>
      cases text with
      | nil => simp [List.replicate_succ] at h
      | cons c text =>
          rw [List.replicate_succ, List.cons_append, List.cons_prefix_cons] at h
          rw [List.replicate_succ, List.cons_prefix_cons]
          exact ⟨h.1, ih h.2⟩

/-- The content of a literal ends where the closing delimiter is written. -/
theorem splitAtFirst_rawClosing (h : ¬ rawClosing n <:+: text) (rest : List Char) :
    splitAtFirst (rawClosing n) (text ++ (rawClosing n ++ rest)) = some (text, rest) := by
  induction text with
  | nil =>
      have hfront : (rawClosing n).isPrefixOf (rawClosing n ++ rest) = true :=
        List.isPrefixOf_iff_prefix.mpr (List.prefix_append _ _)
      have hback : (rawClosing n ++ rest).drop (rawClosing n).length = rest := List.drop_left
      rw [rawClosing, List.cons_append, ← rawClosing] at hfront hback
      rw [List.nil_append, rawClosing, List.cons_append, splitAtFirst, ← rawClosing, if_pos hfront,
        hback]
  | cons c text ih =>
      rw [List.infix_cons_iff, not_or] at h
      have hnot : ¬ rawClosing n <+: c :: (text ++ (rawClosing n ++ rest)) := by
        intro hfront
        rw [rawClosing, List.cons_prefix_cons] at hfront
        exact h.1 (List.cons_prefix_cons.mpr ⟨hfront.1, replicate_prefix_of_append hfront.2⟩)
      rw [List.cons_append, splitAtFirst, if_neg (by rwa [List.isPrefixOf_iff_prefix]), ih h.2]
      rfl

/-- A raw literal is read as the text that it was written for. -/
theorem readRawLiteral_append (h : ¬ rawClosing n <:+: text) (rest : List Char) :
    readRawLiteral ('r' :: (List.replicate n '#' ++ '"' :: (text ++ (rawClosing n ++ rest)))) =
      some (text, rest) := by
  have hhashes : (List.replicate n '#' ++ '"' :: (text ++ (rawClosing n ++ rest))).takeWhile
      (· == '#') = List.replicate n '#' := by
    simp
  rw [readRawLiteral, hhashes, List.drop_left]
  simp only [List.length_replicate]
  exact splitAtFirst_rawClosing h rest

/-- A raw literal has as few hashes as its text lets it have, and is read as the text, with nothing
of it left over, whatever stands behind it. -/
theorem rawLiteral_exact (text : String) :
    ∃ n, IsLeast {n | ¬ ('"' :: List.replicate n '#') <:+: text.toList} n ∧
      (rawLiteral text).toList =
        ['r'] ++ List.replicate n '#' ++ ['"'] ++ text.toList ++ ['"'] ++ List.replicate n '#' ∧
      ∀ rest, readRawLiteral ((rawLiteral text).toList ++ rest) = some (text.toList, rest) := by
  have hleast := isLeast_hashCount text.toList
  refine ⟨hashCount text.toList, hleast, ?_, fun rest => ?_⟩
  · simp [rawLiteral]
  · have hread := readRawLiteral_append hleast.1 rest
    simpa [rawLiteral, rawClosing] using hread

/-- Runs of hashes behind quotes count, those at the end of the text do not. -/
example : rawLiteral "\"a\"#b##" = "r##\"\"a\"#b##\"##" := by decide

end Descent.Artifact
