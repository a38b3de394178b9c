import Descent.Proofs.Description.Arguments
import Mathlib.Data.Nat.Count

/-!
# Cutting at commas

A list is cut at its commas of depth zero and nowhere else, whatever the text: brackets may
be closed that were never opened. Put together again with commas, the parts are the text, and
an element is its part without the white space around it. All parts but the last close what
they open, and no part can be cut once more.
-/

namespace Descent.Description

open Descent.Text

variable {angles : Bool} {text front rest part : List Char} {parts : List (List Char)} {c : Char}
  {k : Nat}

/-! ### Depth at a place -/

/-- A bracket is opened at the place in the text. -/
def OpensAt (angles : Bool) (text : List Char) (k : Nat) : Prop :=
  text[k]? ∈ [some '(', some '[', some '\x7b'] ∨ angles = true ∧ text[k]? = some '<'

/-- A bracket is closed at the place in the text. The head of an arrow closes none. -/
def ClosesAt (angles : Bool) (text : List Char) (k : Nat) : Prop :=
  text[k]? ∈ [some ')', some ']', some '\x7d'] ∨
    angles = true ∧ text[k]? = some '>' ∧ (text.take k).getLast? ≠ some '-'

instance : DecidablePred (OpensAt angles text) :=
  fun _ => inferInstanceAs (Decidable (_ ∨ _))

instance : DecidablePred (ClosesAt angles text) :=
  fun _ => inferInstanceAs (Decidable (_ ∨ _))

/-- By how many more brackets are opened than closed in front of the place. -/
def depthAt (angles : Bool) (text : List Char) (k : Nat) : Int :=
  (Nat.count (OpensAt angles text) k : Int) - Nat.count (ClosesAt angles text) k

@[simp] theorem depthAt_zero : depthAt angles text 0 = 0 := by simp [depthAt]

/-- Depth is counted up or down by one a character at most. -/
theorem natAbs_depthAt_le (angles : Bool) (text : List Char) (k : Nat) :
    (depthAt angles text k).natAbs ≤ k := by
  have hopens : Nat.count (OpensAt angles text) k ≤ k := Nat.count_le _
  have hcloses : Nat.count (ClosesAt angles text) k ≤ k := Nat.count_le _
  rw [depthAt]
  omega

/-- One character on, the depth has changed by what the character adds to it. -/
theorem depthAt_succ (h : text[k]? = some c) :
    depthAt angles text (k + 1) =
      depthAt angles text k + nesting angles ((text.take k).getLast?.getD '\x00') c := by
  have hbefore : (text.take k).getLast?.getD '\x00' = '-' ↔ (text.take k).getLast? = some '-' := by
    cases (text.take k).getLast? <;> simp
  simp only [depthAt, Nat.count_succ, OpensAt, ClosesAt, h, nesting, List.mem_cons,
    Option.some.injEq, List.not_mem_nil, or_false, Bool.or_eq_true, beq_iff_eq, Bool.and_eq_true,
    bne_iff_ne, ne_eq, hbefore, or_assoc]
  grind

/-- The depth at a place depends only on the text in front of it. -/
theorem depthAt_append_left (h : k ≤ front.length) :
    depthAt angles (front ++ rest) k = depthAt angles front k := by
  induction k with
  | zero => simp
  | succ k ih =>
      have hget : front[k]? = some front[k] := List.getElem?_eq_getElem h
      have htake : (front ++ rest).take k = front.take k :=
        List.take_append_of_le_length (Nat.le_of_succ_le h)
      rw [depthAt_succ hget, depthAt_succ (by rwa [List.getElem?_append_left h]), htake,
        ih (Nat.le_of_succ_le h)]

/-- The depth behind one more character. -/
theorem depthAt_concat (angles : Bool) (front : List Char) (c : Char) :
    depthAt angles (front ++ [c]) (front.length + 1) =
      depthAt angles front front.length + nesting angles (front.getLast?.getD '\x00') c := by
  rw [depthAt_succ (c := c) (by simp), depthAt_append_left (Nat.le_refl _), List.take_left]

private theorem count_add_of_iff {p q : Nat → Prop} [DecidablePred p] [DecidablePred q] {n : Nat}
    (h : ∀ j, p (n + j) ↔ q j) (k : Nat) :
    Nat.count p (n + k) = Nat.count p n + Nat.count q k := by
  rw [Nat.count_add]
  simp only [h]

private theorem getElem?_append_comma (front rest : List Char) (k : Nat) :
    (front ++ ',' :: rest)[front.length + 1 + k]? = rest[k]? := by
  rw [Nat.add_assoc, List.getElem?_append_right (Nat.le_add_right _ _), Nat.add_sub_cancel_left,
    Nat.add_comm, List.getElem?_cons_succ]

/-- Behind a comma depth is counted on from the depth of the comma. -/
theorem depthAt_append_comma (angles : Bool) (front rest : List Char) (k : Nat) :
    depthAt angles (front ++ ',' :: rest) (front.length + 1 + k) =
      depthAt angles front front.length + depthAt angles rest k := by
  have hget := getElem?_append_comma front rest
  -- in front of the first character behind the comma stands no hyphen
  have hbefore : ∀ j, ((front ++ ',' :: rest).take (front.length + 1 + j)).getLast? ≠ some '-' ↔
      (rest.take j).getLast? ≠ some '-' := by
    intro j
    rw [Nat.add_assoc, List.take_length_add_append, Nat.add_comm, List.take_succ_cons]
    cases h : rest.take j <;> simp
  have hcomma : depthAt angles (front ++ ',' :: rest) (front.length + 1) =
      depthAt angles front front.length := by
    have hget : (front ++ ',' :: rest)[front.length]? = some ',' := by simp
    rw [depthAt_succ hget, depthAt_append_left (Nat.le_refl _)]
    simp [nesting]
  have hopens := count_add_of_iff (p := OpensAt angles (front ++ ',' :: rest))
    (q := OpensAt angles rest) (fun j => by rw [OpensAt, OpensAt, hget j]) k
  have hcloses := count_add_of_iff (p := ClosesAt angles (front ++ ',' :: rest))
    (q := ClosesAt angles rest) (fun j => by rw [ClosesAt, ClosesAt, hget j, hbefore j]) k
  rw [← hcomma, depthAt, depthAt, depthAt, hopens, hcloses]
  omega

/-! ### Commas that separate -/

/-- At the place in the text stands a comma of depth zero. -/
def SeparatesAt (angles : Bool) (text : List Char) (k : Nat) : Prop :=
  text[k]? = some ',' ∧ depthAt angles text k = 0

private theorem SeparatesAt.lt_length (h : SeparatesAt angles text k) : k < text.length :=
  (List.getElem?_eq_some_iff.mp h.1).1

/-- Whether a comma separates does not depend on the text behind it. -/
theorem separatesAt_append_left (h : k < front.length) :
    SeparatesAt angles (front ++ rest) k ↔ SeparatesAt angles front k := by
  rw [SeparatesAt, SeparatesAt, List.getElem?_append_left h, depthAt_append_left (Nat.le_of_lt h)]

/-- A text that is cut nowhere. -/
def Unseparated (angles : Bool) (text : List Char) : Prop := ∀ k, ¬ SeparatesAt angles text k

private theorem unseparated_nil : Unseparated angles [] := by
  intro k h
  exact absurd h.lt_length (Nat.not_lt_zero k)

/-- One more character cuts a text only if it is a comma of depth zero. -/
theorem Unseparated.concat (h : Unseparated angles front)
    (hc : c = ',' → depthAt angles front front.length ≠ 0) : Unseparated angles (front ++ [c]) := by
  intro k hk
  rcases Nat.lt_or_ge k front.length with hlt | hge
  · exact h k ((separatesAt_append_left hlt).mp hk)
  · obtain rfl : k = front.length := by
      have hlt := hk.lt_length
      rw [List.length_append, List.length_singleton] at hlt
      omega
    obtain ⟨hget, hzero⟩ := hk
    rw [depthAt_append_left (Nat.le_refl _)] at hzero
    exact hc (by simpa using hget) hzero

/-- Behind a part that closes what it opens, the comma separates, and so do the commas that
separate in the text behind it. -/
theorem separatesAt_append_comma (h : Unseparated angles front)
    (hlevel : depthAt angles front front.length = 0) :
    SeparatesAt angles (front ++ ',' :: rest) k ↔
      k = front.length ∨ ∃ j, k = front.length + 1 + j ∧ SeparatesAt angles rest j := by
  rcases Nat.lt_trichotomy k front.length with hlt | rfl | hgt
  · have hnot : ¬ SeparatesAt angles (front ++ ',' :: rest) k := fun hk =>
      h k ((separatesAt_append_left hlt).mp hk)
    refine iff_of_false hnot ?_
    rintro (rfl | ⟨j, rfl, -⟩) <;> omega
  · refine iff_of_true ⟨by simp, ?_⟩ (.inl rfl)
    rw [depthAt_append_left (Nat.le_refl _), hlevel]
  · obtain ⟨j, rfl⟩ := Nat.exists_eq_add_of_le hgt
    rw [SeparatesAt, getElem?_append_comma, depthAt_append_comma, hlevel, Int.zero_add]
    constructor
    · exact fun hj => .inr ⟨j, rfl, hj⟩
    · rintro (heq | ⟨i, heq, hi⟩)
      · omega
      · obtain rfl : j = i := by omega
        exact hi

/-! ### Parts -/

/-- The parts of a text: it is cut at each comma that separates. -/
inductive CutsInto (angles : Bool) : List Char → List (List Char) → Prop where
  | last {text : List Char} (h : Unseparated angles text) : CutsInto angles text [text]
  | comma {front rest : List Char} {parts : List (List Char)} (h : Unseparated angles front)
      (hlevel : depthAt angles front front.length = 0) (hrest : CutsInto angles rest parts) :
      CutsInto angles (front ++ ',' :: rest) (front :: parts)

/-- A current piece that is cut nowhere goes on up to the next comma that separates. -/
theorem cutsInto_cutAtCommas (h : Unseparated angles front) (text : List Char) :
    CutsInto angles (front ++ text) (cutAtCommas angles (depthAt angles front front.length)
      (front.getLast?.getD '\x00') front.reverse text) := by
  -- along the text, `front` stays the current piece; depth and last character are read off it
  induction text generalizing front with
  | nil => simpa [cutAtCommas] using CutsInto.last h
  | cons c text ih =>
      rw [cutAtCommas]
      split
      next hcut =>
        obtain ⟨rfl, hlevel⟩ : c = ',' ∧ depthAt angles front front.length = 0 := by
          simpa using hcut
        have hrest := ih (unseparated_nil : Unseparated angles [])
        rw [List.length_nil, depthAt_zero] at hrest
        rw [List.reverse_reverse, hlevel, cutAtCommas_before (.inr (by decide))]
        exact CutsInto.comma h hlevel hrest
      next hcut =>
        have hc : c = ',' → depthAt angles front front.length ≠ 0 := by simpa using hcut
        have hrest := ih (h.concat hc)
        simpa [depthAt_concat] using hrest

namespace CutsInto

/-- A text has at least one part. -/
theorem parts_ne_nil (h : CutsInto angles text parts) : parts ≠ [] := by
  cases h <;> exact List.cons_ne_nil _ _

/-- A text is its parts put together with commas. -/
theorem eq_intercalate (h : CutsInto angles text parts) : text = [','].intercalate parts := by
  induction h with
  | last => rw [List.intercalate_singleton]
  | comma _ _ hrest ih =>
      rw [List.intercalate_cons_of_ne_nil hrest.parts_ne_nil, ← ih, List.append_assoc,
        List.singleton_append]

/-- The places of the commas that separate are those behind a number of parts. -/
theorem separatesAt_iff (h : CutsInto angles text parts) :
    SeparatesAt angles text k ↔
      ∃ j, j + 1 < parts.length ∧ k = ([','].intercalate (parts.take (j + 1))).length := by
  induction h generalizing k with
  | last h => simpa using h k
  | @comma front rest parts h hlevel hrest ih =>
      have hparts : 0 < parts.length := List.length_pos_iff.mpr hrest.parts_ne_nil
      have hbehind : ∀ j, ([','].intercalate ((front :: parts).take (j + 2))).length =
          front.length + 1 + ([','].intercalate (parts.take (j + 1))).length := by
        intro j
        have hne : parts.take (j + 1) ≠ [] := by simpa using hrest.parts_ne_nil
        rw [List.take_succ_cons, List.intercalate_cons_of_ne_nil hne, List.length_append,
          List.length_append, List.length_singleton]
      rw [separatesAt_append_comma h hlevel]
      constructor
      · rintro (rfl | ⟨i, rfl, hi⟩)
        · exact ⟨0, by simpa using hparts, by simp⟩
        · obtain ⟨j, hj, rfl⟩ := ih.mp hi
          exact ⟨j + 1, by simpa using hj, (hbehind j).symm⟩
      · rintro ⟨_ | j, hj, rfl⟩
        · exact .inl (by simp)
        · exact .inr ⟨_, hbehind j, ih.mpr ⟨j, by simpa using hj, rfl⟩⟩

/-- No part of a text is cut. -/
theorem unseparated (h : CutsInto angles text parts) (hpart : part ∈ parts) :
    Unseparated angles part := by
  induction h with
  | last h =>
      rw [List.mem_singleton.mp hpart]
      exact h
  | comma h _ _ ih =>
      rcases List.mem_cons.mp hpart with rfl | hmem
      · exact h
      · exact ih hmem

/-- Each part but the last closes what it opens. -/
theorem level (h : CutsInto angles text parts) (hpart : part ∈ parts.dropLast) :
    depthAt angles part part.length = 0 := by
  induction h with
  | last => cases hpart
  | comma _ hlevel hrest ih =>
      rw [List.dropLast_cons_of_ne_nil hrest.parts_ne_nil] at hpart
      rcases List.mem_cons.mp hpart with rfl | hmem
      · exact hlevel
      · exact ih hmem

/-- A text that is cut nowhere is its only part. -/
theorem eq_singleton (h : CutsInto angles text parts) (htext : Unseparated angles text) :
    parts = [text] := by
  cases h with
  | last => rfl
  | @comma front rest _ h hlevel _ =>
      exact absurd ((separatesAt_append_comma h hlevel).mpr (.inl rfl)) (htext front.length)

end CutsInto

/-! ### A counter of 32 bits -/

/-- The cuts of a scan that counts depth in 32 bits and wraps around where these are too few. -/
def cutAtCommas32 (angles : Bool) (depth : Int32) (before : Char) (piece : List Char) :
    List Char → List (List Char)
  | [] => [piece.reverse]
  | c :: rest =>
    if c == ',' && depth == 0 then piece.reverse :: cutAtCommas32 angles depth c [] rest
    else cutAtCommas32 angles (depth + Int32.ofInt (nesting angles before c)) c (c :: piece) rest

/-- In 32 bits no depth of less than `2 ^ 31` is taken for zero. -/
theorem ofInt_beq_zero {depth : Int} (h : depth.natAbs < 2 ^ 31) :
    (Int32.ofInt depth == 0) = (depth == 0) := by
  have hexact : (Int32.ofInt depth).toInt = depth :=
    Int32.toInt_ofInt_of_le (by omega) (by omega)
  have hiff : Int32.ofInt depth = 0 ↔ depth = 0 := by
    rw [← Int32.toInt_inj, hexact, Int32.toInt_zero]
  rw [Bool.eq_iff_iff, beq_iff_eq, beq_iff_eq, hiff]

/-- Behind a text in front of which both counters began, they cut what is left in the same way. -/
theorem cutAtCommas32_ofInt (front piece : List Char) (h : (front ++ text).length < 2 ^ 31) :
    cutAtCommas32 angles (Int32.ofInt (depthAt angles front front.length))
        (front.getLast?.getD '\x00') piece text =
      cutAtCommas angles (depthAt angles front front.length) (front.getLast?.getD '\x00') piece
        text := by
  induction text generalizing front piece with
  | nil => rfl
  | cons c text ih =>
      have hdepth : (depthAt angles front front.length).natAbs < 2 ^ 31 := by
        have hle := natAbs_depthAt_le angles front front.length
        rw [List.length_append] at h
        omega
      have hnext := fun piece => ih (front ++ [c]) piece (by simpa using h)
      have hlast : (front ++ [c]).getLast?.getD '\x00' = c := by simp
      rw [List.length_append, List.length_singleton, depthAt_concat, hlast, Int32.ofInt_add] at hnext
      rw [cutAtCommas32, cutAtCommas, ofInt_beq_zero hdepth]
      split
      next hcut =>
        obtain ⟨rfl, -⟩ : c = ',' ∧ depthAt angles front front.length = 0 := by simpa using hcut
        have hadds : nesting angles (front.getLast?.getD '\x00') ',' = 0 := by simp [nesting]
        rw [hadds, show Int32.ofInt 0 = 0 from rfl, Int32.add_zero, Int.add_zero] at hnext
        rw [hnext []]
      next => exact hnext (c :: piece)

/-- A counter of 32 bits cuts a text of less than `2 ^ 31` characters at the same commas. -/
theorem cutAtCommas32_eq (angles : Bool) (h : text.length < 2 ^ 31) :
    cutAtCommas32 angles 0 '\x00' [] text = cutAtCommas angles 0 '\x00' [] text :=
  cutAtCommas32_ofInt [] [] h

/-! ### Elements -/

/-- The second text is the first without the white space at its ends. -/
structure Trims (part piece : List Char) : Prop where
  /-- What is left out is white space. -/
  blanks : ∃ before after, part = before ++ piece ++ after ∧
    ∀ c ∈ before ++ after, isBlank c = true
  head : ∀ c ∈ piece.head?, isBlank c = false
  last : ∀ c ∈ piece.getLast?, isBlank c = false

/-- Trimming leaves out the white space at both ends, and no more. -/
theorem trims_trim (part : List Char) : Trims part (trim part) := by
  obtain ⟨after, hafter, hblank⟩ := exists_of_trimEnd (part.dropWhile isBlank)
  refine ⟨⟨part.takeWhile isBlank, after, ?_, ?_⟩, fun c hc => ?_, fun c hc => ?_⟩
  · rw [List.append_assoc, trim, ← hafter, List.takeWhile_append_dropWhile]
  · intro c hc
    rcases List.mem_append.mp hc with hc | hc
    · exact List.mem_takeWhile_imp hc
    · exact hblank c hc
  · have hhead := List.head?_dropWhile_not isBlank part
    have hc' : c ∈ (part.dropWhile isBlank).head? := by
      rw [hafter, List.head?_append, ← trim, Option.mem_def.mp hc]
      rfl
    rwa [hc'] at hhead
  · have hlast := List.head?_dropWhile_not isBlank (part.dropWhile isBlank).reverse
    rw [trim, trimEnd, List.getLast?_reverse] at hc
    rwa [hc] at hlast

/-- A text and its elements. -/
structure Divides (angles : Bool) (text : List Char) (pieces : List String)
    (parts : List (List Char)) : Prop where
  /-- The parts are put together with commas. -/
  joined : text = [','].intercalate parts
  /-- An element is its part without the white space around it. -/
  trimmed : List.Forall₂ (fun part piece => Trims part piece.toList) parts pieces
  /-- The commas between the parts are those of depth zero. -/
  separators : ∀ k, SeparatesAt angles text k ↔
    ∃ j, j + 1 < parts.length ∧ k = ([','].intercalate (parts.take (j + 1))).length
  /-- Each part but the last closes what it opens. -/
  level : ∀ part ∈ parts.dropLast, depthAt angles part part.length = 0
  /-- No part is cut once more. -/
  final : ∀ part ∈ parts, (splitTopLevel angles (String.ofList part)).length ≤ 1

/-- The scan cuts a text into its parts. -/
theorem cutsInto (angles : Bool) (text : List Char) :
    CutsInto angles text (cutAtCommas angles 0 '\x00' [] text) := by
  simpa using cutsInto_cutAtCommas (unseparated_nil : Unseparated angles []) text

/-- A text that is cut nowhere has one element at most. -/
theorem length_splitTopLevel_le_one (h : Unseparated angles text) :
    (splitTopLevel angles (String.ofList text)).length ≤ 1 := by
  rw [splitTopLevel, String.toList_ofList]
  split
  next => exact Nat.zero_le 1
  next => rw [List.length_map, (cutsInto angles text).eq_singleton h, List.length_singleton]

/-- A blank text has no elements, and any other is divided into them at its commas of depth
zero. -/
theorem splitTopLevel_exact (angles : Bool) (text : String) :
    if text.toList.all isBlank then splitTopLevel angles text = []
    else ∃ parts, Divides angles text.toList (splitTopLevel angles text) parts := by
  split
  next hblank => rw [splitTopLevel, if_pos hblank]
  next hblank =>
    have hcuts := cutsInto angles text.toList
    refine ⟨_, hcuts.eq_intercalate, ?_, fun k => hcuts.separatesAt_iff,
      fun part hpart => hcuts.level hpart,
      fun part hpart => length_splitTopLevel_le_one (hcuts.unseparated hpart)⟩
    rw [splitTopLevel, if_neg hblank, List.forall₂_map_right_iff, List.forall₂_same]
    intro part _
    rw [String.toList_ofList]
    exact trims_trim part

/-- The head of an arrow closes no bracket. -/
example : splitTopLevel true "f: Box<dyn Fn(i64) -> i64>, n: V<a, b>" =
    ["f: Box<dyn Fn(i64) -> i64>", "n: V<a, b>"] := by decide

end Descent.Description
