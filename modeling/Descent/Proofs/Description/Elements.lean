import Descent.Proofs.Description.Spelling

/-!
# Elements of lists

Texts that can be elements of a list separated by commas. Such a list is taken apart
into the elements that it is made of, and a binding is read from its text.
-/

namespace Descent.Description

open Descent.Text

variable {angles : Bool} {depth : Int} {before c : Char} {text lead rest : List Char}

/-! ### Characters of names -/

private theorem isBlank_of_isNamePart (h : isNamePart c = true) : isBlank c = false := by
  have hrange := toNat_of_isNamePart h
  rw [Bool.eq_false_iff]
  simp only [isBlank, CharSet.contains, CharSet.containsNat, whiteSpace, List.any_cons,
    List.any_nil, ne_eq, Bool.or_eq_true, Bool.and_eq_true, decide_eq_true_eq,
    Bool.false_eq_true, or_false]
  omega

private theorem not_mem_of_isNamePart {marks : List Char}
    (hmarks : marks.all (!isNamePart ·) = true) (h : isNamePart c = true) : c ∉ marks := by
  intro hmem
  have hnot := List.all_eq_true.mp hmarks c hmem
  rw [h] at hnot
  cases hnot

/-! ### White space at the ends -/

/-- A blank in front is trimmed. -/
theorem trim_cons_of_isBlank (h : isBlank c = true) : trim (c :: text) = trim text := by
  rw [trim, List.dropWhile_cons_of_pos h, trim]

/-- A text without white space at its ends is left as it is. -/
theorem trim_eq_self (hhead : ∀ c ∈ text.head?, isBlank c = false)
    (hlast : ∀ c ∈ text.getLast?, isBlank c = false) : trim text = text := by
  have hdrop : ∀ {cs : List Char}, (∀ c ∈ cs.head?, isBlank c = false) →
      cs.dropWhile isBlank = cs := by
    rintro (_ | ⟨c, cs⟩) h
    · rfl
    · exact List.dropWhile_cons_of_neg (Bool.eq_false_iff.mp (h c rfl))
  rw [trim, hdrop hhead, trimEnd, hdrop (by rwa [List.head?_reverse]), List.reverse_reverse]

/-- The last character of a text that is left as it is is no white space. -/
theorem getLast?_of_trim_eq_self (h : trim text = text) :
    ∀ c ∈ text.getLast?, isBlank c = false := by
  intro c hc
  rw [← h, trim, trimEnd, List.getLast?_reverse] at hc
  have hnot := List.head?_dropWhile_not isBlank (text.dropWhile isBlank).reverse
  rwa [hc] at hnot

/-! ### Elements -/

/-- The text has no comma outside brackets and closes all brackets that it opens, begun at a depth
and behind a character. -/
def isPiece (angles : Bool) (depth : Int) (before : Char) : List Char → Bool
  | [] => depth == 0
  | c :: rest =>
    !(c == ',' && depth == 0) && isPiece angles (depth + nesting angles before c) c rest

/-- The text can be an element of a list. -/
structure IsElement (angles : Bool) (text : String) : Prop where
  notBlank : text.toList.all isBlank = false
  trimmed : trim text.toList = text.toList
  piece : isPiece angles 0 '\x00' text.toList = true

/-- A text is a piece if its first character does not separate and the rest is a piece from there
on. -/
theorem isPiece_cons : isPiece angles depth before (c :: text) = true ↔
    ¬ (c == ',' && depth == 0) = true ∧
      isPiece angles (depth + nesting angles before c) c text = true := by
  rw [isPiece, Bool.and_eq_true, Bool.not_eq_true', Bool.not_eq_true]

/-- Up to its end, or to a comma behind it, a piece is not cut. -/
theorem cutAtCommas_piece {piece : List Char} (h : isPiece angles depth before text = true) :
    cutAtCommas angles depth before piece text = [piece.reverse ++ text] := by
  induction text generalizing depth before piece with
  | nil => rw [cutAtCommas, List.append_nil]
  | cons c text ih =>
      obtain ⟨hcomma, hrest⟩ := isPiece_cons.mp h
      rw [cutAtCommas, if_neg hcomma, ih hrest, List.reverse_cons, List.append_assoc,
        List.singleton_append]

/-- A piece up to a comma of depth zero is cut off, and the scan goes on behind the comma. -/
theorem cutAtCommas_piece_comma {piece : List Char} (h : isPiece angles depth before text = true) :
    cutAtCommas angles depth before piece (text ++ ',' :: rest) =
      (piece.reverse ++ text) :: cutAtCommas angles 0 ',' [] rest := by
  induction text generalizing depth before piece with
  | nil =>
      obtain rfl : depth = 0 := beq_iff_eq.mp h
      rw [List.append_nil]
      rfl
  | cons c text ih =>
      obtain ⟨hcomma, hrest⟩ := isPiece_cons.mp h
      rw [List.cons_append, cutAtCommas, if_neg hcomma, ih hrest, List.reverse_cons,
        List.append_assoc, List.singleton_append]

/-- The characters that mean something in a list, and the hyphen of an arrow. -/
def listMarks : List Char := [',', '(', '[', '\x7b', ')', ']', '\x7d', '<', '>', '-']

/-- Only a hyphen in front changes what a character adds to the depth. -/
theorem nesting_before (h : before ≠ '-') : nesting angles before c = nesting angles '\x00' c := by
  have hbefore : (before != '-') = ('\x00' != '-') := bne_iff_ne.mpr h
  rw [nesting, nesting, hbefore]

private theorem nesting_eq_zero (h : c ∉ listMarks) : nesting angles before c = 0 := by
  simp only [listMarks, List.mem_cons, not_or] at h
  simp [nesting, h]

/-- Other characters in front of a text do not matter. -/
theorem isPiece_append (hlead : ∀ c ∈ lead, c ∉ listMarks) (hbefore : before ≠ '-') :
    isPiece angles depth before (lead ++ text) = isPiece angles depth '\x00' text := by
  induction lead generalizing before with
  | nil =>
      cases text with
      | nil => rfl
      | cons c text => rw [List.nil_append, isPiece, isPiece, nesting_before hbefore]
  | cons c lead ih =>
      have hc := hlead c List.mem_cons_self
      have hne : c ≠ ',' ∧ c ≠ '-' := by
        constructor <;> rintro rfl <;> exact hc (by decide)
      rw [List.cons_append, isPiece, nesting_eq_zero hc, Int.add_zero,
        ih (fun d hd => hlead d (.tail c hd)) hne.2, beq_eq_false_iff_ne.mpr hne.1, Bool.false_and,
        Bool.not_false, Bool.true_and]

/-! ### Lists -/

private theorem IsElement.trim_cons {text : String} (h : IsElement angles text) :
    trim (' ' :: text.toList) = text.toList := by
  rw [trim_cons_of_isBlank rfl, h.trimmed]

private theorem IsElement.toList_ne_nil {text : String} (h : IsElement angles text) :
    text.toList ≠ [] := by
  intro hnil
  have hblank := h.notBlank
  rw [hnil] at hblank
  cases hblank

/-- Elements with a comma and a blank between any two are cut at these commas. -/
theorem cutAtCommas_intercalate {p : List Char} {ps : List (List Char)} {before : Char}
    (hbefore : before ≠ '-') (hlead : ∀ c ∈ lead, c ∉ listMarks)
    (h : ∀ q ∈ p :: ps, isPiece angles 0 '\x00' q = true) :
    cutAtCommas angles 0 before [] (lead ++ [',', ' '].intercalate (p :: ps)) =
      (lead ++ p) :: ps.map (' ' :: ·) := by
  -- behind the first comma each element has a blank in front of it and the comma before that
  induction ps generalizing p before lead with
  | nil =>
      rw [List.intercalate_singleton, cutAtCommas_piece]
      · rfl
      · rw [isPiece_append hlead hbefore]
        exact h p List.mem_cons_self
  | cons q qs ih =>
      have hpiece : isPiece angles 0 before (lead ++ p) = true := by
        rw [isPiece_append hlead hbefore]
        exact h p List.mem_cons_self
      have hrest : cutAtCommas angles 0 ',' [] ([' '] ++ [',', ' '].intercalate (q :: qs)) =
          ([' '] ++ q) :: qs.map (' ' :: ·) :=
        ih (by decide) (List.forall_mem_singleton.mpr (by decide)) fun q' hq' => h q' (.tail p hq')
      rw [List.intercalate_cons_cons, List.append_assoc, List.cons_append, ← List.append_assoc,
        cutAtCommas_piece_comma hpiece, hrest]
      rfl

/-- A list of elements is taken apart into these elements. -/
theorem splitTopLevel_intercalate {texts : List String} (h : ∀ t ∈ texts, IsElement angles t) :
    splitTopLevel angles (", ".intercalate texts) = texts := by
  cases texts with
  | nil => rfl
  | cons t ts =>
      have hcut : cutAtCommas angles 0 '\x00' [] (", ".intercalate (t :: ts)).toList =
          t.toList :: (ts.map String.toList).map (' ' :: ·) := by
        rw [String.toList_intercalate, List.map_cons]
        have hlead : ∀ c ∈ [], c ∉ listMarks := List.forall_mem_nil _
        refine cutAtCommas_intercalate (by decide) hlead ?_
        rw [← List.map_cons]
        exact List.forall_mem_map.mpr fun t' ht' => (h t' ht').piece
      have hblank : (", ".intercalate (t :: ts)).toList.all isBlank = false := by
        have ht := (h t List.mem_cons_self).notBlank
        rw [String.toList_intercalate, List.map_cons]
        cases ts with
        | nil => rwa [List.map_nil, List.intercalate_singleton]
        | cons t' ts =>
            rw [List.map_cons, List.intercalate_cons_cons, List.append_assoc, List.all_append, ht,
              Bool.false_and]
      have helements : ∀ t' ∈ ts, String.ofList (trim (' ' :: t'.toList)) = t' := by
        intro t' ht'
        rw [(h t' (.tail t ht')).trim_cons, String.ofList_toList]
      rw [splitTopLevel, hblank, hcut]
      simp only [Bool.false_eq_true, if_false, List.map_cons, List.map_map,
        (h t List.mem_cons_self).trimmed, String.ofList_toList, List.cons.injEq, true_and]
      exact (List.map_congr_left helements).trans (List.map_id' ts)

/-! ### Bindings -/

/-- The text of a binding. -/
def bindingText (b : Binding) : String := b.name ++ ": " ++ b.type

/-- There is a text that is read as the binding. -/
structure BindingSpellable (b : Binding) : Prop where
  name : isVariableName b.name.toList = true
  type : IsElement true b.type

private theorem toList_bindingText (b : Binding) :
    (bindingText b).toList = b.name.toList ++ ':' :: ' ' :: b.type.toList := by
  rw [bindingText, String.toList_append, String.toList_append, List.append_assoc]
  rfl

private theorem BindingSpellable.isNamePart_of_mem {b : Binding} (h : BindingSpellable b) {c : Char}
    (hc : c ∈ b.name.toList) : isNamePart c = true :=
  List.all_eq_true.mp (Bool.and_eq_true_iff.mp h.name).2 c hc

/-- A binding is read from its text. -/
theorem readBinding_bindingText {b : Binding} (h : BindingSpellable b) :
    readBinding (bindingText b) = .ok b := by
  have hname : ∀ c ∈ b.name.toList, isBlank c = false := fun c hc =>
    isBlank_of_isNamePart (h.isNamePart_of_mem hc)
  have htake : (bindingText b).toList.takeWhile (· != ':') = b.name.toList := by
    rw [toList_bindingText, List.takeWhile_append_of_pos]
    · exact List.append_nil _
    · intro c hc
      refine bne_iff_ne.mpr ?_
      rintro rfl
      cases h.isNamePart_of_mem hc
  have hdrop : (bindingText b).toList.drop b.name.toList.length = ':' :: ' ' :: b.type.toList := by
    rw [toList_bindingText, List.drop_left]
  have htrim : trim b.name.toList = b.name.toList :=
    trim_eq_self (fun c hc => hname c (List.mem_of_head? hc))
      fun c hc => hname c (List.mem_of_getLast? hc)
  have htype : b.type.toList.isEmpty = false := List.isEmpty_eq_false_iff.mpr h.type.toList_ne_nil
  rw [readBinding]
  dsimp only
  rw [htake, hdrop]
  dsimp only
  rw [htrim, h.name, h.type.trim_cons, htype]
  simp only [Bool.not_true, Bool.false_eq_true, if_false, String.ofList_toList]

/-- The text of a binding is an element of the list of arguments. -/
theorem BindingSpellable.isElement {b : Binding} (h : BindingSpellable b) :
    IsElement true (bindingText b) := by
  obtain ⟨hhead, -⟩ := Bool.and_eq_true_iff.mp h.name
  obtain ⟨c, rest, hchars⟩ : ∃ c rest, b.name.toList = c :: rest := by
    cases hchars : b.name.toList with
    | nil =>
        rw [hchars] at hhead
        cases hhead
    | cons c rest => exact ⟨c, rest, rfl⟩
  have hc : isBlank c = false := isBlank_of_isNamePart (h.isNamePart_of_mem (by
    rw [hchars]
    exact List.mem_cons_self))
  have htext : (bindingText b).toList = (b.name.toList ++ [':', ' ']) ++ b.type.toList := by
    rw [toList_bindingText, List.append_assoc]
    rfl
  refine ⟨?_, trim_eq_self ?_ ?_, ?_⟩
  · rw [toList_bindingText, hchars, List.cons_append, List.all_cons, hc, Bool.false_and]
  · rw [toList_bindingText, hchars]
    rintro d ⟨⟩
    exact hc
  · rw [htext, List.getLast?_append,
      Option.or_of_isSome (List.getLast?_isSome.mpr h.type.toList_ne_nil)]
    exact getLast?_of_trim_eq_self h.type.trimmed
  · have hcolon : ∀ d ∈ [':', ' '], d ∉ listMarks :=
      List.forall_mem_cons.mpr ⟨by decide, List.forall_mem_singleton.mpr (by decide)⟩
    have hlead : ∀ d ∈ b.name.toList ++ [':', ' '], d ∉ listMarks := by
      intro d hd
      rcases List.mem_append.mp hd with hd | hd
      · exact not_mem_of_isNamePart (by decide) (h.isNamePart_of_mem hd)
      · exact hcolon d hd
    rw [htext, isPiece_append hlead (by decide)]
    exact h.type.piece

end Descent.Description
