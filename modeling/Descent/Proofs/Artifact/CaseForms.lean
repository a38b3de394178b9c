import Descent.Artifact.Names
import Descent.Proofs.Description.Spelling
import Mathlib

/-!
# Case forms of names

The form of types of an identifier is a capital followed by letters and digits, and it is left
as it is if it is put into this form once more. Its form of files is the same in small
letters, with single underscores and none at the end.
-/

namespace Descent.Artifact

open Descent.Text
open Descent.Description (isNamePart toNat_of_isNamePart)

variable {c : Char} {text : List Char} {afterSmall : Bool}

/-! ### Characters -/

private theorem isAsciiUpper_eq (c : Char) : isAsciiUpper c = c.isUpper := by
  rw [isAsciiUpper, Char.isUpper, ← Bool.decide_and]
  rfl

private theorem isAsciiLower_eq (c : Char) : isAsciiLower c = c.isLower := rfl

private theorem isAsciiDigit_eq (c : Char) : isAsciiDigit c = c.isDigit := rfl

/-- Names are made of letters, digits and underscores. -/
theorem isNamePart_iff : isNamePart c = true ↔ c.isAlphanum = true ∨ c = '_' := by
  simp only [isNamePart, isAsciiLower_eq, isAsciiUpper_eq, isAsciiDigit_eq, Char.isAlphanum,
    Char.isAlpha, Bool.or_eq_true, beq_iff_eq, or_comm (a := c.isUpper = true)]

/-- A fact about letters and digits holds if it holds of the first 128 characters. -/
theorem forall_isAlphanum {p : Char → Prop}
    (h : ∀ k < 128, (Char.ofNat k).isAlphanum = true → p (Char.ofNat k))
    (hc : c.isAlphanum = true) : p c := by
  have hlt : c.toNat < 128 := by
    have := toNat_of_isNamePart (isNamePart_iff.mpr (.inl hc))
    omega
  rw [← Char.ofNat_toNat c] at hc ⊢
  exact h c.toNat hlt hc

/-- The case of letters and digits is that of the Latin alphabet. -/
theorem case_of_isAlphanum (h : c.isAlphanum = true) :
    upperOf c = [c.toUpper] ∧ lowerOf c = [c.toLower] ∧ isUppercase c = c.isUpper ∧
      (isLowercase c || isAsciiDigit c) = !c.isUpper :=
  forall_isAlphanum (p := fun c => upperOf c = [c.toUpper] ∧ lowerOf c = [c.toLower] ∧
    isUppercase c = c.isUpper ∧ (isLowercase c || isAsciiDigit c) = !c.isUpper) (by decide) h

/-- Letters count among letters and digits. -/
theorem isAlphanum_of_isAlpha (h : c.isAlpha = true) : c.isAlphanum = true := by
  rw [Char.isAlphanum, h, Bool.true_or]

private theorem isAlpha_of_isUpper (h : c.isUpper = true) : c.isAlpha = true := by
  rw [Char.isAlpha, h, Bool.true_or]

/-- A small letter is a letter. -/
theorem isAlpha_of_isLower (h : c.isLower = true) : c.isAlpha = true := by
  rw [Char.isAlpha, h, Bool.or_true]

/-- Small letters and digits count among letters and digits. -/
theorem isAlphanum_of_small (h : c.isLower = true ∨ c.isDigit = true) : c.isAlphanum = true := by
  rcases h with hlower | hdigit
  · exact isAlphanum_of_isAlpha (isAlpha_of_isLower hlower)
  · rw [Char.isAlphanum, hdigit, Bool.or_true]

/-- A letter or digit stays one when it is made a capital. -/
theorem isAlphanum_toUpper (h : c.isAlphanum = true) : c.toUpper.isAlphanum = true :=
  forall_isAlphanum (p := fun c => c.toUpper.isAlphanum = true) (by decide) h

/-- The small form of a letter or a digit is a small letter or a digit. -/
theorem isLower_or_isDigit_toLower (h : c.isAlphanum = true) :
    c.toLower.isLower = true ∨ c.toLower.isDigit = true :=
  forall_isAlphanum (p := fun c => c.toLower.isLower = true ∨ c.toLower.isDigit = true)
    (by decide) h

/-- No letter or digit is an underscore. -/
theorem ne_underscore_of_isAlphanum (h : c.isAlphanum = true) : c ≠ '_' := by
  rintro rfl
  cases h

private theorem toLower_ne_underscore (h : c.isAlphanum = true) : c.toLower ≠ '_' :=
  forall_isAlphanum (p := fun c => c.toLower ≠ '_') (by decide) h

/-! ### The form of files -/

/-- One character: a capital behind a small letter or a digit begins a word. -/
theorem snakeFrom_cons (h : c.isAlphanum = true) :
    snakeFrom afterSmall (c :: text) =
      (if c.isUpper && afterSmall then ['_'] else []) ++
        c.toLower :: snakeFrom (!c.isUpper) text := by
  obtain ⟨-, hlower, hupper, hsmall⟩ := case_of_isAlphanum h
  rw [snakeFrom, hupper, hlower, hsmall]
  cases hc : c.isUpper with
  | false => simp [Char.toLower_eq_of_not_isUpper (Bool.eq_false_iff.mp hc)]
  | true => simp

section

variable (h : ∀ c ∈ text, c.isAlphanum = true)

include h

/-- Without its underscores, the form of files is the text in small letters. -/
theorem filter_snakeFrom :
    (snakeFrom afterSmall text).filter (· != '_') = text.map Char.toLower := by
  induction text generalizing afterSmall with
  | nil => rfl
  | cons c text ih =>
      obtain ⟨hc, htext⟩ := List.forall_mem_cons.mp h
      have hne : (c.toLower != '_') = true := bne_iff_ne.mpr (toLower_ne_underscore hc)
      rw [snakeFrom_cons hc, List.filter_append, List.filter_cons, if_pos hne, ih htext,
        List.map_cons]
      split <;> rfl

/-- The form of files is made of small letters, digits and underscores. -/
theorem mem_snakeFrom {d : Char} (hd : d ∈ snakeFrom afterSmall text) :
    d.isLower = true ∨ d.isDigit = true ∨ d = '_' := by
  by_cases hunderscore : d = '_'
  · exact .inr (.inr hunderscore)
  · have hmem : d ∈ text.map Char.toLower := by
      rw [← filter_snakeFrom h]
      exact List.mem_filter.mpr ⟨hd, by simpa using hunderscore⟩
    obtain ⟨c, hc, rfl⟩ := List.mem_map.mp hmem
    exact or_assoc.mp (.inl (isLower_or_isDigit_toLower (h c hc)))

/-- No two underscores stand side by side. -/
theorem not_infix_snakeFrom : ¬ ['_', '_'] <:+: snakeFrom afterSmall text := by
  induction text generalizing afterSmall with
  | nil => simp [snakeFrom]
  | cons c text ih =>
      obtain ⟨hc, htext⟩ := List.forall_mem_cons.mp h
      have hne := toLower_ne_underscore hc
      have hletter : ¬ ['_', '_'] <:+: c.toLower :: snakeFrom (!c.isUpper) text := by
        rw [List.infix_cons_iff, List.cons_prefix_cons]
        rintro (⟨heq, -⟩ | hinfix)
        · exact hne heq.symm
        · exact ih htext hinfix
      rw [snakeFrom_cons hc]
      split
      next =>
        rw [List.singleton_append, List.infix_cons_iff, List.cons_prefix_cons,
          List.cons_prefix_cons]
        rintro (⟨-, heq, -⟩ | hinfix)
        · exact hne heq.symm
        · exact hletter hinfix
      next => exact hletter

/-- No underscore stands at the end. -/
theorem getLast?_snakeFrom : (snakeFrom afterSmall text).getLast? ≠ some '_' := by
  induction text generalizing afterSmall with
  | nil => simp [snakeFrom]
  | cons c text ih =>
      obtain ⟨hc, htext⟩ := List.forall_mem_cons.mp h
      have hlast : (snakeFrom (!c.isUpper) text).getLast? ≠ some '_' := ih htext
      rw [snakeFrom_cons hc, List.getLast?_append, List.getLast?_cons]
      cases heq : (snakeFrom (!c.isUpper) text).getLast? with
      | none => simpa using toLower_ne_underscore hc
      | some d => simpa [heq] using hlast

end

/-! ### The form of types -/

/-- The pieces between underscores are those of the library's `splitOn`. -/
theorem splitUnderscores_eq (text : List Char) : splitUnderscores text = text.splitOn '_' := by
  induction text with
  | nil => rfl
  | cons c text ih =>
      rw [splitUnderscores, List.splitOn_cons_eq_if_modifyHead, ← ih]
      have hne : splitUnderscores text ≠ [] := by
        rw [ih]
        exact List.splitOn_ne_nil _ _
      cases hsplit : splitUnderscores text with
      | nil => exact absurd hsplit hne
      | cons piece pieces => rfl

/-- Words with underscores between them are put together, each with a capital. -/
theorem pascalCase_intercalate {words : List (List Char)} (hne : words ≠ [])
    (h : ∀ word ∈ words, '_' ∉ word) :
    pascalCase (['_'].intercalate words) = words.flatMap capitalizeFirst := by
  rw [pascalCase, splitUnderscores_eq, List.splitOn_intercalate '_' h hne]

/-- The pieces of a name between its underscores are made of letters and digits. -/
theorem isAlphanum_of_mem_splitUnderscores (h : ∀ d ∈ text, isNamePart d = true) {piece : List Char}
    (hpiece : piece ∈ splitUnderscores text) : ∀ d ∈ piece, d.isAlphanum = true := by
  induction text generalizing piece with
  | nil =>
      obtain rfl : piece = [] := List.mem_singleton.mp hpiece
      exact List.forall_mem_nil _
  | cons c text ih =>
      obtain ⟨hc, htext⟩ := List.forall_mem_cons.mp h
      rw [splitUnderscores_eq, List.splitOn_cons_eq_if_modifyHead, ← splitUnderscores_eq] at hpiece
      split at hpiece
      next =>
        rcases List.mem_cons.mp hpiece with rfl | hmem
        · exact List.forall_mem_nil _
        · exact ih htext hmem
      next hne =>
        have hc : c.isAlphanum = true := (isNamePart_iff.mp hc).resolve_right (by simpa using hne)
        cases hsplit : splitUnderscores text with
        | nil =>
            rw [hsplit] at hpiece
            cases hpiece
        | cons first pieces =>
            rw [hsplit] at hpiece ih
            rcases List.mem_cons.mp hpiece with rfl | hmem
            · exact List.forall_mem_cons.mpr ⟨hc, ih htext List.mem_cons_self⟩
            · exact ih htext (.tail first hmem)

/-- The form of types of a name is made of letters and digits. -/
theorem isAlphanum_of_mem_pascalCase (h : ∀ d ∈ text, isNamePart d = true) :
    ∀ d ∈ pascalCase text, d.isAlphanum = true := by
  intro d hd
  obtain ⟨piece, hpiece, hd⟩ := List.mem_flatMap.mp hd
  have hall := isAlphanum_of_mem_splitUnderscores h hpiece
  cases piece with
  | nil => cases hd
  | cons c rest =>
      obtain ⟨hc, hrest⟩ := List.forall_mem_cons.mp hall
      rw [capitalizeFirst, (case_of_isAlphanum hc).1] at hd
      rcases List.mem_cons.mp hd with rfl | hmem
      · exact isAlphanum_toUpper hc
      · exact hrest d hmem

/-- The form of types begins with the first character as a capital, unless that is an underscore. -/
theorem exists_pascalCase_cons (hne : c ≠ '_') (rest : List Char) :
    ∃ tail, pascalCase (c :: rest) = upperOf c ++ tail := by
  rw [pascalCase, splitUnderscores_eq, List.splitOn_cons_eq_if_modifyHead,
    if_neg (by simpa using hne)]
  cases hsplit : rest.splitOn '_' with
  | nil => exact absurd hsplit (List.splitOn_ne_nil _ _)
  | cons piece pieces =>
      rw [List.modifyHead_cons, List.flatMap_cons, capitalizeFirst, List.append_assoc]
      exact ⟨_, rfl⟩

/-! ### Shapes -/

/-- The text is a letter followed by letters, digits and underscores. -/
def IsIdentifier (text : List Char) : Prop :=
  ∃ c rest, text = c :: rest ∧ c.isAlpha = true ∧ ∀ d ∈ rest, d.isAlphanum = true ∨ d = '_'

/-- The text is a capital followed by letters and digits. -/
def IsTypeStem (text : List Char) : Prop :=
  ∃ c rest, text = c :: rest ∧ c.isUpper = true ∧ ∀ d ∈ rest, d.isAlphanum = true

/-- The text is a small letter followed by small letters, digits and single underscores, and does
not end with an underscore. -/
structure IsFileStem (text : List Char) : Prop where
  head : ∃ c rest, text = c :: rest ∧ c.isLower = true
  characters : ∀ d ∈ text, d.isLower = true ∨ d.isDigit = true ∨ d = '_'
  single : ¬ ['_', '_'] <:+: text
  last : text.getLast? ≠ some '_'

/-- The names of grammars are the identifiers. -/
theorem isGrammarName_iff : isGrammarName text = true ↔ IsIdentifier text := by
  cases text with
  | nil => simp [isGrammarName, IsIdentifier]
  | cons c rest =>
      have hc : (isAsciiLower c || isAsciiUpper c) = c.isAlpha := by
        rw [isAsciiLower_eq, isAsciiUpper_eq, Char.isAlpha, Bool.or_comm]
      have hrest : isGrammarName (c :: rest) = (c.isAlpha && rest.all isNamePart) := by
        rw [← hc]
        rfl
      simp [hrest, IsIdentifier, isNamePart_iff]

/-- An identifier is made of characters of names. -/
theorem IsIdentifier.isNamePart (h : IsIdentifier text) : ∀ d ∈ text, isNamePart d = true := by
  obtain ⟨c, rest, rfl, hc, hrest⟩ := h
  exact List.forall_mem_cons.mpr ⟨isNamePart_iff.mpr (.inl (isAlphanum_of_isAlpha hc)),
    fun d hd => isNamePart_iff.mpr (hrest d hd)⟩

/-- A stem of files is made of characters of names. -/
theorem IsFileStem.isNamePart (h : IsFileStem text) : ∀ d ∈ text, isNamePart d = true := by
  intro d hd
  rw [isNamePart_iff]
  exact (or_assoc.mpr (h.characters d hd)).imp isAlphanum_of_small id

/-- A stem of types is made of letters and digits. -/
theorem IsTypeStem.isAlphanum (h : IsTypeStem text) : ∀ d ∈ text, d.isAlphanum = true := by
  obtain ⟨c, rest, rfl, hc, hrest⟩ := h
  exact List.forall_mem_cons.mpr ⟨isAlphanum_of_isAlpha (isAlpha_of_isUpper hc), hrest⟩

/-- A stem of types is an identifier. -/
theorem IsTypeStem.isIdentifier (h : IsTypeStem text) : IsIdentifier text := by
  obtain ⟨c, rest, rfl, hc, hrest⟩ := h
  exact ⟨c, rest, rfl, isAlpha_of_isUpper hc, fun d hd => .inl (hrest d hd)⟩

/-- The form of types of an identifier is a stem of types. -/
theorem isTypeStem_pascalCase (h : IsIdentifier text) : IsTypeStem (pascalCase text) := by
  have hall := isAlphanum_of_mem_pascalCase h.isNamePart
  obtain ⟨c, rest, rfl, hc, -⟩ := h
  have halnum : c.isAlphanum = true := isAlphanum_of_isAlpha hc
  obtain ⟨tail, htail⟩ := exists_pascalCase_cons (ne_underscore_of_isAlphanum halnum) rest
  rw [(case_of_isAlphanum halnum).1, List.singleton_append] at htail
  rw [htail] at hall ⊢
  exact ⟨c.toUpper, tail, rfl, by rwa [Char.isUpper_toUpper_eq_isAlpha],
    (List.forall_mem_cons.mp hall).2⟩

/-- A text in the form of types is left as it is. -/
theorem IsTypeStem.pascalCase_eq (h : IsTypeStem text) : pascalCase text = text := by
  have hnot : '_' ∉ text := fun hmem => ne_underscore_of_isAlphanum (h.isAlphanum _ hmem) rfl
  have hword : pascalCase (['_'].intercalate [text]) = [text].flatMap capitalizeFirst :=
    pascalCase_intercalate (List.cons_ne_nil text []) (List.forall_mem_singleton.mpr hnot)
  rw [List.intercalate_singleton, List.flatMap_singleton] at hword
  obtain ⟨c, rest, rfl, hc, -⟩ := h
  have hupper : upperOf c = [c] := by
    rw [(case_of_isAlphanum (isAlphanum_of_isAlpha (isAlpha_of_isUpper hc))).1,
      Char.toUpper_eq_of_not_isLower (Char.not_isLower_of_isUpper hc)]
  rw [hword, capitalizeFirst, hupper, List.singleton_append]

/-- The form of files of a stem of types is a stem of files. -/
theorem IsTypeStem.isFileStem (h : IsTypeStem text) : IsFileStem (snakeCase text) := by
  have hall := h.isAlphanum
  refine ⟨?_, fun d hd => mem_snakeFrom hall hd, not_infix_snakeFrom hall, getLast?_snakeFrom hall⟩
  obtain ⟨c, rest, rfl, hc, -⟩ := h
  have hfirst : snakeCase (c :: rest) = c.toLower :: snakeFrom false rest := by
    rw [snakeCase, snakeFrom_cons (hall c List.mem_cons_self), hc]
    rfl
  exact ⟨c.toLower, _, hfirst, by rw [Char.isLower_toLower_eq_isAlpha, isAlpha_of_isUpper hc]⟩

end Descent.Artifact
