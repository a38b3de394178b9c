import Descent.Proofs.Artifact.FileNames

/-!
# Borders of words

The names of files are made from the names of types, where a word begins with a capital. So
the border behind a word is lost if the word is a single letter. A name made of words is the
first part of the names of its files if and only if no word but the last is a single letter,
and two such names have no file in common.
-/

namespace Descent.Artifact

open Descent.Text

variable {c : Char} {word text : List Char} {words words' : List (List Char)} {afterSmall : Bool}

/-! ### Words -/

/-- The text begins with a small letter and has small letters and digits only. -/
def IsWord (word : List Char) : Prop :=
  word.head?.any Char.isLower = true ∧ ∀ c ∈ word, c.isLower = true ∨ c.isDigit = true

instance : DecidablePred IsWord := fun word =>
  decidable_of_iff (word.head?.any Char.isLower && word.all fun c => c.isLower || c.isDigit)
    (by simp [IsWord])

/-- The name that is made of the words, with an underscore between any two. -/
def snakeName (words : List (List Char)) : String := String.ofList (['_'].intercalate words)

/-- The words with an underscore between any two, but none behind a word of a single letter. -/
def closeUp : List (List Char) → List Char
  | [] => []
  | [word] => word
  | word :: next :: words =>
    word ++ (if word.length = 1 then [] else ['_']) ++ closeUp (next :: words)

/-- No border between two words is lost. -/
def KeepsBorders (words : List (List Char)) : Prop := ∀ word ∈ words.dropLast, word.length ≠ 1

instance : DecidablePred KeepsBorders := fun words =>
  inferInstanceAs (Decidable (∀ word ∈ words.dropLast, word.length ≠ 1))

private theorem isUpper_of_small (h : c.isLower = true ∨ c.isDigit = true) : c.isUpper = false :=
  forall_isAlphanum (p := fun c => c.isLower = true ∨ c.isDigit = true → c.isUpper = false)
    (by decide) (isAlphanum_of_small h) h

/-- A word has no underscore. -/
theorem IsWord.not_mem_underscore (h : IsWord word) : '_' ∉ word :=
  fun hmem => ne_underscore_of_isAlphanum (isAlphanum_of_small (h.2 '_' hmem)) rfl

/-- Words joined by underscores are made of letters, digits and underscores. -/
theorem forall_mem_intercalate (h : ∀ word ∈ words, IsWord word) :
    ∀ c ∈ ['_'].intercalate words, c.isAlphanum = true ∨ c = '_' := by
  induction words with
  | nil => simp
  | cons word words ih =>
      obtain ⟨hword, hwords⟩ := List.forall_mem_cons.mp h
      have hsmall : ∀ c ∈ word, c.isAlphanum = true ∨ c = '_' :=
        fun c hc => .inl (isAlphanum_of_small (hword.2 c hc))
      cases words with
      | nil => rwa [List.intercalate_singleton]
      | cons next words =>
          rw [List.intercalate_cons_cons]
          intro c hc
          rcases List.mem_append.mp hc with hc | hc
          · rcases List.mem_append.mp hc with hc | hc
            · exact hsmall c hc
            · exact .inr (List.mem_singleton.mp hc)
          · exact ih hwords c hc

/-- A name made of words can be the name of a grammar. -/
theorem isIdentifier_intercalate (hne : words ≠ []) (h : ∀ word ∈ words, IsWord word) :
    IsIdentifier (['_'].intercalate words) := by
  have hall := forall_mem_intercalate h
  obtain ⟨word, words, rfl⟩ := List.exists_cons_of_ne_nil hne
  obtain ⟨hhead, -⟩ := h word List.mem_cons_self
  obtain ⟨tail, htail⟩ : ∃ tail, ['_'].intercalate (word :: words) = word ++ tail := by
    cases words with
    | nil => exact ⟨[], by simp⟩
    | cons next words => exact ⟨_, by rw [List.intercalate_cons_cons, List.append_assoc]⟩
  cases word with
  | nil => cases hhead
  | cons c word =>
      have hlower : c.isLower = true := hhead
      rw [htail] at hall ⊢
      exact ⟨c, word ++ tail, rfl, isAlpha_of_isLower hlower, (List.forall_mem_cons.mp hall).2⟩

/-! ### The form of files -/

/-- Behind a small letter or a digit, the others are left as they are. -/
theorem snakeFrom_true_append (h : ∀ c ∈ word, c.isLower = true ∨ c.isDigit = true) :
    snakeFrom true (word ++ text) = word ++ snakeFrom true text := by
  induction word with
  | nil => rfl
  | cons c word ih =>
      obtain ⟨hc, hword⟩ := List.forall_mem_cons.mp h
      have hupper : c.isUpper = false := isUpper_of_small hc
      rw [List.cons_append, snakeFrom_cons (isAlphanum_of_small hc), hupper, Bool.not_false,
        ih hword, Char.toLower_eq_of_not_isUpper (Bool.eq_false_iff.mp hupper)]
      rfl

/-- A word with a capital is parted from what stands in front of it, and what stands behind it is
parted from it unless it is a single letter. -/
theorem snakeFrom_capitalizeFirst_append (h : IsWord word) :
    snakeFrom afterSmall (capitalizeFirst word ++ text) =
      (if afterSmall then ['_'] else []) ++ word ++ snakeFrom (decide (word.length ≠ 1)) text := by
  obtain ⟨hhead, hall⟩ := h
  cases word with
  | nil => cases hhead
  | cons c rest =>
      obtain ⟨hc, hrest⟩ := List.forall_mem_cons.mp hall
      have hlower : c.isLower = true := hhead
      have hletter : c.isAlpha = true := isAlpha_of_isLower hlower
      have halnum : c.isAlphanum = true := isAlphanum_of_isAlpha hletter
      have hback : c.toUpper.toLower = c := by
        rw [Char.toLower_toUpper_eq_toLower,
          Char.toLower_eq_of_not_isUpper (Char.not_isUpper_of_isLower hlower)]
      rw [capitalizeFirst, (case_of_isAlphanum halnum).1, List.singleton_append, List.cons_append,
        snakeFrom_cons (isAlphanum_toUpper halnum), Char.isUpper_toUpper_eq_isAlpha, hletter, hback]
      -- the second character is left as it is, with or without a border in front of it
      cases rest with
      | nil => simp
      | cons d rest =>
          obtain ⟨hd, hrest⟩ := List.forall_mem_cons.mp hrest
          have hupper : d.isUpper = false := isUpper_of_small hd
          rw [List.cons_append, snakeFrom_cons (isAlphanum_of_small hd), hupper, Bool.not_false,
            snakeFrom_true_append hrest,
            Char.toLower_eq_of_not_isUpper (Bool.eq_false_iff.mp hupper)]
          simp

/-- Words with capitals are told from each other, except behind a single letter. -/
theorem snakeFrom_flatMap_capitalizeFirst (hne : words ≠ []) (h : ∀ word ∈ words, IsWord word) :
    snakeFrom afterSmall (words.flatMap capitalizeFirst) =
      (if afterSmall then ['_'] else []) ++ closeUp words := by
  induction words generalizing afterSmall with
  | nil => exact absurd rfl hne
  | cons word words ih =>
      obtain ⟨hword, hwords⟩ := List.forall_mem_cons.mp h
      rw [List.flatMap_cons, snakeFrom_capitalizeFirst_append hword]
      cases words with
      | nil => simp [closeUp, snakeFrom]
      | cons next words =>
          rw [ih (List.cons_ne_nil _ _) hwords, closeUp]
          by_cases hlength : word.length = 1 <;> simp [hlength]

/-- Words without the borders that are lost are no longer than the words with all borders. -/
theorem length_closeUp_le (words : List (List Char)) :
    (closeUp words).length ≤ (['_'].intercalate words).length := by
  fun_induction closeUp words with
  | case1 => simp
  | case2 => simp
  | case3 word next words ih =>
      rw [List.intercalate_cons_cons]
      simp only [List.length_append]
      split <;> simp <;> omega

/-- The words are put together as in their name just if no border is lost. -/
theorem closeUp_eq_iff : closeUp words = ['_'].intercalate words ↔ KeepsBorders words := by
  fun_induction closeUp words with
  | case1 => simp [KeepsBorders]
  | case2 => simp [KeepsBorders]
  | case3 word next words ih =>
      rw [List.intercalate_cons_cons, KeepsBorders, List.dropLast_cons_cons, List.forall_mem_cons]
      by_cases hlength : word.length = 1
      · have hle := length_closeUp_le (next :: words)
        refine iff_of_false (fun heq => ?_) (fun hkeeps => hkeeps.1 hlength)
        have heq := congrArg List.length heq
        simp [hlength] at heq
        omega
      · rw [if_neg hlength, List.append_cancel_left_eq, ih]
        exact (and_iff_right hlength).symm

/-! ### Files -/

/-- Two grammars have a file in common only if they have all in common. -/
theorem Names.disjoint_files_iff {n n' : Names} :
    n.files.Disjoint n'.files ↔ n.fileStem ≠ n'.fileStem := by
  rw [Names.files_eq, Names.files_eq]
  constructor
  · intro hdisjoint heq
    rw [heq] at hdisjoint
    exact hdisjoint (List.mem_map_of_mem List.mem_cons_self)
      (List.mem_map_of_mem List.mem_cons_self)
  · intro hne file hfile hfile'
    obtain ⟨ending, hending, rfl⟩ := List.mem_map.mp hfile
    obtain ⟨ending', hending', heq⟩ := List.mem_map.mp hfile'
    -- no ending of a file is the end of another
    have hendings : ∀ ending ∈ ["_tokens.rs", "_lexer.rs", "_parser.rs"],
        ∀ ending' ∈ ["_tokens.rs", "_lexer.rs", "_parser.rs"],
          ending.toList <:+ ending'.toList → ending = ending' := by
      decide
    have hlist : n'.fileStem.toList ++ ending'.toList = n.fileStem.toList ++ ending.toList := by
      simpa only [String.toList_append] using congrArg String.toList heq
    have hends : ending = ending' := by
      have hend : ending.toList <:+ n.fileStem.toList ++ ending.toList := List.suffix_append _ _
      have hend' : ending'.toList <:+ n.fileStem.toList ++ ending.toList :=
        hlist ▸ List.suffix_append _ _
      rcases List.suffix_or_suffix_of_suffix hend hend' with hsuffix | hsuffix
      · exact hendings ending hending ending' hending' hsuffix
      · exact (hendings ending' hending' ending hending hsuffix).symm
    rw [hends] at hlist
    exact hne (String.toList_inj.mp (List.append_cancel_right hlist)).symm

/-- The names of a grammar whose name is made of words. -/
theorem ofName?_snakeName (hne : words ≠ []) (h : ∀ word ∈ words, IsWord word) :
    ∃ n, Names.ofName? (snakeName words) = some n ∧ n.fileStem = String.ofList (closeUp words) := by
  have hname : IsIdentifier (snakeName words).toList := by
    rw [snakeName, String.toList_ofList]
    exact isIdentifier_intercalate hne h
  refine ⟨_, Names.ofName?_of_isIdentifier hname, ?_⟩
  rw [snakeName, String.toList_ofList, snakeCase,
    pascalCase_intercalate hne fun word hword => (h word hword).not_mem_underscore,
    snakeFrom_flatMap_capitalizeFirst hne h]
  rfl

/-- The modules and files of a grammar whose name is made of words are named for the words, with an
underscore between any two but none behind a single letter. So they are named for the name itself
just if no border is lost, and the files of two grammars are apart if their names are so and are not
the same. -/
theorem files_of_words (hne : words ≠ []) (h : ∀ word ∈ words, IsWord word)
    (hne' : words' ≠ []) (h' : ∀ word ∈ words', IsWord word) :
    ∃ n n', Names.ofName? (snakeName words) = some n ∧
      Names.ofName? (snakeName words') = some n' ∧
      [n.tokensModule, n.lexerModule, n.parserModule] =
        ["_tokens", "_lexer", "_parser"].map (String.ofList (closeUp words) ++ ·) ∧
      n.files = ["_tokens.rs", "_lexer.rs", "_parser.rs"].map (String.ofList (closeUp words) ++ ·) ∧
      (String.ofList (closeUp words) = snakeName words ↔ KeepsBorders words) ∧
      (n.files.Disjoint n'.files ↔ closeUp words ≠ closeUp words') ∧
      (KeepsBorders words → KeepsBorders words' → snakeName words ≠ snakeName words' →
        n.files.Disjoint n'.files) := by
  obtain ⟨n, hn, hstem⟩ := ofName?_snakeName hne h
  obtain ⟨n', hn', hstem'⟩ := ofName?_snakeName hne' h'
  have hdisjoint : n.files.Disjoint n'.files ↔ closeUp words ≠ closeUp words' := by
    rw [Names.disjoint_files_iff, hstem, hstem', Ne, String.ofList_inj]
  refine ⟨n, n', hn, hn', ?_, ?_, ?_, hdisjoint, fun hkeeps hkeeps' hnames => ?_⟩
  · rw [← hstem]
    rfl
  · rw [← hstem, Names.files_eq]
  · rw [snakeName, String.ofList_inj, closeUp_eq_iff]
  · rw [snakeName, snakeName, ← closeUp_eq_iff.mpr hkeeps, ← closeUp_eq_iff.mpr hkeeps'] at hnames
    exact hdisjoint.mpr fun heq => hnames (congrArg String.ofList heq)

/-- Digits and a single letter at the end are kept apart as well. -/
theorem files_of_words_digits :
    ∃ n n', Names.ofName? "my_t2_x" = some n ∧ Names.ofName? "my_t2x" = some n' ∧
      n.files = ["my_t2_x_tokens.rs", "my_t2_x_lexer.rs", "my_t2_x_parser.rs"] ∧
      n.files.Disjoint n'.files := by
  obtain ⟨n, n', hn, hn', -, hfiles, -, -, hdisjoint⟩ :=
    @files_of_words [['m', 'y'], ['t', '2'], ['x']] [['m', 'y'], ['t', '2', 'x']]
      (by decide) (by decide) (by decide) (by decide)
  exact ⟨n, n', hn, hn', hfiles, hdisjoint (by decide) (by decide) (by decide)⟩

/-- The border behind a single letter is lost: two grammars have all files in common. -/
theorem border_lost : (∀ word ∈ [['a'], ['b'], ['a', 'b']], IsWord word) ∧
    snakeName [['a'], ['b']] = "a_b" ∧ snakeName [['a', 'b']] = "ab" ∧
    (Names.ofName? "a_b").map Names.files = some ["ab_tokens.rs", "ab_lexer.rs", "ab_parser.rs"] ∧
    (Names.ofName? "ab").map Names.files =
      some ["ab_tokens.rs", "ab_lexer.rs", "ab_parser.rs"] := by
  decide

end Descent.Artifact
