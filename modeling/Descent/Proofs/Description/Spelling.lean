import Descent.Description.Lexer
import Descent.Description.Arguments
import Mathlib.Data.List.TakeWhile

/-!
# The spelling of words

Each word is spelled as a text, if its name, its pattern or its block allows that. A text
that spells a series of words, with any layout between them, is split into these words.
-/

namespace Descent.Description

open Descent.Text

variable {name text rest : List Char} {words : List Lexeme} {c : Char}

/-! ### Names -/

/-- The character may begin a name. -/
def isNameHead (c : Char) : Bool := isAsciiLower c || isAsciiUpper c || c == '_'

/-- The text is the name of a token, a rule or a variable, or a keyword. -/
def isName (name : List Char) : Bool := name.head?.any isNameHead && name.all isNamePart

/-- The text is the name of a token. -/
def isTokenName (name : List Char) : Bool := name.head?.any isAsciiUpper && name.all isNamePart

/-- The text is the name of a variable and no keyword. -/
def isFreeName (name : String) : Bool :=
  isVariableName name.toList && Keyword.all.all fun k => k.spelling != name

private theorem isAsciiUpper_iff : isAsciiUpper c = true ↔ 65 ≤ c.toNat ∧ c.toNat ≤ 90 := by
  rw [isAsciiUpper, Bool.and_eq_true, decide_eq_true_iff, decide_eq_true_iff, Char.le_def,
    Char.le_def, UInt32.le_iff_toNat_le, UInt32.le_iff_toNat_le]
  rfl

private theorem isAsciiLower_iff : isAsciiLower c = true ↔ 97 ≤ c.toNat ∧ c.toNat ≤ 122 := by
  rw [isAsciiLower, Bool.and_eq_true, decide_eq_true_iff, decide_eq_true_iff, Char.le_def,
    Char.le_def, UInt32.le_iff_toNat_le, UInt32.le_iff_toNat_le]
  rfl

private theorem isAsciiDigit_iff : isAsciiDigit c = true ↔ 48 ≤ c.toNat ∧ c.toNat ≤ 57 := by
  rw [isAsciiDigit, Bool.and_eq_true, decide_eq_true_iff, decide_eq_true_iff, Char.le_def,
    Char.le_def, UInt32.le_iff_toNat_le, UInt32.le_iff_toNat_le]
  rfl

/-- The code of a character of a name lies between those of `0` and `z`. -/
theorem toNat_of_isNamePart (h : isNamePart c = true) : 48 ≤ c.toNat ∧ c.toNat ≤ 122 := by
  simp only [isNamePart, Bool.or_eq_true, isAsciiLower_iff, isAsciiUpper_iff, isAsciiDigit_iff,
    beq_iff_eq] at h
  rcases h with ((h | h) | h) | rfl
  · omega
  · omega
  · omega
  · decide

/-- A name of a token or of a variable is a name. -/
theorem isName_of_head {p : Char → Bool} (hp : ∀ c, p c = true → isNameHead c = true)
    (hhead : name.head?.any p = true) (hall : name.all isNamePart = true) : isName name = true := by
  rw [isName, Bool.and_eq_true]
  refine ⟨?_, hall⟩
  cases name with
  | nil => exact hhead
  | cons c rest => exact hp c hhead

private theorem isName_of_isTokenName (h : isTokenName name = true) : isName name = true := by
  obtain ⟨hhead, hall⟩ := Bool.and_eq_true_iff.mp h
  refine isName_of_head (fun c hc => ?_) hhead hall
  rw [isNameHead, hc, Bool.or_true, Bool.true_or]

private theorem isName_of_isVariableName (h : isVariableName name = true) : isName name = true := by
  obtain ⟨hhead, hall⟩ := Bool.and_eq_true_iff.mp h
  refine isName_of_head (fun c hc => ?_) hhead hall
  rw [isNameHead, Bool.or_right_comm, hc, Bool.true_or]

/-- A name is taken as a whole if no more characters of a name follow. -/
theorem frontLexeme?_name (h : isName name = true) (hrest : rest.head?.any isNamePart = false) :
    frontLexeme? (name ++ rest) = some (some (ofName name), name.length) := by
  obtain ⟨hhead, hall⟩ := Bool.and_eq_true_iff.mp h
  cases name with
  | nil => cases hhead
  | cons c name =>
      have hne : ∀ d, isNameHead d = false → (c == d) = false := by
        intro d hd
        rw [beq_eq_false_iff_ne]
        rintro rfl
        exact Bool.false_ne_true (hd.symm.trans hhead)
      have hlayout : isLayout c = false := by
        simp only [isLayout, hne ' ' rfl, hne '\t' rfl, hne '\r' rfl, hne '\n' rfl, hne '\x0c' rfl,
          Bool.or_false]
      have hbegin : (isAsciiLower c || isAsciiUpper c || c == '_') = true := hhead
      have hstop : rest.takeWhile isNamePart = [] := by
        cases rest with
        | nil => rfl
        | cons d rest => exact List.takeWhile_cons_of_neg (Bool.eq_false_iff.mp hrest)
      have htake : (name ++ rest).takeWhile isNamePart = name := by
        rw [List.takeWhile_append_of_pos fun d hd => List.all_eq_true.mp hall d (.tail c hd), hstop,
          List.append_nil]
      rw [List.cons_append, frontLexeme?]
      simp only [hlayout, hne '-' rfl, hne '"' rfl, hne '\x7b' rfl, hne '[' rfl, hbegin, htake,
        Bool.false_eq_true, if_false, if_true, List.length_cons]

/-- What is spelled like no keyword is none. -/
theorem find?_keyword_eq_none {name : String} (h : ∀ k : Keyword, k.spelling ≠ name) :
    (Keyword.all.find? fun k => k.spelling == name) = none :=
  List.find?_eq_none.mpr fun k _ hk => h k (beq_iff_eq.mp hk)

private theorem ofName_keyword (k : Keyword) : ofName k.spelling.toList = .keyword k := by
  cases k <;> rfl

private theorem ofName_upper {name : String} (h : isTokenName name.toList = true) :
    ofName name.toList = .upper name := by
  -- no keyword begins with a capital letter
  have hnot : ∀ k : Keyword, k.spelling ≠ name := by
    rintro k rfl
    cases k <;> cases h
  obtain ⟨hhead, -⟩ := Bool.and_eq_true_iff.mp h
  simp only [ofName, String.ofList_toList, find?_keyword_eq_none hnot, hhead, if_true]

private theorem ofName_lower {name : String} (h : isFreeName name = true) :
    ofName name.toList = .lower name := by
  obtain ⟨hvariable, hkeyword⟩ := Bool.and_eq_true_iff.mp h
  have hnot : ∀ k : Keyword, k.spelling ≠ name := by
    intro k
    exact bne_iff_ne.mp (List.all_eq_true.mp hkeyword k (by cases k <;> decide))
  obtain ⟨hhead, -⟩ := Bool.and_eq_true_iff.mp hvariable
  have hupper : name.toList.head?.any isAsciiUpper = false := by
    rcases hchars : name.toList with _ | ⟨c, rest⟩
    · rfl
    · rw [hchars] at hhead
      rw [List.head?_cons, Option.any_some, Bool.eq_false_iff, ne_eq, isAsciiUpper_iff]
      rcases Bool.or_eq_true_iff.mp hhead with hlower | hunderscore
      · rw [isAsciiLower_iff] at hlower
        omega
      · obtain rfl := beq_iff_eq.mp hunderscore
        decide
  simp only [ofName, String.ofList_toList, find?_keyword_eq_none hnot, hupper, Bool.false_eq_true,
    if_false]

/-! ### Patterns and blocks -/

/-- Behind each backslash, taken together with it, is a character that is neither a quote nor a
newline. -/
def isPaired : List Char → Bool
  | [] => true
  | ['\\'] => false
  | '\\' :: c :: rest => c != '"' && c != '\n' && isPaired rest
  | _ :: rest => isPaired rest

/-- A backslash before each quote. -/
def escapeQuotes : List Char → List Char
  | [] => []
  | c :: rest => if c == '"' then '\\' :: '"' :: escapeQuotes rest else c :: escapeQuotes rest

/-- The pattern in quotes is read as the pattern. -/
theorem patternBody?_escapeQuotes (h : isPaired text = true) :
    patternBody? (escapeQuotes text ++ '"' :: rest) =
      some (text, (escapeQuotes text).length + 1) := by
  -- the pairs of a backslash and a character are the same in the pattern and in its quotes
  fun_induction isPaired text with
  | case1 => rfl
  | case2 => cases h
  | case3 c tail ih =>
      simp only [Bool.and_eq_true, bne_iff_ne, ne_eq] at h
      obtain ⟨⟨hquote, hline⟩, htail⟩ := h
      have hescape : escapeQuotes ('\\' :: c :: tail) = '\\' :: c :: escapeQuotes tail := by
        simp only [escapeQuotes, beq_iff_eq, hquote, if_false]
        rfl
      rw [hescape, List.cons_append, List.cons_append, patternBody?, ih htail]
      · simp [hline]
      · exact hquote
  | case4 c tail hsingle hpair ih =>
      by_cases hquote : c = '"'
      · subst hquote
        have hescape : escapeQuotes ('"' :: tail) = '\\' :: '"' :: escapeQuotes tail := rfl
        rw [hescape, List.cons_append, List.cons_append, patternBody?, ih h]
        rfl
      · have hback : c ≠ '\\' := by
          rintro rfl
          cases tail with
          | nil => exact hsingle rfl rfl
          | cons d rest => exact hpair d rest rfl rfl
        have hescape : escapeQuotes (c :: tail) = c :: escapeQuotes tail := by
          simp only [escapeQuotes, beq_iff_eq, hquote, if_false]
        rw [hescape, List.cons_append, patternBody?, ih h]
        · rfl
        all_goals simp_all

/-- The text behind an opening delimiter makes a block that ends just behind the text, whatever text
follows. -/
def Closes (opening closing : Char) (text : String) : Prop :=
  ∀ rest, blockLength? opening closing (text.toList ++ closing :: rest) = some text.toList.length

/-! ### Words -/

namespace Lexeme

/-- The word as it is spelled. -/
def spelling : Lexeme → List Char
  | keyword k => k.spelling.toList
  | upper name => name.toList
  | lower name => name.toList
  | pattern text => '"' :: (escapeQuotes text.toList ++ ['"'])
  | code text => '\x7b' :: (text.toList ++ ['\x7d'])
  | bracket text => '[' :: (text.toList ++ [']'])
  | punctuation p => [p.character]

/-- There is a text that spells the word. -/
def Spellable : Lexeme → Prop
  | upper name => isTokenName name.toList = true
  | lower name => isFreeName name = true
  | pattern text => isPaired text.toList = true
  | code text => Closes '\x7b' '\x7d' text
  | bracket text => Closes '[' ']' text
  | keyword _ | punctuation _ => True

/-- The word is spelled as a name. -/
def isNamed : Lexeme → Bool
  | keyword _ | upper _ | lower _ => true
  | _ => false

end Lexeme

/-- A block is taken up to its end. -/
theorem take_block {text : String} {closing : Char} :
    String.ofList ((text.toList ++ closing :: rest).take text.toList.length) = text := by
  rw [List.take_left, String.ofList_toList]

/-- The word is spelled in front of the text: a name ends there, and a block is closed where its
spelling ends. -/
def Lexeme.StandsBefore (rest : List Char) : Lexeme → Prop
  | keyword _ => rest.head?.any isNamePart = false
  | upper name => isTokenName name.toList = true ∧ rest.head?.any isNamePart = false
  | lower name => isFreeName name = true ∧ rest.head?.any isNamePart = false
  | pattern text => isPaired text.toList = true
  | code text =>
      blockLength? '\x7b' '\x7d' (text.toList ++ '\x7d' :: rest) = some text.toList.length
  | bracket text => blockLength? '[' ']' (text.toList ++ ']' :: rest) = some text.toList.length
  | punctuation _ => True

/-- A word is read from its spelling in front of a text. -/
theorem frontLexeme?_of_standsBefore {l : Lexeme} (h : l.StandsBefore rest) :
    frontLexeme? (l.spelling ++ rest) = some (some l, l.spelling.length) := by
  cases l with
  | keyword k =>
      have hname : isName k.spelling.toList = true := by cases k <;> decide
      rw [Lexeme.spelling, frontLexeme?_name hname h, ofName_keyword]
  | upper name =>
      rw [Lexeme.spelling, frontLexeme?_name (isName_of_isTokenName h.1) h.2, ofName_upper h.1]
  | lower name =>
      obtain ⟨hvariable, -⟩ := Bool.and_eq_true_iff.mp h.1
      rw [Lexeme.spelling, frontLexeme?_name (isName_of_isVariableName hvariable) h.2,
        ofName_lower h.1]
  | pattern text =>
      have hfront : frontLexeme? ('"' :: (escapeQuotes text.toList ++ '"' :: rest)) =
          (patternBody? (escapeQuotes text.toList ++ '"' :: rest)).map fun x =>
            (some (.pattern (String.ofList x.1)), x.2 + 1) := rfl
      rw [Lexeme.spelling, List.cons_append, List.append_assoc, List.singleton_append, hfront,
        patternBody?_escapeQuotes h, Option.map_some, String.ofList_toList, List.length_cons,
        List.length_append, List.length_singleton]
  | code text =>
      have hfront : frontLexeme? ('\x7b' :: (text.toList ++ '\x7d' :: rest)) =
          (blockLength? '\x7b' '\x7d' (text.toList ++ '\x7d' :: rest)).map fun n =>
            (some (.code (String.ofList ((text.toList ++ '\x7d' :: rest).take n))), n + 2) := rfl
      rw [Lexeme.spelling, List.cons_append, List.append_assoc, List.singleton_append, hfront,
        show blockLength? '\x7b' '\x7d' _ = _ from h, Option.map_some, take_block,
        List.length_cons, List.length_append, List.length_singleton]
  | bracket text =>
      have hfront : frontLexeme? ('[' :: (text.toList ++ ']' :: rest)) =
          (blockLength? '[' ']' (text.toList ++ ']' :: rest)).map fun n =>
            (some (.bracket (String.ofList ((text.toList ++ ']' :: rest).take n))), n + 2) := rfl
      rw [Lexeme.spelling, List.cons_append, List.append_assoc, List.singleton_append, hfront,
        show blockLength? '[' ']' _ = _ from h, Option.map_some, take_block, List.length_cons,
        List.length_append, List.length_singleton]
  | punctuation p => cases p <;> rfl

/-- A word with a spelling stands in front of any text with which a name does not go on. -/
theorem Lexeme.Spellable.standsBefore {l : Lexeme} (h : l.Spellable)
    (hrest : l.isNamed = true → rest.head?.any isNamePart = false) : l.StandsBefore rest := by
  cases l with
  | keyword k => exact hrest rfl
  | upper name => exact ⟨h, hrest rfl⟩
  | lower name => exact ⟨h, hrest rfl⟩
  | pattern text => exact h
  | code text => exact h rest
  | bracket text => exact h rest
  | punctuation p => trivial

/-! ### Texts -/

/-- The text spells the words, with white space and comments between them. A word that is spelled as
a name ends where no more characters of a name follow. -/
inductive Spells : List Lexeme → List Char → Prop where
  | nil : Spells [] []
  | blank {words : List Lexeme} {text : List Char} {c : Char} (hc : isLayout c = true)
      (h : Spells words text) : Spells words (c :: text)
  | comment {words : List Lexeme} {text : List Char} (comment : List Char) (hc : '\n' ∉ comment)
      (h : Spells words ('\n' :: text)) :
      Spells words ('-' :: '-' :: (comment ++ '\n' :: text))
  | word {words : List Lexeme} {text : List Char} {l : Lexeme} (hl : l.Spellable)
      (hend : l.isNamed = true → text.head?.any isNamePart = false) (h : Spells words text) :
      Spells (l :: words) (l.spelling ++ text)

/-- The text is split into the words, whatever its offset. -/
def SplitsInto (text : List Char) (words : List Lexeme) : Prop :=
  ∀ fuel offset, text.length ≤ fuel →
    ∃ placed, splitFrom fuel offset text = .ok placed ∧ placed.map (·.lexeme) = words

/-- A step of the split takes what stands at the front of the text. -/
theorem SplitsInto.front {front : Option Lexeme} {n : Nat}
    (hfront : frontLexeme? text = some (front, n)) (hpos : 0 < n)
    (h : SplitsInto (text.drop n) words) : SplitsInto text (front.toList ++ words) := by
  intro fuel offset hfuel
  cases text with
  | nil => cases hfront
  | cons c text =>
      rcases fuel with _ | fuel
      · cases hfuel
      have hlength : ((c :: text).drop n).length ≤ fuel := by
        rw [List.length_drop]
        omega
      obtain ⟨placed, hplaced, hwords⟩ :=
        h fuel (offset + byteLength ((c :: text).take n)) hlength
      rw [splitFrom, hfront]
      dsimp only
      rw [hplaced]
      cases front with
      | none => exact ⟨placed, rfl, hwords⟩
      | some l => exact ⟨_, rfl, by rw [List.map_cons, hwords]; rfl⟩

/-- A word is spelled with at least one character. -/
theorem Lexeme.StandsBefore.length_pos {l : Lexeme} (h : l.StandsBefore rest) :
    0 < l.spelling.length := by
  have hname : ∀ {name : List Char}, isName name = true → 0 < name.length := by
    rintro (_ | ⟨c, name⟩) hname
    · cases hname
    · exact Nat.succ_pos _
  cases l with
  | keyword k => cases k <;> decide
  | upper name => exact hname (isName_of_isTokenName h.1)
  | lower name => exact hname (isName_of_isVariableName (Bool.and_eq_true_iff.mp h.1).1)
  | pattern text => exact Nat.succ_pos _
  | code text => exact Nat.succ_pos _
  | bracket text => exact Nat.succ_pos _
  | punctuation p => exact Nat.succ_pos _

/-- A character of white space in front of a text is no word. -/
theorem frontLexeme?_blank (hc : isLayout c = true) :
    frontLexeme? (c :: text) = some (none, 1) := by
  rw [frontLexeme?, if_pos hc]

/-- A comment is taken up to the end of its line. -/
theorem frontLexeme?_comment {comment : List Char} (hc : '\n' ∉ comment)
    (hline : ∀ c ∈ text.head?, c = '\n') :
    frontLexeme? ('-' :: '-' :: (comment ++ text)) = some (none, comment.length + 2) := by
  have hstop : text.takeWhile (· != '\n') = [] := by
    cases text with
    | nil => rfl
    | cons c text => simp [hline c rfl]
  have htake : (comment ++ text).takeWhile (· != '\n') = comment := by
    rw [List.takeWhile_append_of_pos, hstop, List.append_nil]
    intro d hd
    exact bne_iff_ne.mpr fun heq => hc (heq ▸ hd)
  have hrun : frontLexeme? ('-' :: '-' :: (comment ++ text)) = some (none,
      1 + ('-' :: (comment ++ text).takeWhile (· != '\n')).length) := rfl
  rw [hrun, htake, List.length_cons, Nat.add_comm]

namespace SplitsInto

/-- The empty text is split into no words. -/
theorem nil : SplitsInto [] [] := by
  rintro (_ | fuel) offset -
  · exact ⟨[], rfl, rfl⟩
  · exact ⟨[], rfl, rfl⟩

/-- White space in front of a text does not change its words. -/
theorem blank (hc : isLayout c = true) (h : SplitsInto text words) :
    SplitsInto (c :: text) words :=
  .front (frontLexeme?_blank hc) Nat.one_pos h

/-- A comment in front of the end of its line does not change the words of a text. -/
theorem comment {comment : List Char} (hc : '\n' ∉ comment) (hline : ∀ c ∈ text.head?, c = '\n')
    (h : SplitsInto text words) : SplitsInto ('-' :: '-' :: (comment ++ text)) words := by
  refine .front (frontLexeme?_comment hc hline) (Nat.succ_pos _) ?_
  rw [List.drop_succ_cons, List.drop_succ_cons, List.drop_left]
  exact h

/-- The spelling of a word in front of a text is split off as that word. -/
theorem word {l : Lexeme} (hl : l.StandsBefore text) (h : SplitsInto text words) :
    SplitsInto (l.spelling ++ text) (l :: words) := by
  refine .front (frontLexeme?_of_standsBefore hl) hl.length_pos ?_
  rw [List.drop_left]
  exact h

end SplitsInto

/-- A text that spells words is split into these words. -/
theorem Spells.splitsInto (h : Spells words text) : SplitsInto text words := by
  induction h with
  | nil => exact .nil
  | blank hc _ ih => exact .blank hc ih
  | comment _ hc _ ih =>
      refine .comment hc ?_ ih
      rintro c ⟨⟩
      rfl
  | word hl hend _ ih => exact .word (hl.standsBefore hend) ih

/-- A text that spells words is split into these words. -/
theorem lexemes_of_spells (h : Spells words text) :
    ∃ placed, lexemes text = .ok placed ∧ placed.map (·.lexeme) = words :=
  h.splitsInto text.length 0 le_rfl

end Descent.Description
