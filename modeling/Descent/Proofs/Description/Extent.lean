import Descent.Proofs.Description.Blocks
import Descent.Proofs.Description.Spelling

/-!
# The extent of a word

The words at the front of a text are the spellings of words that stand in front of what is left.
Where a word ends depends on the text behind it in two ways only: a name goes on with more
characters of a name, and the scan of a block looks among the next bytes for the last quote of a
character literal. So a word stays as it is if the text behind it is cut off or moves away.
-/

namespace Descent.Description

open Descent.Text

variable {text rest after after' : List Char} {c : Char}

/-! ### Patterns -/

private theorem isPaired_cons (hback : c ≠ '\\') : isPaired (c :: text) = isPaired text := by
  rw [isPaired] <;> simp [hback]

private theorem escapeQuotes_cons (hquote : c ≠ '"') :
    escapeQuotes (c :: text) = c :: escapeQuotes text := by
  rw [escapeQuotes, if_neg (by simpa using hquote)]

/-- What is read as a pattern is the pattern with its quotes escaped, and the closing quote. -/
theorem spelled_of_patternBody? {body : List Char} {n : Nat}
    (h : patternBody? text = some (body, n)) :
    isPaired body = true ∧ n = (escapeQuotes body).length + 1 ∧
      ∃ rest, text = escapeQuotes body ++ '"' :: rest := by
  fun_induction patternBody? text generalizing body n with
  | case1 => cases h
  | case2 rest =>
      obtain ⟨rfl, rfl⟩ := Prod.mk.inj (Option.some.inj h)
      exact ⟨rfl, rfl, rest, rfl⟩
  | case3 rest ih =>
      obtain ⟨⟨inner, k⟩, hinner, heq⟩ := Option.map_eq_some_iff.mp h
      obtain ⟨rfl, rfl⟩ := Prod.mk.inj heq
      obtain ⟨hpaired, rfl, back, rfl⟩ := ih hinner
      refine ⟨?_, rfl, back, rfl⟩
      rwa [isPaired_cons (by decide)]
  | case4 => cases h
  | case5 c rest hquote hline ih =>
      obtain ⟨⟨inner, k⟩, hinner, heq⟩ := Option.map_eq_some_iff.mp h
      obtain ⟨rfl, rfl⟩ := Prod.mk.inj heq
      obtain ⟨hpaired, rfl, back, rfl⟩ := ih hinner
      have hescape : escapeQuotes ('\\' :: c :: inner) = '\\' :: c :: escapeQuotes inner := by
        rw [escapeQuotes_cons (by decide), escapeQuotes_cons hquote]
      refine ⟨?_, ?_, back, ?_⟩
      · simp_all [isPaired]
      · rw [hescape, List.length_cons, List.length_cons]
      · rw [hescape, List.cons_append, List.cons_append]
  | case6 => cases h
  | case7 c rest hquote _ hpair hlast ih =>
      have hne : c ≠ '\\' := by
        rintro rfl
        cases rest with
        | nil => exact hlast rfl rfl
        | cons d rest => exact hpair d rest rfl rfl
      obtain ⟨⟨inner, k⟩, hinner, heq⟩ := Option.map_eq_some_iff.mp h
      obtain ⟨rfl, rfl⟩ := Prod.mk.inj heq
      obtain ⟨hpaired, rfl, back, rfl⟩ := ih hinner
      rw [escapeQuotes_cons hquote]
      exact ⟨(isPaired_cons hne).trans hpaired, rfl, back, rfl⟩

/-! ### Quotes behind a block -/

variable {bytes k : Nat}

private theorem quoteWithin?_cons_eq_none_iff : quoteWithin? bytes (c :: text) = none ↔
    bytes = 0 ∨ c ≠ '\'' ∧ quoteWithin? (bytes - c.utf8Size) text = none := by
  cases bytes with
  | zero => simp [quoteWithin?]
  | succ n => by_cases hc : c = '\'' <;> simp [quoteWithin?, hc]

/-- Among fewer bytes no more quotes are found. -/
theorem quoteWithin?_mono (h : quoteWithin? bytes text = none) (hle : k ≤ bytes) :
    quoteWithin? k text = none := by
  induction text generalizing bytes k with
  | nil => cases k <;> rfl
  | cons c text ih =>
      rw [quoteWithin?_cons_eq_none_iff] at h ⊢
      rcases h with rfl | ⟨hc, h⟩
      · exact .inl (Nat.le_zero.mp hle)
      · exact .inr ⟨hc, ih h (Nat.sub_le_sub_right hle _)⟩

/-- A quote that is found in front of a text is found whatever the text is. -/
theorem quoteWithin?_append_of_lt {n : Nat} (h : quoteWithin? bytes (text ++ after) = some n)
    (hlt : n < text.length) : quoteWithin? bytes (text ++ after') = some n := by
  induction text generalizing bytes n with
  | nil => cases hlt
  | cons c text ih =>
      cases bytes with
      | zero => simp [quoteWithin?] at h
      | succ b =>
          rw [List.cons_append, quoteWithin?] at h ⊢
          by_cases hc : (c == '\'') = true
          · rw [if_pos hc] at h ⊢
            exact h
          · rw [if_neg hc] at h ⊢
            obtain ⟨m, hm, rfl⟩ := Option.map_eq_some_iff.mp h
            rw [ih hm (Nat.lt_of_succ_lt_succ hlt), Option.map_some]

/-- In the second text no single quote stands nearer to the beginning than in the first, and it does
not go on with a name where the first does not. -/
structure NoNearer (first second : List Char) : Prop where
  name : first.head?.any isNamePart = false → second.head?.any isNamePart = false
  quote : ∀ bytes, quoteWithin? bytes first = none → quoteWithin? bytes second = none

namespace NoNearer

/-- In the empty text no single quote is nearer than in another text. -/
theorem nil : NoNearer text [] := by
  refine ⟨fun _ => rfl, fun bytes _ => ?_⟩
  cases bytes <;> rfl

/-- One more character in front of both texts keeps the order. -/
theorem cons (h : NoNearer after after') : NoNearer (c :: after) (c :: after') := by
  refine ⟨id, fun bytes hnone => ?_⟩
  rw [quoteWithin?_cons_eq_none_iff] at hnone ⊢
  exact hnone.imp_right fun hrest => ⟨hrest.1, h.quote _ hrest.2⟩

/-- The same text in front of both changes nothing. -/
theorem append (h : NoNearer after after') : NoNearer (text ++ after) (text ++ after') := by
  induction text with
  | nil => exact h
  | cons c text ih => exact ih.cons

/-- The text goes on no farther. -/
theorem truncate : NoNearer (text ++ after) text := by
  have h : NoNearer (text ++ after) (text ++ []) := nil.append
  rwa [List.append_nil] at h

/-- A text without quotes that is no part of a name may stand in front. -/
theorem insert (hname : text.head?.any isNamePart = false) (hquote : '\'' ∉ text) :
    NoNearer after (text ++ after) where
  name h := by
    cases text with
    | nil => exact h
    | cons c text => exact hname
  quote bytes hnone := by
    clear hname
    induction text generalizing bytes with
    | nil => exact hnone
    | cons c text ih =>
        rw [List.mem_cons, not_or] at hquote
        rw [List.cons_append, quoteWithin?_cons_eq_none_iff]
        refine .inr ⟨Ne.symm hquote.1, ih hquote.2 _ ?_⟩
        exact quoteWithin?_mono hnone (Nat.sub_le _ _)

end NoNearer

/-! ### Blocks -/

variable {d : Delimiters} {depth n : Nat} {state : BlockState} {word : List Char}

private theorem Delimiters.closing_ne : d.closing ≠ '\\' ∧ d.closing ≠ '\'' := by
  cases d <;> decide

private theorem charLiteralLength_escape :
    charLiteralLength ('\\' :: text) = ((quoteWithin? 12 text).map (· + 2)).getD 0 := by
  cases h : quoteWithin? 12 text <;> simp [charLiteralLength, h]

private theorem charLiteralLength_cons (hback : c ≠ '\\') : charLiteralLength (c :: text) =
    if text.head? = some '\'' ∧ c.utf8Size = 1 then 2 else 0 := by
  by_cases hhead : text.head? = some '\''
  · obtain ⟨rest, rfl⟩ := List.head?_eq_some_iff.mp hhead
    by_cases hsize : c.utf8Size = 1 <;> simp [charLiteralLength, hsize]
  · unfold charLiteralLength
    split <;> simp_all

/-- The quote of a character literal in a block is found in the block, or it is found in neither of
the texts behind it. -/
theorem NoNearer.charLiteralLength_eq (h : NoNearer after after')
    (hle : charLiteralLength (word ++ d.closing :: after) ≤ word.length) :
    charLiteralLength (word ++ d.closing :: after') =
      charLiteralLength (word ++ d.closing :: after) := by
  cases word with
  | nil =>
      -- with a quote behind it the delimiter would be the character of a literal
      have hhead : ∀ {text : List Char}, quoteWithin? 1 text = none ↔
          text.head? ≠ some '\'' := by
        rintro (_ | ⟨c, text⟩)
        · simp [quoteWithin?]
        · simp [Nat.sub_eq_zero_of_le c.utf8Size_pos, quoteWithin?]
      rw [List.nil_append, charLiteralLength_cons d.closing_ne.1] at hle ⊢
      rw [List.nil_append, charLiteralLength_cons d.closing_ne.1]
      split at hle
      · cases hle
      · next hcond =>
          rw [if_neg hcond, if_neg]
          rintro ⟨hquote, hsize⟩
          have hafter := mt (fun hne => hhead.mp (h.quote 1 (hhead.mpr hne))) (not_not.mpr hquote)
          exact hcond ⟨not_not.mp hafter, hsize⟩
  | cons c word =>
      by_cases hback : c = '\\'
      · subst hback
        rw [List.cons_append, charLiteralLength_escape] at hle ⊢
        rw [List.cons_append, charLiteralLength_escape]
        cases hfound : quoteWithin? 12 (word ++ d.closing :: after) with
        | none => rw [h.cons.append.quote 12 hfound]
        | some n =>
            rw [hfound, Option.map_some, Option.getD_some, List.length_cons] at hle
            have hlt : n < word.length := by omega
            rw [quoteWithin?_append_of_lt hfound hlt]
      · rw [List.cons_append, List.cons_append, charLiteralLength_cons hback,
          charLiteralLength_cons hback]
        cases word <;> rfl

private theorem blockScan_nil : blockScan d.opening d.closing state depth [] = none := by
  cases state <;> simp [blockScan]

/-- A scan passes over what it is to pass over. -/
theorem le_of_blockScan_plain (h : blockScan d.opening d.closing (.plain k) depth text = some n) :
    k ≤ n := by
  induction text generalizing k n with
  | nil =>
      rw [blockScan_nil] at h
      cases h
  | cons c text ih =>
      cases k with
      | zero => exact Nat.zero_le n
      | succ k =>
          obtain ⟨m, hm, rfl⟩ := Option.map_eq_some_iff.mp h
          exact Nat.succ_le_succ (ih hm)

/-- A block ends where it ends in front of the first text. -/
theorem NoNearer.blockScan_eq (h : NoNearer after after')
    (hscan : blockScan d.opening d.closing state depth (word ++ d.closing :: after) =
      some word.length) :
    blockScan d.opening d.closing state depth (word ++ d.closing :: after') = some word.length := by
  induction word generalizing state depth with
  | nil =>
      -- only in plain code and in one block the delimiter closes a block
      rw [List.nil_append] at hscan ⊢
      rcases state with (_ | pass) | _ | _ | _
      · cases d <;> simp_all [blockScan, Delimiters.opening, Delimiters.closing]
      · simp [blockScan] at hscan
      · cases d <;> simp [blockScan, Delimiters.opening, Delimiters.closing] at hscan
      · simp [blockScan] at hscan
      · simp [blockScan] at hscan
  | cons c word ih =>
      have step : ∀ {state depth},
          (blockScan d.opening d.closing state depth (word ++ d.closing :: after)).map (· + 1) =
            some (word.length + 1) →
          (blockScan d.opening d.closing state depth (word ++ d.closing :: after')).map (· + 1) =
            some (word.length + 1) := by
        intro state depth hrest
        obtain ⟨m, hm, heq⟩ := Option.map_eq_some_iff.mp hrest
        obtain rfl := Nat.succ.inj heq
        rw [ih hm, Option.map_some]
      rcases state with (_ | pass) | _ | _ | _
      · have hhead : (word ++ d.closing :: after).head? = (word ++ d.closing :: after').head? := by
          cases word <;> rfl
        have hliteral : ∀ {depth},
            (blockScan d.opening d.closing (.plain (charLiteralLength (word ++ d.closing :: after)))
              depth (word ++ d.closing :: after)).map (· + 1) = some (word.length + 1) →
            charLiteralLength (word ++ d.closing :: after') =
              charLiteralLength (word ++ d.closing :: after) := by
          intro depth hrest
          obtain ⟨m, hm, heq⟩ := Option.map_eq_some_iff.mp hrest
          obtain rfl := Nat.succ.inj heq
          exact h.charLiteralLength_eq (le_of_blockScan_plain hm)
        simp only [List.cons_append, blockScan, hhead] at hscan ⊢
        split_ifs at hscan ⊢
        · exact step hscan
        · rw [hliteral hscan]
          exact step hscan
        · exact step hscan
        · exact step hscan
        · exact hscan
        · exact step hscan
        · exact step hscan
      · exact step hscan
      · simp only [List.cons_append, blockScan] at hscan ⊢
        split_ifs at hscan ⊢
        · exact step hscan
        · exact step hscan
        · exact step hscan
      · exact step hscan
      · exact step hscan

/-- The scan stops at a closing delimiter. -/
theorem exists_of_blockScan (h : blockScan d.opening d.closing state depth text = some n) :
    ∃ body back, text = body ++ d.closing :: back ∧ body.length = n := by
  induction text generalizing state depth n with
  | nil =>
      rw [blockScan_nil] at h
      cases h
  | cons c text ih =>
      have step : ∀ {state depth},
          (blockScan d.opening d.closing state depth text).map (· + 1) = some n →
          ∃ body back, c :: text = body ++ d.closing :: back ∧ body.length = n := by
        intro state depth hrest
        obtain ⟨m, hm, rfl⟩ := Option.map_eq_some_iff.mp hrest
        obtain ⟨body, back, rfl, rfl⟩ := ih hm
        exact ⟨c :: body, back, rfl, rfl⟩
      rcases state with (_ | pass) | _ | _ | _
      · simp only [blockScan] at h
        split_ifs at h with _ _ _ _ hclosing
        · exact step h
        · exact step h
        · exact step h
        · exact step h
        · exact ⟨[], text, by rw [beq_iff_eq.mp hclosing]; rfl, Option.some.inj h⟩
        · exact step h
        · exact step h
      · exact step h
      · simp only [blockScan] at h
        split_ifs at h
        · exact step h
        · exact step h
        · exact step h
      · exact step h
      · exact step h

/-! ### Words -/

variable {l : Lexeme}

/-- A word that stands in front of a text stands in front of one that keeps away from it. -/
theorem Lexeme.StandsBefore.of_noNearer (h : l.StandsBefore after) (hn : NoNearer after after') :
    l.StandsBefore after' := by
  cases l with
  | keyword k => exact hn.name h
  | upper name => exact ⟨h.1, hn.name h.2⟩
  | lower name => exact ⟨h.1, hn.name h.2⟩
  | pattern text => exact h
  | code text => exact hn.blockScan_eq (d := .braces) h
  | bracket text => exact hn.blockScan_eq (d := .brackets) h
  | punctuation p => trivial

/-- A name is the spelling of the word that it is. -/
theorem spelling_ofName {name : List Char} (h : isName name = true)
    (hrest : rest.head?.any isNamePart = false) :
    (ofName name).spelling = name ∧ (ofName name).StandsBefore rest := by
  obtain ⟨hhead, hall⟩ := Bool.and_eq_true_iff.mp h
  cases hfind : Keyword.all.find? fun k => k.spelling == String.ofList name with
  | some k =>
      have hk : (k.spelling == String.ofList name) = true := by
        simpa using List.find?_some hfind
      have hword : ofName name = .keyword k := by simp [ofName, hfind]
      rw [hword]
      exact ⟨by rw [Lexeme.spelling, beq_iff_eq.mp hk, String.toList_ofList], hrest⟩
  | none =>
      by_cases hupper : name.head?.any isAsciiUpper = true
      · have hword : ofName name = .upper (String.ofList name) := by
          simp only [ofName, hfind, String.toList_ofList, hupper, if_true]
        rw [hword]
        refine ⟨String.toList_ofList, ?_, hrest⟩
        rw [String.toList_ofList, isTokenName, hupper, hall, Bool.and_self]
      · have hword : ofName name = .lower (String.ofList name) := by
          simp only [ofName, hfind, String.toList_ofList, hupper, if_false, Bool.false_eq_true]
        have hvariable : isVariableName name = true := by
          refine Bool.and_eq_true_iff.mpr ⟨?_, hall⟩
          cases name with
          | nil => exact hhead
          | cons c name =>
              simp only [List.head?_cons, Option.any_some] at hhead hupper ⊢
              rwa [isNameHead, Bool.eq_false_iff.mpr hupper, Bool.or_false] at hhead
        have hkeyword : (Keyword.all.all fun k => k.spelling != String.ofList name) = true :=
          List.all_eq_true.mpr fun k hk => by simpa using List.find?_eq_none.mp hfind k hk
        rw [hword]
        refine ⟨String.toList_ofList, ?_, hrest⟩
        rw [isFreeName, String.toList_ofList, hvariable, hkeyword, Bool.and_self]

/-- The spelling of a block is the block between its delimiters. -/
theorem Delimiters.spelling_lexeme (block : String) :
    (d.lexeme block).spelling = d.opening :: (block.toList ++ [d.closing]) := by
  cases d <;> rfl

/-- A block stands before a text if the scan from its opening ends at its closing. -/
theorem Delimiters.standsBefore_lexeme {block : String} : (d.lexeme block).StandsBefore rest ↔
    blockLength? d.opening d.closing (block.toList ++ d.closing :: rest) =
      some block.toList.length := by
  cases d <;> rfl

/-- A block is the spelling of the word that its text makes. -/
theorem spelled_of_block (h : ((blockLength? d.opening d.closing text).map fun k =>
    (some (d.lexeme (String.ofList (text.take k))), k + 2)) = some (some l, n)) :
    ∃ rest, d.opening :: text = l.spelling ++ rest ∧ n = l.spelling.length ∧
      l.StandsBefore rest := by
  obtain ⟨k, hk, heq⟩ := Option.map_eq_some_iff.mp h
  obtain ⟨body, rest, rfl, rfl⟩ := exists_of_blockScan hk
  obtain ⟨hl, rfl⟩ := Prod.mk.inj heq
  rw [List.take_left] at hl
  obtain rfl := Option.some.inj hl
  refine ⟨rest, ?_, ?_, ?_⟩
  · simp [Delimiters.spelling_lexeme]
  · simp [Delimiters.spelling_lexeme]
  · rwa [Delimiters.standsBefore_lexeme, String.toList_ofList]

private theorem isNamePart_of_isNameHead (h : isNameHead c = true) : isNamePart c = true := by
  simp only [isNameHead, Bool.or_eq_true] at h
  simp only [isNamePart, Bool.or_eq_true]
  exact h.imp_left .inl

/-- What is taken as a word is the spelling of the word, which stands in front of what is left. -/
theorem spelled_of_frontLexeme? (h : frontLexeme? text = some (some l, n)) :
    ∃ rest, text = l.spelling ++ rest ∧ n = l.spelling.length ∧ l.StandsBefore rest := by
  cases text with
  | nil => cases h
  | cons c text =>
      rw [frontLexeme?] at h
      split_ifs at h with hlayout hhyphen hcomment hquote hbrace hbracket hname
      · cases h
      · cases h
      · obtain rfl := beq_iff_eq.mp hquote
        obtain ⟨⟨body, k⟩, hbody, heq⟩ := Option.map_eq_some_iff.mp h
        obtain ⟨hl, rfl⟩ := Prod.mk.inj heq
        obtain rfl := Option.some.inj hl
        obtain ⟨hpaired, rfl, rest, rfl⟩ := spelled_of_patternBody? hbody
        refine ⟨rest, ?_, ?_, ?_⟩
        · simp [Lexeme.spelling]
        · simp [Lexeme.spelling]
        · simpa [Lexeme.StandsBefore] using hpaired
      · obtain rfl := beq_iff_eq.mp hbrace
        exact spelled_of_block (d := .braces) h
      · obtain rfl := beq_iff_eq.mp hbracket
        exact spelled_of_block (d := .brackets) h
      · obtain ⟨hl, rfl⟩ := Prod.mk.inj (Option.some.inj h)
        obtain rfl := Option.some.inj hl
        have hwhole : isName (c :: text.takeWhile isNamePart) = true := by
          have hparts : (text.takeWhile isNamePart).all isNamePart = true := List.all_takeWhile
          rw [isName, List.all_cons, isNamePart_of_isNameHead hname, hparts, Bool.and_self,
            Bool.and_true]
          exact hname
        have hend : (text.dropWhile isNamePart).head?.any isNamePart = false := by
          have hnot := List.head?_dropWhile_not isNamePart text
          cases hhead : (text.dropWhile isNamePart).head? with
          | none => rfl
          | some x => simpa [hhead] using hnot
        obtain ⟨hspelling, hstands⟩ := spelling_ofName hwhole hend
        refine ⟨_, ?_, ?_, hstands⟩
        · rw [hspelling, List.cons_append, List.takeWhile_append_dropWhile]
        · rw [hspelling]
      · obtain ⟨p, hp, heq⟩ := Option.map_eq_some_iff.mp h
        obtain ⟨hl, rfl⟩ := Prod.mk.inj heq
        obtain rfl := Option.some.inj hl
        have hchar : (p.character == c) = true := by simpa using List.find?_some hp
        exact ⟨text, by rw [← beq_iff_eq.mp hchar]; rfl, rfl, trivial⟩

/-- What is taken as layout is white space, or a comment up to the end of its line. -/
theorem layout_of_frontLexeme? (h : frontLexeme? text = some (none, n)) :
    (∃ c rest, isLayout c = true ∧ text = c :: rest ∧ n = 1) ∨
      ∃ comment rest, '\n' ∉ comment ∧ (∀ c ∈ rest.head?, c = '\n') ∧
        text = ('-' :: '-' :: comment) ++ rest ∧ n = ('-' :: '-' :: comment).length := by
  cases text with
  | nil => cases h
  | cons c text =>
      rw [frontLexeme?] at h
      split_ifs at h with hlayout hhyphen hcomment hquote hbrace hbracket hname
      · exact .inl ⟨c, text, hlayout, rfl, (Prod.mk.inj (Option.some.inj h)).2.symm⟩
      · obtain rfl := beq_iff_eq.mp hhyphen
        obtain ⟨rest, rfl⟩ := List.head?_eq_some_iff.mp (beq_iff_eq.mp hcomment)
        obtain ⟨-, rfl⟩ := Prod.mk.inj (Option.some.inj h)
        refine .inr ⟨rest.takeWhile (· != '\n'), rest.dropWhile (· != '\n'), ?_, ?_, ?_, ?_⟩
        · intro hmem
          simpa using List.mem_takeWhile_imp hmem
        · intro c hc
          have hnot := List.head?_dropWhile_not (· != '\n') rest
          rw [hc] at hnot
          simpa using hnot
        · rw [List.cons_append, List.cons_append, List.takeWhile_append_dropWhile]
        · have hline : ('-' :: rest).takeWhile (· != '\n') =
              '-' :: rest.takeWhile (· != '\n') := rfl
          rw [hline, List.length_cons, List.length_cons, List.length_cons, Nat.add_comm]
      all_goals simp [Option.map_eq_some_iff] at h

/-- A piece is not empty. -/
theorem pos_of_frontLexeme? {front : Option Lexeme} (h : frontLexeme? text = some (front, n)) :
    0 < n := by
  cases front with
  | none =>
      obtain ⟨_, _, -, -, rfl⟩ | ⟨_, _, -, -, -, rfl⟩ := layout_of_frontLexeme? h
      · exact Nat.one_pos
      · exact Nat.succ_pos _
  | some l =>
      obtain ⟨_, -, rfl, hl⟩ := spelled_of_frontLexeme? h
      exact hl.length_pos

/-- The text is not empty, and neither white space nor a comment nor a word stands at its front. -/
structure NothingBegins (text : List Char) : Prop where
  nonempty : text ≠ []
  noBlank : ∀ c ∈ text.head?, isLayout c = false
  noComment : ¬ ['-', '-'] <+: text
  noWord : ∀ (l : Lexeme) (rest : List Char), text = l.spelling ++ rest → ¬ l.StandsBefore rest

/-- A text in front of which there is no word begins with none. -/
theorem nothingBegins_of_frontLexeme? (hne : text ≠ []) (h : frontLexeme? text = none) :
    NothingBegins text where
  nonempty := hne
  noBlank c hc := by
    obtain ⟨rest, rfl⟩ := List.head?_eq_some_iff.mp hc
    by_contra hblank
    rw [frontLexeme?_blank (Bool.not_eq_false _ ▸ hblank)] at h
    cases h
  noComment := by
    rintro ⟨rest, rfl⟩
    cases h
  noWord l rest := by
    rintro rfl hl
    rw [frontLexeme?_of_standsBefore hl] at h
    cases h

end Descent.Description
