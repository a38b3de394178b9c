import Descent.Description.Lexer
import Descent.Pattern.Escape

/-!
# The end of a block of code

Code is made of plain text, string and character literals, lifetimes, comments and groups in
delimiters. The scan of a block passes over each of them and stands in plain code behind it,
with as many blocks open as before, so it stops at the delimiter that closes the block. The
exceptions are character literals of which the scan takes the last quote for a first one:
that is of no harm only where the text behind them is no such literal.
-/

namespace Descent.Description

open Descent.Text Descent.Pattern

/-! ### Delimiters -/

/-- The two pairs of delimiters of blocks. -/
inductive Delimiters where
  | braces
  | brackets
deriving DecidableEq, Repr

namespace Delimiters

/-- The character that opens a block. -/
def opening : Delimiters → Char
  | braces => '\x7b'
  | brackets => '['

/-- The character that closes a block. -/
def closing : Delimiters → Char
  | braces => '\x7d'
  | brackets => ']'

/-- The word that a block with the text is. -/
def lexeme (text : String) : Delimiters → Lexeme
  | braces => .code text
  | brackets => .bracket text

end Delimiters

/-! ### Pieces of code -/

/-- An escape in a character literal, behind its backslash. -/
inductive Escape where
  | simple (c : Char)
  | byte (high low : Char)
  | unicode (digits : List Char)
deriving DecidableEq, Repr

namespace Escape

/-- The escape as it is written. -/
def text : Escape → List Char
  | simple c => [c]
  | byte high low => ['x', high, low]
  | unicode digits => 'u' :: '\x7b' :: (digits ++ ['\x7d'])

/-- Behind the backslash stands one of the known characters, or hexadecimal digits. -/
def WellFormed : Escape → Prop
  | simple c => c ∈ ['n', 'r', 't', '0', '\\', '\'', '"']
  | byte high low => isHexDigit high = true ∧ isHexDigit low = true
  | unicode digits => ∀ c ∈ digits, isHexDigit c = true ∨ c = '_'

end Escape

/-- The inside of a character literal. -/
inductive CharLiteral where
  | character (c : Char)
  | escape (e : Escape)
deriving DecidableEq, Repr

namespace CharLiteral

/-- The literal as it is written, with its quotes. -/
def text : CharLiteral → List Char
  | character c => [c]
  | escape e => '\\' :: e.text

/-- The literal holds a character that need not be escaped, or an escape that is well formed. -/
def WellFormed : CharLiteral → Prop
  | character c => c ≠ '\'' ∧ c ≠ '\\' ∧ c ≠ '\n'
  | escape e => e.WellFormed

/-- The scan takes the literal as a whole: a character of one byte, or an escape without a quote
and of less than twelve bytes behind the backslash. -/
def TakenWhole : CharLiteral → Prop
  | character c => c.utf8Size = 1
  | escape e => '\'' ∉ e.text ∧ byteLength e.text < 12

end CharLiteral

/-- The text can stand between the quotes of a string literal: quotes and backslashes have a
backslash in front of them. -/
inductive IsStringBody : List Char → Prop where
  | nil : IsStringBody []
  | character {c : Char} {rest : List Char} (hquote : c ≠ '"') (hbackslash : c ≠ '\\')
      (hrest : IsStringBody rest) : IsStringBody (c :: rest)
  | escape {rest : List Char} (c : Char) (hrest : IsStringBody rest) :
      IsStringBody ('\\' :: c :: rest)

/-- The character may stand in an identifier. -/
def isIdentifierPart (c : Char) : Bool := isNamePart c || decide (128 ≤ c.toNat)

/-- Code as a sequence of pieces; plain text is given character by character. -/
inductive Code where
  | nil
  | plain (c : Char) (rest : Code)
  | string (body : List Char) (rest : Code)
  | literal (l : CharLiteral) (rest : Code)
  | lifetime (name : List Char) (rest : Code)
  | comment (text : List Char) (rest : Code)
  | group (inner rest : Code)
deriving DecidableEq, Repr

namespace Code

variable (d : Delimiters)

/-- The text of the pieces, groups in the delimiters. -/
def text : Code → List Char
  | nil => []
  | plain c rest => c :: rest.text
  | string body rest => '"' :: (body ++ '"' :: rest.text)
  | literal l rest => '\'' :: (l.text ++ '\'' :: rest.text)
  | lifetime name rest => '\'' :: (name ++ rest.text)
  | comment text rest => '/' :: '/' :: (text ++ '\n' :: rest.text)
  | group inner rest => d.opening :: (inner.text ++ d.closing :: rest.text)

/-- The pieces begin with plain text that begins with the character. -/
def BeginsPlain (c : Char) : Code → Prop
  | plain c' _ => c' = c
  | _ => False

/-- Plain text is without quotes, delimiters and two slashes in a row, a lifetime is not directly
followed by a quote, and a comment ends with its line. -/
def WellFormed : Code → Prop
  | nil => True
  | plain c rest => (c ≠ '"' ∧ c ≠ '\'' ∧ c ≠ d.opening ∧ c ≠ d.closing) ∧
      (c = '/' → ¬ rest.BeginsPlain '/') ∧ rest.WellFormed
  | string body rest => IsStringBody body ∧ rest.WellFormed
  | literal l rest => l.WellFormed ∧ rest.WellFormed
  | lifetime name rest => name ≠ [] ∧ (∀ c ∈ name, isIdentifierPart c = true) ∧
      (rest.text d).head? ≠ some '\'' ∧ rest.WellFormed
  | comment text rest => '\n' ∉ text ∧ rest.WellFormed
  | group inner rest => inner.WellFormed ∧ rest.WellFormed

end Code

/-- Behind a single quote the text goes on as a character literal, as far as the scan can see. -/
inductive Continues : List Char → Prop where
  | character {c : Char} {rest : List Char} (hbackslash : c ≠ '\\') (hsize : c.utf8Size = 1) :
      Continues (c :: '\'' :: rest)
  | escape {between rest : List Char} (hbetween : byteLength between < 12) :
      Continues ('\\' :: (between ++ '\'' :: rest))

/-- In front of the closing delimiter and the text behind it, no literal that the scan does not
take as a whole is followed by what looks like the rest of another one. -/
def Code.Clear (d : Delimiters) : Code → List Char → Prop
  | nil, _ => True
  | plain _ rest, after => rest.Clear d after
  | string _ rest, after => rest.Clear d after
  | literal l rest, after =>
      (l.TakenWhole ∨ ¬ Continues (rest.text d ++ d.closing :: after)) ∧ rest.Clear d after
  | lifetime _ rest, after => rest.Clear d after
  | comment _ rest, after => rest.Clear d after
  | group inner rest, after =>
      inner.Clear d (rest.text d ++ d.closing :: after) ∧ rest.Clear d after

/-! ### Passing over a piece -/

/-- The scan passes over the word and stands in plain code behind it, with as many blocks open as
before. -/
def Passes (d : Delimiters) (word after : List Char) : Prop :=
  ∀ depth, blockScan d.opening d.closing (.plain 0) (depth + 1) (word ++ after) =
    (blockScan d.opening d.closing (.plain 0) (depth + 1) after).map (· + word.length)

variable {d : Delimiters} {word word' after : List Char} {c : Char}

private theorem map_add_map_add (x : Option Nat) (m n : Nat) :
    (x.map (· + m)).map (· + n) = x.map (· + (m + n)) := by
  cases x with
  | none => rfl
  | some k => exact congrArg some (Nat.add_assoc k m n)

namespace Passes

private theorem nil : Passes d [] after := fun _ => by simp

/-- One piece after the other is passed over. -/
theorem append (h : Passes d word (word' ++ after)) (h' : Passes d word' after) :
    Passes d (word ++ word') after := by
  intro depth
  rw [List.append_assoc, h depth, h' depth, map_add_map_add, List.length_append, Nat.add_comm]

/-- Plain text is passed over; a single slash may also stand in front of a comment. -/
theorem plain (hquote : c ≠ '"') (hsingle : c ≠ '\'') (hopening : c ≠ d.opening)
    (hclosing : c ≠ d.closing)
    (hslash : c = '/' → ∀ rest, after = '/' :: rest → ∃ rest', rest = '/' :: rest') :
    Passes d [c] after := by
  intro depth
  by_cases hcomment : c = '/' ∧ after.head? = some '/'
  · -- the comment begins one slash earlier and ends at the same place
    obtain ⟨rfl, hhead⟩ := hcomment
    obtain ⟨rest, rfl⟩ := List.head?_eq_some_iff.mp hhead
    obtain ⟨rest, rfl⟩ := hslash rfl rest rfl
    simp [blockScan]
  · have hplain : (c == '/' && after.head? == some '/') = false := by
      simpa using hcomment
    simp [blockScan, hquote, hsingle, hopening, hclosing, hplain]

/-- What a scan is to pass over it passes over. -/
theorem blockScan_pass (depth : Nat) (word after : List Char) :
    blockScan d.opening d.closing (.plain word.length) depth (word ++ after) =
      (blockScan d.opening d.closing (.plain 0) depth after).map (· + word.length) := by
  induction word with
  | nil => simp
  | cons c word ih =>
      have hstep : blockScan d.opening d.closing (.plain (word.length + 1)) depth
          (c :: (word ++ after)) = (blockScan d.opening d.closing (.plain word.length) depth
            (word ++ after)).map (· + 1) := rfl
      rw [List.cons_append, List.length_cons, hstep, ih, map_add_map_add]

/-- A quote is passed over with the characters that belong to a literal with it. -/
theorem quote (h : charLiteralLength (word ++ after) = word.length) :
    Passes d ('\'' :: word) after := by
  intro depth
  have hstep : blockScan d.opening d.closing (.plain 0) (depth + 1) ('\'' :: (word ++ after)) =
      (blockScan d.opening d.closing (.plain (charLiteralLength (word ++ after))) (depth + 1)
        (word ++ after)).map (· + 1) := by
    simp [blockScan]
  rw [List.cons_append, hstep, h, blockScan_pass, map_add_map_add, List.length_cons]

/-- Inside a string literal the scan goes on to its last quote. -/
theorem blockScan_inString {body : List Char} (h : IsStringBody body) (depth : Nat) :
    blockScan d.opening d.closing .inString depth (body ++ '"' :: after) =
      (blockScan d.opening d.closing (.plain 0) depth after).map (· + (1 + body.length)) := by
  induction h with
  | nil => simp [blockScan]
  | @character c rest hquote hbackslash _ ih =>
      have hstep : blockScan d.opening d.closing .inString depth (c :: (rest ++ '"' :: after)) =
          (blockScan d.opening d.closing .inString depth (rest ++ '"' :: after)).map (· + 1) := by
        simp [blockScan, hquote, hbackslash]
      rw [List.cons_append, hstep, ih, map_add_map_add, List.length_cons, Nat.add_assoc]
  | @escape rest c _ ih =>
      have hstep : blockScan d.opening d.closing .inString depth
          ('\\' :: c :: (rest ++ '"' :: after)) = ((blockScan d.opening d.closing .inString depth
            (rest ++ '"' :: after)).map (· + 1)).map (· + 1) := by
        simp [blockScan]
      rw [List.cons_append, List.cons_append, hstep, ih, map_add_map_add, map_add_map_add,
        List.length_cons, List.length_cons, Nat.add_assoc, Nat.add_assoc]

/-- The scan passes over a string literal. -/
theorem string {body : List Char} (h : IsStringBody body) :
    Passes d ('"' :: (body ++ ['"'])) after := by
  intro depth
  have hstep : blockScan d.opening d.closing (.plain 0) (depth + 1)
      ('"' :: (body ++ '"' :: after)) = (blockScan d.opening d.closing .inString (depth + 1)
        (body ++ '"' :: after)).map (· + 1) := by
    simp [blockScan]
  rw [List.cons_append, List.append_assoc, List.singleton_append, hstep, blockScan_inString h,
    map_add_map_add, List.length_cons, List.length_append, List.length_singleton, Nat.add_comm 1]

/-- Inside a comment the scan goes on to the end of the line. -/
theorem blockScan_inComment {text : List Char} (h : '\n' ∉ text) (depth : Nat) :
    blockScan d.opening d.closing .inComment depth (text ++ '\n' :: after) =
      (blockScan d.opening d.closing (.plain 0) depth after).map (· + (1 + text.length)) := by
  induction text with
  | nil => simp [blockScan]
  | cons c text ih =>
      have hline : (c == '\n') = false := by
        simpa using fun hc : c = '\n' => h (hc ▸ List.mem_cons_self)
      have hstep : blockScan d.opening d.closing .inComment depth (c :: (text ++ '\n' :: after)) =
          (blockScan d.opening d.closing .inComment depth (text ++ '\n' :: after)).map (· + 1) := by
        simp [blockScan, hline]
      rw [List.cons_append, hstep, ih fun hc => h (List.mem_cons_of_mem c hc), map_add_map_add,
        List.length_cons, Nat.add_assoc]

/-- The scan passes over a comment and the end of its line. -/
theorem comment {text : List Char} (h : '\n' ∉ text) :
    Passes d ('/' :: '/' :: (text ++ ['\n'])) after := by
  intro depth
  have hstep : blockScan d.opening d.closing (.plain 0) (depth + 1)
      ('/' :: '/' :: (text ++ '\n' :: after)) = ((blockScan d.opening d.closing .inComment
        (depth + 1) (text ++ '\n' :: after)).map (· + 1)).map (· + 1) := by
    simp [blockScan]
  rw [List.cons_append, List.cons_append, List.append_assoc, List.singleton_append, hstep,
    blockScan_inComment h, map_add_map_add, map_add_map_add, List.length_cons, List.length_cons,
    List.length_append, List.length_singleton, Nat.add_comm 1]

/-- A group is passed over with what is in it. -/
theorem group {inner : List Char} (h : Passes d inner (d.closing :: after)) :
    Passes d (d.opening :: (inner ++ [d.closing])) after := by
  intro depth
  have hopen : blockScan d.opening d.closing (.plain 0) (depth + 1)
      (d.opening :: (inner ++ d.closing :: after)) = (blockScan d.opening d.closing (.plain 0)
        (depth + 2) (inner ++ d.closing :: after)).map (· + 1) := by
    cases d <;> simp [blockScan, Delimiters.opening, Delimiters.closing]
  have hclose : blockScan d.opening d.closing (.plain 0) (depth + 2) (d.closing :: after) =
      (blockScan d.opening d.closing (.plain 0) (depth + 1) after).map (· + 1) := by
    cases d <;> simp [blockScan, Delimiters.opening, Delimiters.closing]
  rw [List.cons_append, List.append_assoc, List.singleton_append, hopen, h (depth + 1), hclose,
    map_add_map_add, map_add_map_add, List.length_cons, List.length_append, List.length_singleton,
    Nat.add_comm 1]

/-- A letter of an identifier means nothing to the scan. -/
theorem letter (h : isIdentifierPart c = true) : Passes d [c] after := by
  have hne : ∀ x, isIdentifierPart x = false → c ≠ x := by
    rintro x hx rfl
    exact Bool.false_ne_true (hx.symm.trans h)
  refine plain (hne _ (by decide)) (hne _ (by decide)) ?_ ?_ fun hc => ?_
  · cases d <;> exact hne _ (by decide)
  · cases d <;> exact hne _ (by decide)
  · exact absurd hc (hne _ (by decide))

/-- The scan passes over characters of names. -/
theorem identifier (h : ∀ c ∈ word, isIdentifierPart c = true) : Passes d word after := by
  induction word with
  | nil => exact nil
  | cons c word ih =>
      obtain ⟨hc, hword⟩ := List.forall_mem_cons.mp h
      exact (letter hc).append (ih hword)

end Passes

/-! ### Quotes -/

section

variable {between rest : List Char} {bytes : Nat}

/-- A quote is found where it begins among the first bytes. -/
theorem quoteWithin?_eq_some (h : '\'' ∉ between) (hlength : byteLength between < bytes) :
    quoteWithin? bytes (between ++ '\'' :: rest) = some between.length := by
  induction between generalizing bytes with
  | nil =>
      obtain ⟨n, rfl⟩ := Nat.exists_eq_succ_of_ne_zero (Nat.ne_of_gt hlength)
      simp [quoteWithin?]
  | cons c between ih =>
      have hc : c ≠ '\'' := fun hc => h (hc ▸ List.mem_cons_self)
      rw [byteLength_cons] at hlength
      obtain ⟨n, rfl⟩ := Nat.exists_eq_succ_of_ne_zero (Nat.ne_of_gt (Nat.zero_lt_of_lt hlength))
      have hfound : quoteWithin? (n + 1 - c.utf8Size) (between ++ '\'' :: rest) =
          some between.length := ih (fun hmem => h (List.mem_cons_of_mem c hmem)) (by omega)
      simp [quoteWithin?, hc, hfound]

/-- Behind as many bytes without a quote none is found. -/
theorem quoteWithin?_eq_none (h : '\'' ∉ between) (hlength : bytes ≤ byteLength between) :
    quoteWithin? bytes (between ++ rest) = none := by
  induction between generalizing bytes with
  | nil =>
      obtain rfl := Nat.le_zero.mp hlength
      simp [quoteWithin?]
  | cons c between ih =>
      have hc : c ≠ '\'' := fun hc => h (hc ▸ List.mem_cons_self)
      rw [byteLength_cons] at hlength
      cases bytes with
      | zero => simp [quoteWithin?]
      | succ n =>
          have hnone : quoteWithin? (n + 1 - c.utf8Size) (between ++ rest) = none :=
            ih (fun hmem => h (List.mem_cons_of_mem c hmem)) (by omega)
          simp [quoteWithin?, hc, hnone]

/-- The quote that is found stands in the text. -/
theorem exists_of_quoteWithin? {text : List Char} {n : Nat} (h : quoteWithin? bytes text = some n) :
    ∃ between rest, text = between ++ '\'' :: rest ∧ byteLength between < bytes := by
  induction text generalizing bytes n with
  | nil => cases bytes <;> simp [quoteWithin?] at h
  | cons c text ih =>
      cases bytes with
      | zero => simp [quoteWithin?] at h
      | succ k =>
          rw [quoteWithin?] at h
          split at h
          · next hc => exact ⟨[], text, by rw [eq_of_beq hc, List.nil_append], Nat.succ_pos k⟩
          · obtain ⟨m, hm, -⟩ := Option.map_eq_some_iff.mp h
            obtain ⟨between, rest, rfl, hlength⟩ := ih hm
            refine ⟨c :: between, rest, rfl, ?_⟩
            rw [byteLength_cons]
            omega

/-- Where the text does not go on as a literal, a quote in front of it stands alone. -/
theorem charLiteralLength_eq_zero {text : List Char} (h : ¬ Continues text) :
    charLiteralLength text = 0 := by
  unfold charLiteralLength
  split
  · next rest =>
      split
      · next n hfound =>
          obtain ⟨between, back, rfl, hlength⟩ := exists_of_quoteWithin? hfound
          exact absurd (.escape hlength) h
      · rfl
  · next c rest hbackslash =>
      split
      · next hsize => exact absurd (.character hbackslash (eq_of_beq hsize)) h
      · rfl
  · rfl

end

/-- An identifier is no literal if no quote stands behind it. -/
theorem not_continues_identifier {name : List Char} (hne : name ≠ [])
    (hletters : ∀ c ∈ name, isIdentifierPart c = true) (hafter : after.head? ≠ some '\'') :
    ¬ Continues (name ++ after) := by
  intro h
  obtain ⟨x, name, rfl⟩ := List.exists_cons_of_ne_nil hne
  obtain ⟨hx, hletters⟩ := List.forall_mem_cons.mp hletters
  generalize htext : x :: name ++ after = text at h
  cases h with
  | @character c rest =>
      obtain ⟨-, hname⟩ := List.cons.inj htext
      cases name with
      | nil => exact hafter (by rw [show after = _ from hname, List.head?_cons])
      | cons y name =>
          obtain ⟨rfl, -⟩ := List.cons.inj hname
          exact absurd (hletters '\'' List.mem_cons_self) (by decide)
  | escape =>
      obtain ⟨rfl, -⟩ := List.cons.inj htext
      exact absurd hx (by decide)

/-! ### Character literals -/

private theorem isIdentifierPart_of_isHexDigit (h : isHexDigit c = true) :
    isIdentifierPart c = true := by
  simp only [isHexDigit, Bool.or_eq_true, Bool.and_eq_true, decide_eq_true_eq] at h
  simp only [isIdentifierPart, isNamePart, isAsciiLower, isAsciiUpper, Bool.or_eq_true,
    Bool.and_eq_true, decide_eq_true_eq]
  rcases h with (hdigit | ⟨hle, hge⟩) | ⟨hle, hge⟩
  · exact Or.inl (Or.inl (Or.inr hdigit))
  · exact Or.inl (Or.inl (Or.inl (Or.inl ⟨hle, Char.le_trans hge (by decide)⟩)))
  · exact Or.inl (Or.inl (Or.inl (Or.inr ⟨hle, Char.le_trans hge (by decide)⟩)))

/-- A character of several bytes may stand in an identifier. -/
theorem isIdentifierPart_of_utf8Size_ne (h : c.utf8Size ≠ 1) : isIdentifierPart c = true := by
  rw [isIdentifierPart, Bool.or_eq_true, decide_eq_true_eq]
  rw [Ne, Char.utf8Size_eq_one_iff, UInt32.le_iff_toNat_le] at h
  refine Or.inr (Nat.not_lt.mp fun hlt => h ?_)
  exact Nat.le_of_lt_succ hlt

namespace CharLiteral

variable {l : CharLiteral}

/-- A literal that is taken as a whole is one for the scan, whatever comes behind it. -/
theorem charLiteralLength_text (hl : l.WellFormed) (hwhole : l.TakenWhole) (after : List Char) :
    charLiteralLength (l.text ++ '\'' :: after) = l.text.length + 1 := by
  cases l with
  | character c =>
      obtain ⟨-, hbackslash, -⟩ := hl
      have hsize : c.utf8Size = 1 := hwhole
      simp [text, charLiteralLength, hsize]
  | escape e =>
      have hfound : quoteWithin? 12 (e.text ++ '\'' :: after) = some e.text.length :=
        quoteWithin?_eq_some hwhole.1 hwhole.2
      simp [text, charLiteralLength, hfound]

/-- The scan passes over a character literal that it takes as a whole. -/
theorem passes_of_takenWhole (hl : l.WellFormed) (hwhole : l.TakenWhole) :
    Passes d ('\'' :: (l.text ++ ['\''])) after := by
  refine .quote ?_
  rw [List.append_assoc, List.singleton_append, charLiteralLength_text hl hwhole after,
    List.length_append, List.length_singleton]

end CharLiteral

/-- A single quote stands alone where the text behind it does not go on as a literal. -/
theorem Passes.single (h : charLiteralLength after = 0) : Passes d ['\''] after := quote h

/-- An escape by a code point is passed over as plain text. -/
theorem Escape.passes_unicode {digits : List Char} (hdigits : (unicode digits).WellFormed) :
    Passes d ('\\' :: (unicode digits).text) after := by
  have hidentifier : ∀ c ∈ digits, isIdentifierPart c = true := by
    intro c hc
    rcases hdigits c hc with hhex | rfl
    · exact isIdentifierPart_of_isHexDigit hhex
    · decide
  have hbackslash : Passes d ['\\'] (['u'] ++ ('\x7b' :: (digits ++ ['\x7d'])) ++ after) := by
    refine .plain (by decide) (by decide) ?_ ?_ fun h => absurd h (by decide)
    · cases d <;> decide
    · cases d <;> decide
  have hinside : Passes d ('\x7b' :: (digits ++ ['\x7d'])) after := by
    cases d with
    | braces => exact .group (.identifier hidentifier)
    | brackets =>
        have hopen : Passes .brackets ['\x7b'] (digits ++ (['\x7d'] ++ after)) :=
          .plain (by decide) (by decide) (by decide) (by decide) fun h => absurd h (by decide)
        have hclose : Passes .brackets ['\x7d'] after :=
          .plain (by decide) (by decide) (by decide) (by decide) fun h => absurd h (by decide)
        have hrest : Passes .brackets (digits ++ ['\x7d']) after :=
          (Passes.identifier hidentifier).append hclose
        rw [← List.append_assoc] at hopen
        exact hopen.append hrest
  exact hbackslash.append ((Passes.letter (by decide)).append hinside)

private theorem Escape.quote_not_mem_unicode {digits : List Char}
    (hdigits : (unicode digits).WellFormed) : '\'' ∉ (unicode digits).text := by
  have hquote : '\'' ∉ digits := by
    intro hmem
    rcases hdigits _ hmem with hhex | hunderscore
    · exact absurd hhex (by decide)
    · exact absurd hunderscore (by decide)
  simp [text, hquote]

namespace CharLiteral

/-- An escaped character other than the quote is taken as a whole. -/
theorem takenWhole_simple (h : c ≠ '\'') : (escape (.simple c)).TakenWhole := by
  have hsize := c.utf8Size_le_four
  refine ⟨by simpa [Escape.text] using Ne.symm h, ?_⟩
  simp only [Escape.text, byteLength_cons, byteLength_nil]
  omega

/-- An escaped byte is taken as a whole. -/
theorem takenWhole_byte {high low : Char} (h : (Escape.byte high low).WellFormed) :
    (escape (.byte high low)).TakenWhole := by
  have hquote : isHexDigit '\'' = false := by decide
  have hne : ∀ x, isHexDigit x = true → '\'' ≠ x := by
    rintro x hx rfl
    exact Bool.false_ne_true (hquote.symm.trans hx)
  have hhigh := high.utf8Size_le_four
  have hlow := low.utf8Size_le_four
  refine ⟨by simp [Escape.text, hne high h.1, hne low h.2], ?_⟩
  have hletter : 'x'.utf8Size = 1 := by decide
  simp only [Escape.text, byteLength_cons, byteLength_nil, hletter]
  omega

/-- Any other literal is passed over with its last quote alone, if the text behind it does not go
on as a literal. -/
theorem passes {l : CharLiteral} (hl : l.WellFormed) (hclear : l.TakenWhole ∨ ¬ Continues after) :
    Passes d ('\'' :: (l.text ++ ['\''])) after := by
  by_cases hwhole : l.TakenWhole
  · exact passes_of_takenWhole hl hwhole
  have hlast : Passes d ['\''] after :=
    .single (charLiteralLength_eq_zero (hclear.resolve_left hwhole))
  cases l with
  | character c =>
      obtain ⟨-, hbackslash, -⟩ := hl
      have hsize : c.utf8Size ≠ 1 := hwhole
      have hfirst : Passes d ['\''] ([c] ++ ['\''] ++ after) :=
        .single (by simp [charLiteralLength, hsize])
      have hletter : Passes d [c] (['\''] ++ after) :=
        .letter (isIdentifierPart_of_utf8Size_ne hsize)
      exact hfirst.append (hletter.append hlast)
  | escape e =>
      cases e with
      | simple c =>
          by_cases hc : c = '\''
          · -- the literal is taken up to the quote that is escaped
            obtain rfl := hc
            have hfirst : Passes d ['\'', '\\', '\''] (['\''] ++ after) :=
              .quote (by simp [charLiteralLength, quoteWithin?])
            exact hfirst.append hlast
          · exact absurd (takenWhole_simple hc) hwhole
      | byte high low => exact absurd (takenWhole_byte hl) hwhole
      | unicode digits =>
          have hquote := Escape.quote_not_mem_unicode hl
          have hlong : 12 ≤ byteLength (Escape.unicode digits).text :=
            Nat.not_lt.mp fun hlt => hwhole ⟨hquote, hlt⟩
          have hnone : charLiteralLength
              ('\\' :: ((Escape.unicode digits).text ++ (['\''] ++ after))) = 0 := by
            simp only [charLiteralLength, quoteWithin?_eq_none hquote hlong]
          have hfirst : Passes d ['\'']
              ('\\' :: (Escape.unicode digits).text ++ ['\''] ++ after) := by
            rw [List.append_assoc]
            exact .single hnone
          exact hfirst.append ((Escape.passes_unicode hl).append hlast)

end CharLiteral

/-! ### Blocks -/

namespace Code

variable {code inner rest : Code}

/-- Where no plain slash comes first, a slash in front is the first one of a comment. -/
theorem slash_of_text {back : List Char} (hcode : ¬ code.BeginsPlain '/')
    (h : code.text d ++ d.closing :: after = '/' :: back) : ∃ back', back = '/' :: back' := by
  cases code with
  | nil => cases d <;> cases h
  | plain c rest => exact absurd (List.cons.inj h).1 hcode
  | string | literal | lifetime => cases h
  | comment text rest => exact ⟨_, (List.cons.inj h).2.symm⟩
  | group inner rest => cases d <;> cases h

/-- The scan passes over well-formed code in front of a closing delimiter, if the text is clear. -/
theorem passes_text (hcode : code.WellFormed d) (hclear : code.Clear d after) :
    Passes d (code.text d) (d.closing :: after) := by
  -- the text behind is general, as it decides how a literal and a lifetime are taken
  induction code generalizing after with
  | nil => exact .nil
  | plain c rest ih =>
      obtain ⟨⟨hquote, hsingle, hopening, hclosing⟩, hslash, hrest⟩ := hcode
      have hletter : Passes d [c] (rest.text d ++ d.closing :: after) :=
        .plain hquote hsingle hopening hclosing fun hc _ h => slash_of_text (hslash hc) h
      exact hletter.append (ih hrest hclear)
  | string body rest ih =>
      have hword := (Passes.string hcode.1).append (ih hcode.2 hclear)
      rwa [List.cons_append, List.append_assoc, List.singleton_append] at hword
  | literal l rest ih =>
      have hword := (CharLiteral.passes hcode.1 hclear.1).append (ih hcode.2 hclear.2)
      rwa [List.cons_append, List.append_assoc, List.singleton_append] at hword
  | lifetime name rest ih =>
      obtain ⟨hname, hletters, hbehind, hrest⟩ := hcode
      have hquote : Passes d ['\''] (name ++ rest.text d ++ d.closing :: after) := by
        have hfollowing : (rest.text d ++ d.closing :: after).head? ≠ some '\'' := by
          cases htext : rest.text d with
          | nil => cases d <;> simp [Delimiters.closing]
          | cons c text => rwa [htext] at hbehind
        rw [List.append_assoc]
        exact .single <| charLiteralLength_eq_zero <|
          not_continues_identifier hname hletters hfollowing
      exact hquote.append ((Passes.identifier hletters).append (ih hrest hclear))
  | comment text rest ih =>
      have hword := (Passes.comment hcode.1).append (ih hcode.2 hclear)
      rwa [List.cons_append, List.cons_append, List.append_assoc, List.singleton_append] at hword
  | group inner rest ihinner ihrest =>
      have hword := (Passes.group (ihinner hcode.1 hclear.1)).append (ihrest hcode.2 hclear.2)
      rwa [List.cons_append, List.append_assoc, List.singleton_append] at hword

end Code

/-- A block of well-formed code ends at the delimiter that closes it, whatever text follows, if no
literal that the scan does not take as a whole is followed by what looks like the rest of another
one. The block is captured as a whole and verbatim. -/
theorem block_captured {d : Delimiters} {body : Code} {after : List Char}
    (hbody : body.WellFormed d) (hclear : body.Clear d after) :
    ((blockLength? d.opening d.closing (body.text d ++ d.closing :: after)).map fun n =>
        byteLength ((body.text d ++ d.closing :: after).take n)) = some (byteLength (body.text d)) ∧
      frontLexeme? (d.opening :: (body.text d ++ d.closing :: after)) =
        some (some (d.lexeme (String.ofList (body.text d))), (body.text d).length + 2) := by
  have hlength : blockLength? d.opening d.closing (body.text d ++ d.closing :: after) =
      some (body.text d).length := by
    have hclose : blockScan d.opening d.closing (.plain 0) 1 (d.closing :: after) = some 0 := by
      cases d <;> simp [blockScan, Delimiters.opening, Delimiters.closing]
    have hpassed := Code.passes_text hbody hclear 0
    rw [Nat.zero_add, hclose] at hpassed
    rw [blockLength?, hpassed, Option.map_some, Nat.zero_add]
  have hverbatim : (body.text d ++ d.closing :: after).take (body.text d).length = body.text d :=
    List.take_left
  constructor
  · rw [hlength, Option.map_some, hverbatim]
  · have hfront : frontLexeme? (d.opening :: (body.text d ++ d.closing :: after)) =
        (blockLength? d.opening d.closing (body.text d ++ d.closing :: after)).map fun n =>
          (some (d.lexeme (String.ofList ((body.text d ++ d.closing :: after).take n))),
            n + 2) := by
      cases d <;> rfl
    rw [hfront, hlength, Option.map_some, hverbatim]

/-- Braces in a string, in a group with a lifetime and a literal of two bytes, and in a comment. -/
theorem block_captured_mixed : ∃ body : Code, body.WellFormed .braces ∧ body.Clear .braces [';'] ∧
    frontLexeme? "\x7b\"\x7d\"\x7b'a 'é'\x7d// \x7d\n\x7d;".toList =
      some (some (.code "\"\x7d\"\x7b'a 'é'\x7d// \x7d\n"), 18) := by
  have hgroup : (Code.lifetime ['a'] (.plain ' ' (.literal (.character 'é') .nil))).WellFormed
      .braces := by
    refine ⟨by decide, List.forall_mem_singleton.mpr rfl, by decide, ?_⟩
    exact ⟨by decide, fun h => absurd h (by decide), ⟨by decide, by decide, by decide⟩, trivial⟩
  have hbody : (Code.string ['\x7d'] (.group _ (.comment [' ', '\x7d'] .nil))).WellFormed .braces :=
    ⟨.character (by decide) (by decide) .nil, hgroup, by decide, trivial⟩
  refine ⟨_, hbody, ?_, (block_captured hbody ?_).2⟩
  all_goals exact ⟨⟨Or.inr nofun, trivial⟩, trivial⟩

/-- The last quote of a literal of two bytes is taken for the first one of the next literal, whose
own last quote does not count then: the block has no end. -/
theorem block_not_closed : ∃ body : Code, body.WellFormed .braces ∧
    body.text .braces = "'é','\x7b'".toList ∧
    blockLength? '\x7b' '\x7d' ("'é','\x7b'".toList ++ ['\x7d']) = none :=
  ⟨.literal (.character 'é') (.plain ',' (.literal (.character '\x7b') .nil)),
    ⟨⟨by decide, by decide, by decide⟩, by decide, fun h => absurd h (by decide),
      ⟨by decide, by decide, by decide⟩, trivial⟩, rfl, by decide⟩

/-- So it is behind a quote that is escaped. -/
example : blockLength? '\x7b' '\x7d' ("'\\'','\x7b'".toList ++ ['\x7d']) = none := by decide

end Descent.Description
