import Descent.Artifact.ParserSource
import Descent.Proofs.Description.Elements
import Descent.Proofs.Description.Forms

/-!
# Arguments of calls

An argument is made of plain text, literals and groups in brackets. The brackets and commas
inside a literal count like those outside. So a list of arguments is taken apart into just
these arguments exactly if no literal brings a comma to depth zero and the literals of each
argument but the last close as many brackets as they open, and then the call that is
written passes the arguments as they stand.
-/

namespace Descent.Description

open Descent.Text Descent.Artifact

/-! ### Depth -/

section

variable {depth : Int} {before c : Char} {text front rest : List Char} {piece lead : List Char}

/-- What a character adds to the depth of nesting where angle brackets do not nest. -/
def rise (c : Char) : Int := nesting false '\x00' c

/-- By how much deeper brackets are nested behind the text than in front of it. -/
def climb : List Char → Int
  | [] => 0
  | c :: rest => rise c + climb rest

@[simp] theorem climb_nil : climb [] = 0 := rfl

@[simp] theorem climb_cons : climb (c :: text) = rise c + climb text := rfl

@[simp] theorem climb_append : climb (front ++ rest) = climb front + climb rest := by
  induction front with
  | nil => simp
  | cons c front ih => simp [ih, Int.add_assoc]

/-- No comma of the text, which begins at the depth, is at depth zero. -/
def Uncut : Int → List Char → Prop
  | _, [] => True
  | depth, c :: rest => (c = ',' → depth ≠ 0) ∧ Uncut (depth + rise c) rest

/-- A text is cut nowhere if its front is not, nor the rest from the depth behind the front on. -/
theorem uncut_append :
    Uncut depth (front ++ rest) ↔ Uncut depth front ∧ Uncut (depth + climb front) rest := by
  induction front generalizing depth with
  | nil => simp [Uncut]
  | cons c front ih => simp [Uncut, ih, and_assoc, Int.add_assoc]

private theorem nesting_false : nesting false before c = rise c := by simp [nesting, rise]

/-- A piece of plain text is cut nowhere and closes what it opens. -/
theorem isPiece_iff : isPiece false depth before text = true ↔
    Uncut depth text ∧ depth + climb text = 0 := by
  induction text generalizing depth before with
  | nil => simp [isPiece, Uncut]
  | cons c text ih =>
      rw [isPiece_cons, ih, nesting_false]
      simp [Uncut, and_assoc, Int.add_assoc]

/-! ### Elements -/

/-- The character in front of a text matters only for the head of an arrow. -/
theorem cutAtCommas_before {angles : Bool} (h : angles = false ∨ before ≠ '-') :
    cutAtCommas angles depth before piece text = cutAtCommas angles depth '\x00' piece text := by
  cases text with
  | nil => rfl
  | cons c text =>
      have hnesting : nesting angles before c = nesting angles '\x00' c := by
        rcases h with rfl | h
        · rw [nesting_false, nesting_false]
        · exact nesting_before h
      rw [cutAtCommas, cutAtCommas, hnesting]

/-- What stands before a text is put in front of its first piece. -/
theorem cutAtCommas_append {angles : Bool} :
    cutAtCommas angles depth before (piece ++ lead) text =
      (cutAtCommas angles depth before piece text).modifyHead (lead.reverse ++ ·) := by
  induction text generalizing depth before piece with
  | nil => simp [cutAtCommas]
  | cons c text ih =>
      by_cases hcut : (c == ',' && depth == 0) = true
      · simp [cutAtCommas, hcut]
      · rw [cutAtCommas, cutAtCommas, if_neg hcut, if_neg hcut, ← List.cons_append, ih]

/-- A text is not cut, or it is cut at the first comma at depth zero. -/
theorem cutAtCommas_cases (depth : Int) (before : Char) (piece text : List Char) :
    (Uncut depth text ∧ cutAtCommas false depth before piece text = [piece.reverse ++ text]) ∨
      ∃ front rest, text = front ++ ',' :: rest ∧ Uncut depth front ∧ depth + climb front = 0 ∧
        cutAtCommas false depth before piece text =
          (piece.reverse ++ front) :: cutAtCommas false 0 ',' [] rest := by
  induction text generalizing depth before piece with
  | nil => simp [Uncut, cutAtCommas]
  | cons c text ih =>
      by_cases hcut : c = ',' ∧ depth = 0
      · obtain ⟨rfl, rfl⟩ := hcut
        right
        exact ⟨[], text, rfl, trivial, by simp, by simp [cutAtCommas]⟩
      · have hc : c = ',' → depth ≠ 0 := not_and.mp hcut
        have hstep : cutAtCommas false depth before piece (c :: text) =
            cutAtCommas false (depth + rise c) c (c :: piece) text := by
          rw [cutAtCommas, if_neg (by simpa using hcut), nesting_false]
        rw [hstep]
        rcases ih (depth + rise c) c (c :: piece) with
          ⟨huncut, heq⟩ | ⟨front, rest, rfl, huncut, hzero, heq⟩
        · left
          exact ⟨⟨hc, huncut⟩, by simp [heq]⟩
        · right
          exact ⟨c :: front, rest, rfl, ⟨hc, huncut⟩, by simpa [Int.add_assoc] using hzero,
            by simp [heq]⟩

/-- What stands between the commas at depth zero, without the white space around it. -/
def elements (text : List Char) : List (List Char) :=
  (cutAtCommas false 0 '\x00' [] text).map trim

/-- A blank in front of a list changes none of its elements. -/
theorem elements_blank (hc : isBlank c = true) (hne : c ≠ ',') (hrise : rise c = 0) :
    elements (c :: text) = elements text := by
  have hcut : (c == ',' && (0 : Int) == 0) = false := by simpa using hne
  have hpiece : cutAtCommas false 0 '\x00' ([] ++ [c]) text = _ := cutAtCommas_append
  rw [elements, cutAtCommas, hcut, if_neg Bool.false_ne_true, nesting_false, hrise,
    cutAtCommas_before (.inl rfl), ← List.nil_append [c], Int.add_zero, hpiece, elements]
  cases cutAtCommas false 0 '\x00' [] text with
  | nil => rfl
  | cons p ps => simp [trim_cons_of_isBlank hc]

/-- A text is a single element, or it has a first comma that separates. -/
theorem elements_cases (text : List Char) :
    (Uncut 0 text ∧ elements text = [trim text]) ∨
      ∃ front rest, text = front ++ ',' :: rest ∧ Uncut 0 front ∧ climb front = 0 ∧
        elements text = trim front :: elements rest := by
  rcases cutAtCommas_cases 0 '\x00' [] text with
    ⟨huncut, heq⟩ | ⟨front, rest, htext, huncut, hzero, heq⟩
  · exact .inl ⟨huncut, by simp [elements, heq]⟩
  · refine .inr ⟨front, rest, htext, huncut, by simpa using hzero, ?_⟩
    rw [elements, heq, cutAtCommas_before (.inl rfl)]
    rfl

/-- A text that is cut nowhere is a single element. -/
theorem elements_of_uncut (h : Uncut 0 text) : elements text = [trim text] := by
  rcases elements_cases text with ⟨-, heq⟩ | ⟨front, rest, rfl, -, hzero, -⟩
  · exact heq
  · rw [uncut_append, hzero] at h
    exact absurd rfl (h.2.1 rfl)

/-- The first comma that separates ends the first element. -/
theorem elements_comma (h : Uncut 0 front) (hzero : climb front = 0) :
    elements (front ++ ',' :: rest) = trim front :: elements rest := by
  have hpiece : isPiece false 0 '\x00' front = true := isPiece_iff.mpr ⟨h, by simpa using hzero⟩
  rw [elements, cutAtCommas_piece_comma hpiece, cutAtCommas_before (.inl rfl)]
  rfl

/-- Every text has an element. -/
theorem elements_ne_nil : elements text ≠ [] := by
  rcases elements_cases text with ⟨-, heq⟩ | ⟨front, rest, -, -, -, heq⟩ <;> simp [heq]

end

/-! ### Lists of elements -/

section

variable {c : Char} {t text front rest rest' : List Char} {ts : List (List Char)}

/-- The text is not blank and has no white space at its ends. -/
structure IsTrimmed (text : List Char) : Prop where
  notBlank : text.all isBlank = false
  trimmed : trim text = text

private theorem length_trim_le : (trim text).length ≤ text.length := by
  have hfront := List.length_dropWhile_le isBlank text
  have hback := List.length_dropWhile_le isBlank (text.dropWhile isBlank).reverse
  rw [List.length_reverse] at hback
  rw [trim, trimEnd, List.length_reverse]
  exact hback.trans hfront

/-- A trimmed text begins with a character that is not blank. -/
theorem IsTrimmed.exists_head (h : IsTrimmed text) :
    ∃ c rest, text = c :: rest ∧ isBlank c = false := by
  cases text with
  | nil => simpa using h.notBlank
  | cons c rest =>
      refine ⟨c, rest, rfl, ?_⟩
      by_contra hblank
      have hlength : (trim rest).length ≤ rest.length := length_trim_le
      rw [← trim_cons_of_isBlank (by simpa using hblank), h.trimmed, List.length_cons] at hlength
      omega

/-- A text is what is left of it without the white space at its end, and this white space. -/
theorem exists_of_trimEnd (text : List Char) :
    ∃ blanks, text = trimEnd text ++ blanks ∧ ∀ c ∈ blanks, isBlank c = true := by
  refine ⟨(text.reverse.takeWhile isBlank).reverse, ?_, fun c hc => ?_⟩
  · rw [trimEnd, ← List.reverse_append, List.takeWhile_append_dropWhile, List.reverse_reverse]
  · exact List.mem_takeWhile_imp (List.mem_reverse.mp hc)

/-- Where a text goes on with a comma, white space does not belong to it. -/
theorem eq_of_trim_eq (ht : IsTrimmed t) (h : front ++ ',' :: rest = t ++ ',' :: rest')
    (htrim : trim front = t) : front = t := by
  obtain ⟨c, tail, rfl, hc⟩ := ht.exists_head
  cases front with
  | nil => cases htrim
  | cons d front =>
      obtain rfl : d = c := (List.cons.inj h).1
      rw [trim, List.dropWhile_cons_of_neg (by simp [hc])] at htrim
      obtain ⟨blanks, hsplit, hblanks⟩ := exists_of_trimEnd (d :: front)
      rw [htrim] at hsplit
      -- white space that was left out would begin with the comma
      cases blanks with
      | nil => simpa using hsplit
      | cons b blanks =>
          rw [hsplit, List.append_assoc, List.append_cancel_left_eq] at h
          obtain rfl : b = ',' := (List.cons.inj h).1
          have hcomma : isBlank ',' = true := hblanks ',' List.mem_cons_self
          exact absurd hcomma (by decide)

/-- A trimmed text is its only element exactly if it is cut nowhere. -/
theorem elements_eq_singleton_iff (ht : IsTrimmed t) : elements t = [t] ↔ Uncut 0 t := by
  constructor
  · intro h
    rcases elements_cases t with ⟨huncut, -⟩ | ⟨front, rest, -, -, -, heq⟩
    · exact huncut
    · rw [heq] at h
      exact absurd (List.cons.inj h).2 elements_ne_nil
  · intro h
    rw [elements_of_uncut h, ht.trimmed]

/-- A comma and a blank behind the first element part it from the others exactly if it is not cut
and closes what it opens. -/
theorem elements_append_iff (ht : IsTrimmed t) (hne : ts ≠ []) :
    elements (t ++ ',' :: ' ' :: rest) = t :: ts ↔
      (Uncut 0 t ∧ climb t = 0) ∧ elements rest = ts := by
  have hblank : elements (' ' :: rest) = elements rest :=
    elements_blank (by decide) (by decide) (by decide)
  constructor
  · intro h
    rcases elements_cases (t ++ ',' :: ' ' :: rest) with
      ⟨-, heq⟩ | ⟨front, back, hsplit, huncut, hzero, heq⟩
    · rw [heq] at h
      exact absurd (List.cons.inj h).2.symm hne
    · rw [heq] at h
      obtain ⟨htrim, hback⟩ := List.cons.inj h
      obtain rfl : front = t := eq_of_trim_eq ht hsplit.symm htrim
      obtain ⟨-, rfl⟩ := List.cons.inj (List.append_cancel_left hsplit)
      exact ⟨⟨huncut, hzero⟩, hblank.symm.trans hback⟩
  · rintro ⟨⟨huncut, hzero⟩, hrest⟩
    rw [elements_comma huncut hzero, hblank, ht.trimmed, hrest]

/-- A list is taken apart into the texts that it is made of exactly if none of them is cut and each
but the last closes what it opens. -/
theorem elements_intercalate_iff (hne : ts ≠ []) (h : ∀ t ∈ ts, IsTrimmed t) :
    elements ([',', ' '].intercalate ts) = ts ↔
      (∀ t ∈ ts, Uncut 0 t) ∧ ∀ t ∈ ts.dropLast, climb t = 0 := by
  induction ts with
  | nil => exact absurd rfl hne
  | cons t ts ih =>
      obtain ⟨ht, hts⟩ := List.forall_mem_cons.mp h
      -- no comma stands behind the last text, so it may leave brackets open
      cases ts with
      | nil => simp [elements_eq_singleton_iff ht]
      | cons t' ts =>
          rw [List.intercalate_cons_cons, List.append_assoc]
          simp only [List.cons_append, List.nil_append]
          rw [elements_append_iff ht (List.cons_ne_nil t' ts), ih (List.cons_ne_nil t' ts) hts,
            List.dropLast_cons_cons]
          simp only [List.forall_mem_cons]
          tauto

end

/-! ### Expressions -/

/-- The brackets that can be around a group. -/
inductive Enclosure where
  | round
  | square
  | curly
deriving DecidableEq, Repr

namespace Enclosure

/-- The character that opens the enclosure. -/
def opening : Enclosure → Char
  | round => '('
  | square => '['
  | curly => '\x7b'

/-- The character that closes the enclosure. -/
def closing : Enclosure → Char
  | round => ')'
  | square => ']'
  | curly => '\x7d'

variable (b : Enclosure)

private theorem rise_opening : rise b.opening = 1 := by cases b <;> rfl

private theorem rise_closing : rise b.closing = -1 := by cases b <;> rfl

private theorem ne_comma : b.opening ≠ ',' ∧ b.closing ≠ ',' := by cases b <;> decide

end Enclosure

/-- An expression as a sequence of pieces: plain text, given character by character, literals with
any text between their quotes, and groups in brackets. -/
inductive Expression where
  | nil
  | plain (c : Char) (rest : Expression)
  | literal (quote : Char) (body : List Char) (rest : Expression)
  | group (b : Enclosure) (inner rest : Expression)
deriving DecidableEq, Repr

namespace Expression

/-- The expression as it is written. -/
def text : Expression → List Char
  | nil => []
  | plain c rest => c :: rest.text
  | literal quote body rest => quote :: (body ++ quote :: rest.text)
  | group b inner rest => b.opening :: (inner.text ++ b.closing :: rest.text)

/-- Plain text is without quotes and brackets, and literals are in quotes. -/
def WellFormed : Expression → Prop
  | nil => True
  | plain c rest => c ∉ ['"', '\'', '(', ')', '[', ']', '\x7b', '\x7d'] ∧ rest.WellFormed
  | literal quote _ rest => quote ∈ ['"', '\''] ∧ rest.WellFormed
  | group _ inner rest => inner.WellFormed ∧ rest.WellFormed

/-- There is no comma outside literals and groups. -/
def Commaless : Expression → Prop
  | nil => True
  | plain c rest => c ≠ ',' ∧ rest.Commaless
  | literal _ _ rest => rest.Commaless
  | group _ _ rest => rest.Commaless

/-- By how much more brackets the literals open than they close. -/
def drift : Expression → Int
  | nil => 0
  | plain _ rest => rest.drift
  | literal _ body rest => climb body + rest.drift
  | group _ inner rest => inner.drift + rest.drift

/-- With the brackets in literals counted like the others, no comma is at depth zero. -/
def Unbroken : Int → Expression → Prop
  | _, nil => True
  | depth, plain c rest => (c = ',' → depth ≠ 0) ∧ rest.Unbroken depth
  | depth, literal _ body rest => Uncut depth body ∧ rest.Unbroken (depth + climb body)
  | depth, group _ inner rest => inner.Unbroken (depth + 1) ∧ rest.Unbroken (depth + inner.drift)

/-- Each literal closes what it opens, and has no comma at depth zero where it stands. -/
def Quiet : Int → Expression → Prop
  | _, nil => True
  | depth, plain _ rest => rest.Quiet depth
  | depth, literal _ body rest => (Uncut depth body ∧ climb body = 0) ∧ rest.Quiet depth
  | depth, group _ inner rest => inner.Quiet (depth + 1) ∧ rest.Quiet depth

variable {e : Expression} {depth : Int}

/-- Plain text does not change the depth. -/
theorem rise_plain {c : Char} (h : c ∉ ['"', '\'', '(', ')', '[', ']', '\x7b', '\x7d']) :
    rise c = 0 := by
  simp only [List.mem_cons, not_or] at h
  simp [rise, nesting, h]

private theorem quote_eq {quote : Char} (h : quote ∈ ['"', '\'']) :
    rise quote = 0 ∧ quote ≠ ',' := by
  simp only [List.mem_cons, List.not_mem_nil, or_false] at h
  rcases h with rfl | rfl <;> decide

/-- Behind an expression brackets are nested as deep as its literals leave them. -/
theorem climb_text (h : e.WellFormed) : climb e.text = e.drift := by
  induction e with
  | nil => rfl
  | plain c rest ih => simp [text, drift, rise_plain h.1, ih h.2]
  | literal quote body rest ih => simp [text, drift, (quote_eq h.1).1, ih h.2]
  | group b inner rest ihInner ih =>
      simp only [text, drift, climb_cons, climb_append, b.rise_opening, b.rise_closing,
        ihInner h.1, ih h.2]
      omega

/-- The text of an expression is cut nowhere exactly if the expression is unbroken. -/
theorem uncut_text_iff (h : e.WellFormed) : Uncut depth e.text ↔ e.Unbroken depth := by
  induction e generalizing depth with
  | nil => rfl
  | plain c rest ih => simp [text, Uncut, Unbroken, rise_plain h.1, ih h.2]
  | literal quote body rest ih =>
      obtain ⟨hrise, hne⟩ := quote_eq h.1
      simp [text, Uncut, Unbroken, uncut_append, hrise, hne, ih h.2]
  | group b inner rest ihInner ih =>
      have hdepth : depth + 1 + inner.drift + -1 = depth + inner.drift := by omega
      simp [text, Uncut, Unbroken, uncut_append, b.rise_opening, b.rise_closing, b.ne_comma,
        climb_text h.1, hdepth, ihInner h.1, ih h.2]

/-- A quiet expression ends at the depth at which it began. -/
theorem Quiet.drift_eq (h : e.Quiet depth) : e.drift = 0 := by
  induction e generalizing depth with
  | nil => rfl
  | plain c rest ih => exact ih h
  | literal quote body rest ih => rw [drift, h.1.2, ih h.2, Int.add_zero]
  | group b inner rest ihInner ih => rw [drift, ihInner h.1, ih h.2, Int.add_zero]

/-- In a group, or without commas outside groups, quiet literals break nothing. -/
theorem Quiet.unbroken (h : e.Quiet depth) (hdepth : 0 ≤ depth)
    (hcomma : depth = 0 → e.Commaless) : e.Unbroken depth := by
  induction e generalizing depth with
  | nil => trivial
  | plain c rest ih =>
      exact ⟨fun hc hzero => (hcomma hzero).1 hc, ih h hdepth fun hzero => (hcomma hzero).2⟩
  | literal quote body rest ih =>
      obtain ⟨⟨huncut, hclimb⟩, hrest⟩ := h
      refine ⟨huncut, ?_⟩
      rw [hclimb, Int.add_zero]
      exact ih hrest hdepth hcomma
  | group b inner rest ihInner ih =>
      obtain ⟨hinner, hrest⟩ := h
      refine ⟨ihInner hinner (by omega) fun hzero => by omega, ?_⟩
      rw [hinner.drift_eq, Int.add_zero]
      exact ih hrest hdepth hcomma

/-- The expression can be an argument. -/
structure IsArgument (e : Expression) : Prop where
  wellFormed : e.WellFormed
  commaless : e.Commaless
  isTrimmed : IsTrimmed e.text

/-- The expression as a string. -/
def source (e : Expression) : String := String.ofList e.text

end Expression

/-! ### Calls -/

/-- The arguments as they stand in a block, with a comma and a blank between any two. -/
def argumentBlock (es : List Expression) : String := ", ".intercalate (es.map (·.source))

/-- The block of the arguments is taken apart into these, and the call that is written for an atom
with the block passes the block as it stands. -/
structure PassedOn (es : List Expression) : Prop where
  split : splitTopLevel false (argumentBlock es) = es.map (·.source)
  call : ∀ g kinds a words, AtomForm a words → .bracket (argumentBlock es) ∈ words →
    atomLines g kinds a =
      ("                let " ++ a.binding ++ ": " ++ ruleType g a.name ++ " = self.parse_" ++
        a.name ++ "(" ++ argumentBlock es ++ ")?;") :: codeLine a.action

variable {es : List Expression} {g : Grammar} {kinds : String} {a : Atom} {words : List Lexeme}

/-- The call of an atom with a block passes the elements of the block. -/
theorem AtomForm.atomLines_eq {block : String} (h : AtomForm a words)
    (hb : .bracket block ∈ words) : atomLines g kinds a =
      ("                let " ++ a.binding ++ ": " ++ ruleType g a.name ++ " = self.parse_" ++
        a.name ++ "(" ++ ", ".intercalate (splitTopLevel false block) ++ ")?;") ::
          codeLine a.action := by
  rcases h with ⟨binding, name, action⟩ | ⟨binding, name, arguments, action⟩
  · cases binding <;> simp [bindingWords, codeWords] at hb
  · obtain rfl : arguments = some block := by
      cases binding <;> simpa [bindingWords, codeWords, bracketWords] using hb
    rfl

/-- A block of arguments is their texts with a comma and a blank between them. -/
theorem toList_argumentBlock :
    (argumentBlock es).toList = [',', ' '].intercalate (es.map (·.text)) := by
  rw [argumentBlock, String.toList_intercalate, List.map_map]
  congr 1
  simp [Expression.source, Function.comp_def]

/-- A block of arguments is split into the elements of the arguments joined by commas. -/
theorem splitTopLevel_argumentBlock (hne : es ≠ []) (h : ∀ e ∈ es, e.IsArgument) :
    splitTopLevel false (argumentBlock es) =
      (elements ([',', ' '].intercalate (es.map (·.text)))).map String.ofList := by
  have hblank : (argumentBlock es).toList.all isBlank = false := by
    rw [toList_argumentBlock]
    cases es with
    | nil => exact absurd rfl hne
    | cons e es =>
        have he := (h e List.mem_cons_self).isTrimmed.notBlank
        cases es with
        | nil => simpa using he
        | cons e' es => simp [List.intercalate_cons_cons, List.all_append, he]
  rw [splitTopLevel, hblank, if_neg Bool.false_ne_true, toList_argumentBlock, elements,
    List.map_map]
  rfl

/-- The block of the arguments is taken apart into these exactly if no comma of theirs is at depth
zero and the literals of each but the last close what they open. -/
theorem splitTopLevel_argumentBlock_iff (hne : es ≠ []) (h : ∀ e ∈ es, e.IsArgument) :
    splitTopLevel false (argumentBlock es) = es.map (·.source) ↔
      (∀ e ∈ es, e.Unbroken 0) ∧ ∀ e ∈ es.dropLast, e.drift = 0 := by
  have hinjective : Function.Injective (List.map String.ofList) :=
    List.map_injective_iff.mpr fun _ _ heq => String.ofList_inj.mp heq
  have hsource : es.map (·.source) = (es.map (·.text)).map String.ofList := by
    rw [List.map_map]
    rfl
  have htrimmed : ∀ t ∈ es.map (·.text), IsTrimmed t :=
    List.forall_mem_map.mpr fun e he => (h e he).isTrimmed
  have hnil : es.map (·.text) ≠ [] := by simpa using hne
  rw [splitTopLevel_argumentBlock hne h, hsource, hinjective.eq_iff,
    elements_intercalate_iff hnil htrimmed, ← List.map_dropLast, List.forall_mem_map,
    List.forall_mem_map]
  refine and_congr (forall₂_congr fun e he => ?_) (forall₂_congr fun e he => ?_)
  · exact Expression.uncut_text_iff (h e he).wellFormed
  · rw [Expression.climb_text (h e (List.dropLast_subset es he)).wellFormed]

/-- A list of arguments is passed on as it stands exactly if no literal brings a comma to depth zero
and the literals of each argument but the last close what they open. -/
theorem arguments_passed_on (es : List Expression) (hne : es ≠ [])
    (h : ∀ e ∈ es, e.IsArgument) :
    (PassedOn es ↔ (∀ e ∈ es, e.Unbroken 0) ∧ ∀ e ∈ es.dropLast, e.drift = 0) ∧
      ((∀ e ∈ es, e.Quiet 0) → PassedOn es) := by
  have hsplit := splitTopLevel_argumentBlock_iff hne h
  have hexact : PassedOn es ↔ (∀ e ∈ es, e.Unbroken 0) ∧ ∀ e ∈ es.dropLast, e.drift = 0 := by
    refine ⟨fun hpassed => hsplit.mp hpassed.split, fun hwhole => ⟨hsplit.mpr hwhole, ?_⟩⟩
    intro g kinds a words ha hblock
    rw [ha.atomLines_eq hblock, hsplit.mpr hwhole, argumentBlock]
  refine ⟨hexact, fun hquiet => hexact.mpr ⟨fun e he => ?_, fun e he => ?_⟩⟩
  · exact (hquiet e he).unbroken (Int.le_refl 0) fun _ => (h e he).commaless
  · exact (hquiet e (List.dropLast_subset es he)).drift_eq

/-- A call with a list in a string and the character of a bracket: the first literal is quiet and
the second is in the last argument. -/
theorem arguments_passed_on_literals :
    let call : Expression := .plain 'f' (.group .round
      (.plain 'x' (.plain ',' (.literal '"' ['a', ',', 'b'] .nil))) .nil)
    let bracket : Expression := .literal '\'' ['('] .nil
    [call, bracket] ≠ [] ∧ (∀ e ∈ [call, bracket], e.IsArgument) ∧ PassedOn [call, bracket] := by
  intro call bracket
  have hcall : call.IsArgument :=
    ⟨by simp [call, Expression.WellFormed], by simp [call, Expression.Commaless],
      ⟨by decide, by decide⟩⟩
  have hbracket : bracket.IsArgument :=
    ⟨by simp [bracket, Expression.WellFormed], trivial, ⟨by decide, by decide⟩⟩
  have hne : [call, bracket] ≠ [] := List.cons_ne_nil _ _
  have harguments : ∀ e ∈ [call, bracket], e.IsArgument :=
    List.forall_mem_cons.mpr ⟨hcall, List.forall_mem_singleton.mpr hbracket⟩
  refine ⟨hne, harguments, (arguments_passed_on _ hne harguments).1.mpr ⟨?_, ?_⟩⟩
  · simp [call, bracket, Expression.Unbroken, Uncut, rise, nesting]
  · simp [call, Expression.drift, rise, nesting]

/-- A string of a comma is taken apart at the comma. -/
theorem not_split_into_arguments : ¬ ∀ es : List Expression, es ≠ [] → (∀ e ∈ es, e.IsArgument) →
    splitTopLevel false (argumentBlock es) = es.map (·.source) := by
  intro hall
  have hcomma : (Expression.literal '"' [','] .nil).IsArgument :=
    ⟨by simp [Expression.WellFormed], trivial, ⟨by decide, by decide⟩⟩
  have h := hall [.literal '"' [','] .nil] (List.cons_ne_nil _ _)
    (List.forall_mem_singleton.mpr hcomma)
  exact absurd h (by decide)

end Descent.Description
