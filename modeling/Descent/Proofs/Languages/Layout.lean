import Descent.Proofs.Languages.Evaluation
import Descent.Proofs.Languages.Rules
import Descent.Proofs.Languages.SumText
import Descent.Proofs.Tokens.Insertion

/-!
# Layout in expressions

White space and comments that a new line ends change nothing of a calculation, wherever
they are put between the tokens of a text. A text is skipped as far as it is such layout,
and a comment may be open at its end.
-/

namespace Descent.Languages

/-- The failure with another token in the place of the one that was found. -/
def Failure.mapToken (f : Token → Token) : Failure → Failure
  | pattern => pattern
  | parse e => parse (e.mapToken f)
  | file path e => file path e

namespace Calculator

open Descent.Parser Descent.Text Descent.Pattern

/-! ### The lexicon with its patterns compiled -/

/-- Any character but that of a new line. -/
def lineRest : CharSet := ⟨[(0, 9), (11, maxCodePoint)]⟩

private theorem contains_lineRest (c : Char) : lineRest.contains c = (c != '\n') := by
  have hmax : c.toNat ≤ maxCodePoint := by
    have hvalid := c.valid
    rw [UInt32.isValidChar, Nat.isValidChar] at hvalid
    rw [maxCodePoint]
    change c.val.toNat ≤ 1114111
    omega
  have hline : c = '\n' ↔ c.toNat = 10 := by
    rw [← Char.toNat_inj]
    rfl
  rw [Bool.eq_iff_iff, bne_iff_ne, Ne, hline]
  simp only [lineRest, CharSet.contains, CharSet.containsNat, List.any_cons, List.any_nil,
    Bool.or_eq_true, Bool.and_eq_true, decide_eq_true_eq, Bool.false_eq_true, or_false]
  omega

/-- The rule of numbers. -/
def numberRule : LexemeRule Kind := ⟨.num, Kind.num.name, .run Sum.digits⟩

/-- The rule of a kind whose tokens are a certain character. -/
def signRule (kind : Kind) (c : Char) : LexemeRule Kind :=
  ⟨kind, kind.name, .letter (.singleton c)⟩

/-- The rules of the signs and the parentheses. -/
def signRules : List (LexemeRule Kind) :=
  [signRule .plus '+', signRule .minus '-', signRule .star '*', signRule .slash '/',
    signRule .lparen '(', signRule .rparen ')']

/-- The lexicon of the calculator, with its patterns compiled. -/
def lexicon : Lexicon Kind where
  skips := [.run whiteSpace, .led (.singleton '#') lineRest]
  rules := numberRule :: signRules
  endKind := .finish

private theorem lexicon?_eq : lexicon? = some lexicon := by
  have hcomment : compileAnchored? "#[^\\n]*" = some (.led (.singleton '#') lineRest) :=
    compileAnchored?_led (by decide +kernel) (by decide +kernel) rfl
  have hminus : compileAnchored? "-" = some (.letter (.singleton '-')) :=
    compileAnchored?_letter (by decide +kernel) (by decide +kernel)
  have hstar : compileAnchored? "\\*" = some (.letter (.singleton '*')) :=
    compileAnchored?_letter (by decide +kernel) (by decide +kernel)
  have hslash : compileAnchored? "/" = some (.letter (.singleton '/')) :=
    compileAnchored?_letter (by decide +kernel) (by decide +kernel)
  have hopening : compileAnchored? "\\(" = some (.letter (.singleton '(')) :=
    compileAnchored?_letter (by decide +kernel) (by decide +kernel)
  have hclosing : compileAnchored? "\\)" = some (.letter (.singleton ')')) :=
    compileAnchored?_letter (by decide +kernel) (by decide +kernel)
  simp [lexicon?, Lexicon.ofPatterns?, skipPatterns, tokenPatterns, Sum.compileAnchored?_blanks,
    hcomment, Sum.compileAnchored?_digits, Sum.compileAnchored?_plus, hminus, hstar, hslash,
    hopening, hclosing, lexicon, numberRule, signRules, signRule]

/-! ### What is skipped -/

/-- White space is skipped, as much as there is. -/
theorem skipLength?_of_blank {c : Char} (hc : isBlank c = true) (rest : List Char) :
    lexicon.skipLength? (c :: rest) = some ((c :: rest).takeWhile isBlank).length := by
  have hpos : 0 < ((c :: rest).takeWhile isBlank).length := by
    rw [List.takeWhile_cons_of_pos hc]
    exact Nat.succ_pos _
  have hfind : (Compiled.run whiteSpace).find (c :: rest) =
      some (0, ((c :: rest).takeWhile isBlank).length) := by
    rw [Compiled.find_run_cons]
    exact if_pos hc
  rw [Lexicon.skipLength?, lexicon, List.findSome?_cons, hfind, Option.bind_some, if_pos hpos]

/-- Behind its first character a comment takes the rest of the line. -/
theorem skipLength?_comment (rest : List Char) :
    lexicon.skipLength? ('#' :: rest) = some (1 + (rest.takeWhile (· != '\n')).length) := by
  have hline : lineRest.contains = (· != '\n') := funext contains_lineRest
  have hspace : (Compiled.run whiteSpace).find ('#' :: rest) = none := by
    rw [Compiled.find_run_cons]
    exact if_neg (by decide)
  have hcomment : (Compiled.led (.singleton '#') lineRest).find ('#' :: rest) =
      some (0, 1 + (rest.takeWhile (· != '\n')).length) := by
    rw [Compiled.find_led_cons, if_pos (CharSet.contains_singleton.mpr rfl), hline]
  rw [Lexicon.skipLength?, lexicon, List.findSome?_cons, hspace, Option.bind_none,
    List.findSome?_cons, hcomment, Option.bind_some, if_pos (by omega)]

/-- The text does not begin with layout. -/
def Stops (text : List Char) : Prop := ∀ c ∈ text.head?, isBlank c = false ∧ c ≠ '#'

private theorem stops_nil : Stops [] := fun _ hc => nomatch hc

private theorem skipLength?_of_stops {text : List Char} (h : Stops text) :
    lexicon.skipLength? text = none := by
  have hspace : (Compiled.run whiteSpace).find text = none := by
    cases text with
    | nil => exact Compiled.find_run_nil
    | cons c rest =>
        rw [Compiled.find_run_cons]
        exact if_neg (Bool.eq_false_iff.mp (h c rfl).1)
  have hcomment : (Compiled.led (.singleton '#') lineRest).find text = none := by
    cases text with
    | nil => exact Compiled.find_led_nil
    | cons c rest =>
        rw [Compiled.find_led_cons]
        exact if_neg fun hc => (h c rfl).2 (CharSet.contains_singleton.mp hc)
  rw [Lexicon.skipLength?, lexicon, List.findSome?_cons, hspace, Option.bind_none,
    List.findSome?_cons, hcomment, Option.bind_none, List.findSome?_nil]

private theorem skipText_of_stops {text : List Char} (h : Stops text) :
    lexicon.skipText text = text :=
  Lexicon.skipText_of_none (skipLength?_of_stops h)

/-- White space does not matter in front of a text. -/
theorem skipText_blank {c : Char} (hc : isBlank c = true) (rest : List Char) :
    lexicon.skipText (c :: rest) = lexicon.skipText rest := by
  have hdrop : ∀ text : List Char,
      lexicon.skipText text = lexicon.skipText (text.dropWhile isBlank) := by
    intro text
    cases text with
    | nil => rfl
    | cons d rest =>
        by_cases hd : isBlank d = true
        · rw [Lexicon.skipText_of_some (skipLength?_of_blank hd rest), drop_length_takeWhile]
        · rw [List.dropWhile_cons_of_neg hd]
  rw [hdrop (c :: rest), List.dropWhile_cons_of_pos hc, ← hdrop]

/-- Behind its first character a comment is skipped up to the end of the line. -/
theorem skipText_comment (rest : List Char) :
    lexicon.skipText ('#' :: rest) = lexicon.skipText (rest.dropWhile (· != '\n')) := by
  rw [Lexicon.skipText_of_some (skipLength?_comment rest), Nat.add_comm, List.drop_succ_cons,
    drop_length_takeWhile]

/-! ### Layout -/

/-- White space and comments, each of them ended by a new line. -/
inductive IsLayout : List Char → Prop where
  | nil : IsLayout []
  | blank {c : Char} {rest : List Char} (hc : isBlank c = true) (hrest : IsLayout rest) :
      IsLayout (c :: rest)
  | comment {body rest : List Char} (hbody : '\n' ∉ body) (hrest : IsLayout rest) :
      IsLayout ('#' :: (body ++ '\n' :: rest))

/-- A text without a new line has none in front of the first one either. -/
theorem dropWhile_line {body : List Char} (hbody : '\n' ∉ body) (rest : List Char) :
    (body ++ rest).dropWhile (· != '\n') = rest.dropWhile (· != '\n') :=
  List.dropWhile_append_of_pos fun _ hc => bne_iff_ne.mpr fun h => hbody (h ▸ hc)

namespace IsLayout

variable {u v back text : List Char}

/-- Layout behind layout is layout. -/
theorem append (hu : IsLayout u) (hv : IsLayout v) : IsLayout (u ++ v) := by
  induction hu with
  | nil => exact hv
  | blank hc _ ih => exact .blank hc ih
  | comment hbody _ ih =>
      rw [List.cons_append, List.append_assoc, List.cons_append]
      exact .comment hbody ih

/-- Layout is skipped in front of any text. -/
theorem skipText_append (hu : IsLayout u) (text : List Char) :
    lexicon.skipText (u ++ text) = lexicon.skipText text := by
  induction hu with
  | nil => rfl
  | blank hc _ ih => rw [List.cons_append, skipText_blank hc, ih]
  | comment hbody _ ih =>
      rw [List.cons_append, List.append_assoc, skipText_comment, dropWhile_line hbody,
        List.cons_append, List.dropWhile_cons_of_neg (by decide), skipText_blank (by decide), ih]

/-- The rest of the first line can be taken from layout. -/
theorem dropWhile_line (hu : IsLayout u) : IsLayout (u.dropWhile (· != '\n')) := by
  induction hu with
  | nil => exact .nil
  | @blank c rest hc hrest ih =>
      rw [List.dropWhile_cons]
      split
      · exact ih
      · exact .blank hc hrest
  | comment hbody hrest _ =>
      rw [List.dropWhile_cons_of_pos (by decide), Calculator.dropWhile_line hbody,
        List.dropWhile_cons_of_neg (by decide)]
      exact .blank (by decide) hrest

private theorem skipText_eq_nil (hu : IsLayout u) : lexicon.skipText u = [] := by
  have hskip := hu.skipText_append []
  rwa [List.append_nil] at hskip

/-- Layout in front of a text that begins with none is all that is skipped. -/
theorem skipText_append_of_stops (hu : IsLayout u) (hback : Stops back) :
    lexicon.skipText (u ++ back) = back := by
  rw [hu.skipText_append, skipText_of_stops hback]

end IsLayout

/-- What is skipped in front of the rest of a text: layout behind which something else comes, or
layout and a comment that takes all that is left. -/
inductive Skipped : List Char → List Char → Prop where
  | closed {u back : List Char} (hu : IsLayout u) (hback : Stops back) : Skipped (u ++ back) back
  | unended {u body : List Char} (hu : IsLayout u) (hbody : '\n' ∉ body) :
      Skipped (u ++ '#' :: body) []

/-- Layout in front of a text is skipped with what is skipped of the text. -/
theorem Skipped.prepend {v text back : List Char} (hv : IsLayout v) (h : Skipped text back) :
    Skipped (v ++ text) back := by
  cases h with
  | closed hu hback =>
      rw [← List.append_assoc]
      exact .closed (hv.append hu) hback
  | unended hu hbody =>
      rw [← List.append_assoc]
      exact .unended (hv.append hu) hbody

/-- What the lexicon skips of a text is layout, with a comment behind it that may be open at its
end. -/
theorem skipped_skipText (text : List Char) : Skipped text (lexicon.skipText text) := by
  -- what is skipped is taken from the front, and the rest is shorter
  induction hlength : text.length using Nat.strong_induction_on generalizing text with
  | _ length ih =>
      cases text with
      | nil =>
          rw [skipText_of_stops stops_nil]
          exact .closed .nil stops_nil
      | cons c rest =>
          by_cases hblank : isBlank c = true
          · rw [skipText_blank hblank]
            have hrest := ih rest.length (by rw [← hlength]; exact Nat.lt_succ_self _) rest rfl
            exact hrest.prepend (.blank hblank .nil)
          · by_cases hcomment : c = '#'
            · obtain rfl := hcomment
              rw [skipText_comment]
              have hsplit := List.takeWhile_append_dropWhile (p := (· != '\n')) (l := rest)
              have hbody : '\n' ∉ rest.takeWhile (· != '\n') := fun hmem =>
                absurd (List.mem_takeWhile_imp hmem) (by decide)
              cases hline : rest.dropWhile (· != '\n') with
              | nil =>
                  rw [hline, List.append_nil] at hsplit
                  rw [hsplit] at hbody
                  rw [skipText_of_stops stops_nil]
                  exact .unended .nil hbody
              | cons d back =>
                  have hd : d = '\n' := by
                    have hhead := List.head?_dropWhile_not (· != '\n') rest
                    rw [hline] at hhead
                    simpa using hhead
                  rw [hline, hd] at hsplit
                  have hshort : back.length < length := by
                    rw [← hlength, ← hsplit]
                    simp only [List.length_cons, List.length_append]
                    omega
                  have hback := (ih _ hshort back rfl).prepend (.comment hbody .nil)
                  rw [hd, skipText_blank (by decide), ← hsplit]
                  simpa using hback
            · have hstops : Stops (c :: rest) := by
                rintro d ⟨⟩
                exact ⟨Bool.eq_false_iff.mpr hblank, hcomment⟩
              rw [skipText_of_stops hstops]
              exact .closed .nil hstops

/-- What is skipped up to a text that is left is layout. -/
theorem isLayout_of_skipText {skipped back : List Char} (hback : back ≠ [])
    (h : lexicon.skipText (skipped ++ back) = back) : IsLayout skipped ∧ Stops back := by
  have hskipped := skipped_skipText (skipped ++ back)
  rw [h] at hskipped
  generalize htext : skipped ++ back = text at hskipped
  cases hskipped with
  | closed hu hstops => exact ⟨List.append_cancel_right htext ▸ hu, hstops⟩
  | unended => exact absurd rfl hback

/-! ### Tokens in front of layout -/

/-- Digits are taken as far as there are any. -/
theorem firstRule?_digit {c : Char} (hc : isAsciiDigit c = true) (rest : List Char) :
    lexicon.firstRule? (c :: rest) =
      some (numberRule, ((c :: rest).takeWhile Sum.digits.contains).length) := by
  have hdigit : Sum.digits.contains c = true := (Sum.contains_digits c).trans hc
  have hfind : numberRule.pattern.find (c :: rest) =
      some (0, ((c :: rest).takeWhile Sum.digits.contains).length) := by
    rw [numberRule, Compiled.find_run_cons, if_pos hdigit]
  have hpos : 0 < ((c :: rest).takeWhile Sum.digits.contains).length := by
    rw [List.takeWhile_cons_of_pos hdigit]
    exact Nat.succ_pos _
  rw [Lexicon.firstRule?, lexicon, List.findSome?_cons, hfind, Option.bind_some, if_pos hpos]

/-- Any other token is a single character, whatever comes behind it. -/
theorem firstRule?_sign {c : Char} (hc : isAsciiDigit c = false) (rest : List Char) :
    lexicon.firstRule? (c :: rest) = lexicon.firstRule? [c] := by
  simp [Lexicon.firstRule?, lexicon, numberRule, signRules, signRule, List.findSome?_cons,
    Compiled.find_run_cons, Compiled.find_letter_cons, Sum.contains_digits, hc]

/-- Layout does not begin with a digit. -/
theorem IsLayout.head_not_digit {u after : List Char} (hu : IsLayout u)
    (hafter : ∀ c ∈ after.head?, Sum.digits.contains c = false) :
    ∀ c ∈ (u ++ after).head?, Sum.digits.contains c = false := by
  cases hu with
  | nil => exact hafter
  | blank hc =>
      rintro _ ⟨⟩
      exact (Sum.contains_digits _).trans (Sum.isAsciiDigit_of_isBlank hc)
  | comment =>
      rintro _ ⟨⟩
      decide

/-- A word is matched without regard to layout behind it. -/
theorem firstRule?_of_isLayout {word between after u : List Char} {r : LexemeRule Kind}
    (hu : IsLayout u)
    (h : lexicon.firstRule? (word ++ (between ++ after)) = some (r, word.length)) :
    lexicon.firstRule? (word ++ (between ++ (u ++ after))) = some (r, word.length) := by
  obtain ⟨-, i, hpos, -⟩ := Lexicon.firstRule?_eq_some h
  obtain ⟨c, rest, rfl⟩ := List.exists_cons_of_length_pos (Nat.zero_lt_of_lt hpos)
  by_cases hc : isAsciiDigit c = true
  · rw [List.cons_append, firstRule?_digit hc, Option.some.injEq, Prod.mk.injEq] at h ⊢
    obtain ⟨rfl, hlength⟩ := h
    have hrun := BeginsWithRun.exists_run Sum.digits (c :: (rest ++ (between ++ after)))
    obtain ⟨hword, hback⟩ := List.append_inj hrun.split.symm hlength
    have hstops : ∀ d ∈ (between ++ (u ++ after)).head?, Sum.digits.contains d = false := by
      rw [hback] at hrun
      cases between with
      | nil => exact hu.head_not_digit hrun.stops
      | cons => exact hrun.stops
    have hlonger : BeginsWithRun Sum.digits (c :: (rest ++ (between ++ (u ++ after))))
        (c :: rest) (between ++ (u ++ after)) :=
      { split := rfl, inside := hword ▸ hrun.inside, stops := hstops }
    exact ⟨rfl, congrArg List.length hlonger.takeWhile_eq⟩
  · have hsign := Bool.eq_false_iff.mpr hc
    rw [List.cons_append, firstRule?_sign hsign] at h ⊢
    exact h

/-- Layout may be put wherever no token is. -/
theorem insertable_of_isLayout {u : List Char} (hu : IsLayout u) : lexicon.Insertable u where
  front := hu.skipText_append
  back text h := by
    have hskipped := skipped_skipText text
    rw [h] at hskipped
    cases hskipped with
    | closed hv =>
        rw [List.append_nil]
        exact (hv.append hu).skipText_eq_nil
    | unended hv hbody =>
        rw [List.append_assoc, hv.skipText_append, List.cons_append, skipText_comment,
          dropWhile_line hbody]
        exact hu.dropWhile_line.skipText_eq_nil
  skips skipped word text text' hword h := by
    obtain ⟨c, word, rfl⟩ := List.exists_cons_of_ne_nil hword
    obtain ⟨hskipped, hstops⟩ := isLayout_of_skipText (List.cons_ne_nil c _) h
    exact hskipped.skipText_append_of_stops hstops
  finds _ _ _ _ h := firstRule?_of_isLayout hu h

/-! ### Values -/

/-- An expression is parsed in the same way where its tokens are upcoming in other places. -/
theorem parse_of_upcoming {f : Token → Token} (hf : Token.Relocates f) {s t u s' : Standing Kind}
    {r : Except (ParseError ActionError) Int64} (hnext : s.next = .ok u)
    (hupcoming : t.upcoming = s.upcoming.mapToken f) (hrun : parse.Gives s r s') :
    parse.Gives t (r.mapError fun e => e.mapToken f) (s'.mapToken f) := by
  rw [parse, gives_get_bind] at hrun ⊢
  rw [hupcoming, Stream.length_mapToken]
  exact (allRules compositional_placeless _).expr.whole .finish hf hnext hupcoming hrun

/-- Layout does not change a calculation. In a text whose tokens come to the end, it may be put at
the start, at the end and directly behind every token: the tokens keep their kinds and texts, those
behind the point are moved by the length of the layout, and the value is the same, or the same
failure but for the place of the token that was found. -/
theorem layout_keeps_calculation {compiled : Lexicon Kind} {source : String}
    {before after u : List Char} (hlexicon : lexicon? = some compiled)
    (hends : ∃ calls t, compiled.answer source calls = .ok (.finish, t))
    (hgap : compiled.Gap source before after) (hu : IsLayout u) :
    (∀ calls, compiled.answer (String.ofList (before ++ (u ++ after))) calls =
      (compiled.answer source calls).map fun x =>
        (x.1, x.2.moveFrom (byteLength before) (byteLength u))) ∧
    eval (String.ofList (before ++ (u ++ after))) = (eval source).mapError
      (Failure.mapToken (Token.moveFrom (byteLength before) (byteLength u))) := by
  have hproper := proper_stream hlexicon source
  obtain ⟨calls, t, hanswer⟩ := hends
  rw [Lexicon.answer_eq_answer_stream] at hanswer
  obtain ⟨us, htokens⟩ := Stream.exists_tokens?_of_answer hproper hanswer
  have hcompiled : compiled = lexicon := Option.some.inj (hlexicon.symm.trans lexicon?_eq)
  have hinsertable : compiled.Insertable u := hcompiled ▸ insertable_of_isLayout hu
  have hstream := Lexicon.stream_insert hinsertable htokens hgap
  constructor
  · intro calls
    rw [Lexicon.answer_eq_answer_stream, Lexicon.answer_eq_answer_stream, hstream,
      Stream.answer_mapToken]
  · obtain ⟨s, hnext, -⟩ := Standing.next_of_tokens? (s := .new compiled source) hproper htokens
    obtain ⟨r, s', hrun⟩ := exists_gives parse (.new compiled source)
    have hmoved := parse_of_upcoming (Token.relocates_moveFrom (byteLength before) (byteLength u))
      (t := .new compiled (String.ofList (before ++ (u ++ after)))) hnext hstream hrun
    rw [eval_of_gives hlexicon hrun, eval_of_gives hlexicon hmoved]
    cases r <;> rfl

/-- A new comment in front of a parenthesis that does not fit moves the error only. -/
theorem layout_keeps_calculation_unfinished :
    (∃ calls t, lexicon.answer "1+)" calls = .ok (.finish, t)) ∧
      lexicon.Gap "1+)" ['1', '+'] [')'] ∧ IsLayout ['#', '\n'] ∧
      eval "1+#\n)" = (eval "1+)").mapError (Failure.mapToken (Token.moveFrom 2 2)) := by
  have hends : ∃ calls t, lexicon.answer "1+)" calls = .ok (.finish, t) := ⟨3, .atEnd 3, rfl⟩
  have hplus : lexicon.answer "1+)" 1 = .ok (.plus, ⟨"PLUS", "+", 1⟩) := rfl
  have hgap : lexicon.Gap "1+)" ['1', '+'] [')'] := .behind rfl hplus rfl
  have hlayout : IsLayout ['#', '\n'] := .comment List.not_mem_nil .nil
  exact ⟨hends, hgap, hlayout, (layout_keeps_calculation lexicon?_eq hends hgap hlayout).2⟩

end Calculator
end Descent.Languages
