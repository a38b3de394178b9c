import Descent.Languages.Sum
import Descent.Proofs.Languages.Expression
import Descent.Proofs.Tokens.Splitting
import Descent.Proofs.Tokens.Whole

/-!
# Sums and their texts

A text is read as a list of operands if and only if it writes them in decimal digits with
plus signs between them and white space anywhere but inside a number.
-/

namespace Descent.Languages.Sum

open Descent.Parser Descent.Text Descent.Pattern
open Calculator (decimal)

/-! ### Texts of sums -/

/-- The digits write the number, which is one that an operand can have. -/
structure IsNumeral (digits : List Char) (n : Int64) : Prop where
  ne_nil : digits ≠ []
  digit : ∀ c ∈ digits, isAsciiDigit c = true
  value : n.toInt = decimal (String.ofList digits)

/-- The text writes a sum of the operands: a number, or a number, a plus sign and a sum, with
white space anywhere around the numbers. -/
inductive WritesSum : List Char → List Int64 → Prop where
  | last {before digits after : List Char} {n : Int64}
      (hbefore : ∀ c ∈ before, isBlank c = true) (hdigits : IsNumeral digits n)
      (hafter : ∀ c ∈ after, isBlank c = true) : WritesSum (before ++ digits ++ after) [n]
  | plus {before digits after rest : List Char} {n : Int64} {ns : List Int64}
      (hbefore : ∀ c ∈ before, isBlank c = true) (hdigits : IsNumeral digits n)
      (hafter : ∀ c ∈ after, isBlank c = true) (hrest : WritesSum rest ns) :
      WritesSum (before ++ digits ++ after ++ '+' :: rest) (n :: ns)

/-- White space does not matter in front of a sum. -/
theorem WritesSum.cons_blank {c : Char} {text : List Char} {ns : List Int64}
    (hc : isBlank c = true) (h : WritesSum text ns) : WritesSum (c :: text) ns := by
  cases h with
  | last hbefore hdigits hafter =>
      exact .last (List.forall_mem_cons.mpr ⟨hc, hbefore⟩) hdigits hafter
  | plus hbefore hdigits hafter hrest =>
      exact .plus (List.forall_mem_cons.mpr ⟨hc, hbefore⟩) hdigits hafter hrest

/-- A number that is not negative is written by the digits of its printed form. -/
theorem isNumeral_toString {n : Int64} (hn : 0 ≤ n) : IsNumeral (toString n).toList n := by
  have hint : (0 : Int) ≤ n.toInt := Int64.le_iff_toInt_le.mp hn
  obtain ⟨k, hk⟩ := Int.eq_ofNat_of_zero_le hint
  have hdigits : (toString n).toList = Nat.toDigits 10 k := by
    change (toString n.toInt).toList = _
    rw [hk]
    exact Nat.toList_repr
  rw [hdigits]
  refine ⟨Nat.toDigits_ne_nil, fun c hc => ?_, ?_⟩
  · have hdigit := Nat.isDigit_of_mem_toDigits (by decide) (by decide) hc
    rw [isAsciiDigit, Bool.and_eq_true, decide_eq_true_eq, decide_eq_true_eq]
    simp only [Char.isDigit, Bool.and_eq_true, decide_eq_true_eq] at hdigit
    exact hdigit
  · rw [← Calculator.digitsValue_eq, String.toList_ofList, hk]
    exact congrArg Int.ofNat (Nat.ofDigitChars_toDigits (by decide) (by decide)).symm

/-- Numbers printed with plus signs between them write a sum. -/
theorem writesSum_intercalate {ns : List Int64} (hne : ns ≠ []) (hns : ∀ n ∈ ns, 0 ≤ n) :
    WritesSum (" + ".intercalate (ns.map toString)).toList ns := by
  induction ns with
  | nil => exact absurd rfl hne
  | cons n ns ih =>
      obtain ⟨hn, hns⟩ := List.forall_mem_cons.mp hns
      cases ns with
      | nil =>
          have hlast : WritesSum ([] ++ (toString n).toList ++ []) [n] :=
            .last (List.forall_mem_nil _) (isNumeral_toString hn) (List.forall_mem_nil _)
          simpa using hlast
      | cons m ns =>
          have hrest := ih (List.cons_ne_nil m ns) hns
          have hplus : WritesSum ([] ++ (toString n).toList ++ [' '] ++ '+' :: ' ' :: _)
              (n :: m :: ns) :=
            .plus (List.forall_mem_nil _) (isNumeral_toString hn)
              (List.forall_mem_singleton.mpr rfl) (hrest.cons_blank rfl)
          simpa using hplus

/-! ### Tokens of a text -/

/-- The class of the digits. -/
def digits : CharSet := .ofRange '0' '9'

/-- The class of the digits has exactly the digits. -/
theorem contains_digits (c : Char) : digits.contains c = isAsciiDigit c := by
  rw [Bool.eq_iff_iff, digits, CharSet.contains_ofRange, isAsciiDigit]
  simp

/-- The rule of numbers. -/
def numberRule : LexemeRule Kind := ⟨.num, Kind.num.name, .run digits⟩

/-- The rule of the plus sign. -/
def plusRule : LexemeRule Kind := ⟨.plus, Kind.plus.name, .letter (.singleton '+')⟩

/-- The lexicon with its patterns compiled. -/
def lexicon : Lexicon Kind := ⟨[.run whiteSpace], [numberRule, plusRule], .finish⟩

/-- The pattern of white space is compiled to runs of white space. -/
theorem compileAnchored?_blanks : compileAnchored? "\\s+" = some (.run whiteSpace) :=
  compileAnchored?_run (by decide +kernel) (by decide +kernel)

/-- The pattern of numbers is compiled to runs of digits. -/
theorem compileAnchored?_digits : compileAnchored? "[0-9]+" = some (.run digits) :=
  compileAnchored?_run (by decide +kernel) (by decide +kernel)

/-- The pattern of the plus sign is compiled to that character. -/
theorem compileAnchored?_plus : compileAnchored? "\\+" = some (.letter (.singleton '+')) :=
  compileAnchored?_letter (by decide +kernel) (by decide +kernel)

private theorem lexicon?_eq : lexicon? = some lexicon := by
  simp [lexicon?, Lexicon.ofPatterns?, skipPatterns, tokenPatterns, compileAnchored?_blanks,
    compileAnchored?_digits, compileAnchored?_plus, lexicon, numberRule, plusRule]

private theorem skips_eq : lexicon.skips = [.run whiteSpace] := rfl

private theorem mem_rules {r : LexemeRule Kind} (h : r ∈ lexicon.rules) :
    r = numberRule ∨ r = plusRule := by
  simpa [lexicon] using h

/-- The longest run of digits in front of a text is a number. -/
theorem firstRule?_number {text run back : List Char} (h : BeginsWithRun digits text run back)
    (hrun : run ≠ []) : lexicon.firstRule? text = some (numberRule, run.length) := by
  have hfind : numberRule.pattern.find text = some (0, run.length) :=
    Compiled.find_run_iff.mpr ⟨rfl, run, back, h, hrun, rfl⟩
  rw [Lexicon.firstRule?, lexicon, List.findSome?_cons, hfind, Option.bind_some,
    if_pos (List.length_pos_iff.mpr hrun)]

private theorem firstRule?_plus (rest : List Char) :
    lexicon.firstRule? ('+' :: rest) = some (plusRule, 1) := by
  simp +decide [Lexicon.firstRule?, lexicon, numberRule, plusRule, Compiled.find_run_cons,
    Compiled.find_letter_cons]

/-- A text that is split into a number first begins with white space and a run of digits. -/
theorem exists_of_splits_number {text : List Char} {word : String} {ts : List (Kind × String)}
    (h : lexicon.Splits text ((.num, word) :: ts)) :
    ∃ before run back, text = before ++ run ++ back ∧ (∀ c ∈ before, isBlank c = true) ∧
      run ≠ [] ∧ (∀ c ∈ run, isAsciiDigit c = true) ∧ word = String.ofList run ∧
      lexicon.Splits back ts := by
  obtain ⟨before, hbefore⟩ := Lexicon.exists_skipped skips_eq text
  obtain ⟨r, n, hfirst, hkind, rfl, hrest⟩ := Lexicon.splits_cons_iff.mp h
  obtain ⟨hr, i, -, hfind, -⟩ := Lexicon.firstRule?_eq_some hfirst
  obtain rfl : r = numberRule := by
    rcases mem_rules hr with rfl | rfl
    · rfl
    · cases hkind
  obtain ⟨-, run, back, hrun, hne, rfl⟩ := Compiled.find_run_iff.mp hfind
  rw [hrun.split, List.drop_left] at hrest
  refine ⟨before, run, back, ?_, hbefore.inside, hne, fun c hc => ?_, ?_, hrest⟩
  · rw [List.append_assoc, ← hrun.split, ← hbefore.split]
  · rw [← contains_digits]
    exact hrun.inside c hc
  · rw [hrun.split, List.take_left]

/-- A text that is split into a plus sign first begins with white space and that sign. -/
theorem exists_of_splits_plus {text : List Char} {word : String} {ts : List (Kind × String)}
    (h : lexicon.Splits text ((.plus, word) :: ts)) :
    ∃ before rest, text = before ++ '+' :: rest ∧ (∀ c ∈ before, isBlank c = true) ∧
      lexicon.Splits rest ts := by
  obtain ⟨before, hbefore⟩ := Lexicon.exists_skipped skips_eq text
  obtain ⟨r, n, hfirst, hkind, rfl, hrest⟩ := Lexicon.splits_cons_iff.mp h
  obtain ⟨hr, i, -, hfind, -⟩ := Lexicon.firstRule?_eq_some hfirst
  obtain rfl : r = plusRule := by
    rcases mem_rules hr with rfl | rfl
    · cases hkind
    · rfl
  obtain ⟨-, rfl, c, rest, hcons, hc⟩ := Compiled.find_letter_iff.mp hfind
  obtain rfl := CharSet.contains_singleton.mp hc
  rw [hcons] at hrest
  exact ⟨before, rest, hcons ▸ hbefore.split, hbefore.inside, hrest⟩

private theorem splits_blank_iff {text : List Char} :
    lexicon.Splits text [] ↔ ∀ c ∈ text, isBlank c = true := Lexicon.splits_nil_iff skips_eq

/-- A digit is no white space. -/
theorem isBlank_of_isAsciiDigit {c : Char} (h : isAsciiDigit c = true) : isBlank c = false := by
  have hrange : 48 ≤ c.toNat ∧ c.toNat ≤ 57 := by
    rw [isAsciiDigit, Bool.and_eq_true, decide_eq_true_eq, decide_eq_true_eq] at h
    exact h
  rw [Bool.eq_false_iff]
  simp only [isBlank, CharSet.contains, CharSet.containsNat, whiteSpace, List.any_cons,
    List.any_nil, ne_eq, Bool.or_eq_true, Bool.and_eq_true, decide_eq_true_eq,
    Bool.false_eq_true, or_false]
  omega

/-- White space is no digit. -/
theorem isAsciiDigit_of_isBlank {c : Char} (h : isBlank c = true) : isAsciiDigit c = false := by
  by_contra hdigit
  exact Bool.false_ne_true
    ((isBlank_of_isAsciiDigit (Bool.eq_true_of_not_eq_false hdigit)).symm.trans h)

/-- White space and a numeral in front of a text are split off as a number. -/
theorem splits_number {before word back : List Char} {n : Int64} {ts : List (Kind × String)}
    (hbefore : ∀ c ∈ before, isBlank c = true) (h : IsNumeral word n)
    (hback : ∀ c ∈ back.head?, isAsciiDigit c = false) (hrest : lexicon.Splits back ts) :
    lexicon.Splits (before ++ word ++ back) ((.num, String.ofList word) :: ts) := by
  rw [List.append_assoc, Lexicon.splits_append_iff skips_eq hbefore]
  have hrun : BeginsWithRun digits (word ++ back) word back :=
    { split := rfl
      inside := fun c hc => (contains_digits c).trans (h.digit c hc)
      stops := fun c hc => (contains_digits c).trans (hback c hc) }
  refine Lexicon.splits_token skips_eq (fun c hc => ?_) (firstRule?_number hrun h.ne_nil) hrest
  refine isBlank_of_isAsciiDigit (h.digit c ?_)
  obtain ⟨d, rest, rfl⟩ := List.exists_cons_of_ne_nil h.ne_nil
  obtain rfl := Option.some.inj hc
  exact List.mem_cons_self

/-- White space and a plus sign in front of a text are split off as that sign. -/
theorem splits_plus {before rest : List Char} {ts : List (Kind × String)}
    (hbefore : ∀ c ∈ before, isBlank c = true) (hrest : lexicon.Splits rest ts) :
    lexicon.Splits (before ++ '+' :: rest) ((.plus, "+") :: ts) := by
  rw [Lexicon.splits_append_iff skips_eq hbefore]
  have hstops : ∀ c ∈ (['+'] ++ rest).head?, whiteSpace.contains c = false := by
    rintro c ⟨⟩
    decide
  exact Lexicon.splits_token skips_eq hstops (firstRule?_plus rest) hrest

/-! ### Tokens of a sum -/

/-- The tokens of plus signs and numbers that are the rest of a sum with the operands. -/
inductive WritesRest : List (Kind × String) → List Int64 → Prop where
  | nil : WritesRest [] []
  | plus {sign word : String} {n : Int64} {ts : List (Kind × String)} {ns : List Int64}
      (hn : n.toInt = decimal word) (h : WritesRest ts ns) :
      WritesRest ((.plus, sign) :: (.num, word) :: ts) (n :: ns)

/-- A text with the tokens of a sum writes it. -/
theorem writesSum_of_splits {text : List Char} {word : String} {ts : List (Kind × String)}
    {n : Int64} {ns : List Int64} (h : WritesRest ts ns) (hn : n.toInt = decimal word)
    (hsplits : lexicon.Splits text ((.num, word) :: ts)) : WritesSum text (n :: ns) := by
  induction h generalizing text word n with
  | nil =>
      obtain ⟨before, run, back, rfl, hbefore, hne, hdigit, rfl, hback⟩ :=
        exists_of_splits_number hsplits
      exact .last hbefore ⟨hne, hdigit, hn⟩ (splits_blank_iff.mp hback)
  | plus hm _ ih =>
      obtain ⟨before, run, back, rfl, hbefore, hne, hdigit, rfl, hback⟩ :=
        exists_of_splits_number hsplits
      obtain ⟨after, rest, rfl, hafter, hrest⟩ := exists_of_splits_plus hback
      have hplus := WritesSum.plus hbefore ⟨hne, hdigit, hn⟩ hafter (ih hm hrest)
      rwa [List.append_assoc _ after] at hplus

/-- A text that writes a sum has its tokens. -/
theorem splits_of_writesSum {text : List Char} {ns : List Int64} (h : WritesSum text ns) :
    ∃ word ts m ms, ns = m :: ms ∧ m.toInt = decimal word ∧ WritesRest ts ms ∧
      lexicon.Splits text ((.num, word) :: ts) := by
  induction h with
  | @last before word after n hbefore hdigits hafter =>
      refine ⟨_, [], n, [], rfl, hdigits.value, .nil, ?_⟩
      refine splits_number hbefore hdigits (fun c hc => ?_) (splits_blank_iff.mpr hafter)
      exact isAsciiDigit_of_isBlank (hafter c (List.mem_of_mem_head? hc))
  | @plus before word after rest n ns hbefore hdigits hafter _ ih =>
      obtain ⟨word', ts, m, ms, rfl, hm, hts, hrest⟩ := ih
      refine ⟨_, (.plus, "+") :: (.num, word') :: ts, n, m :: ms, rfl, hdigits.value,
        .plus hm hts, ?_⟩
      rw [List.append_assoc _ after]
      refine splits_number hbefore hdigits (fun c hc => ?_) (splits_plus hafter hrest)
      cases after with
      | nil =>
          obtain rfl := Option.some.inj hc
          rfl
      | cons d after =>
          obtain rfl := Option.some.inj hc
          exact isAsciiDigit_of_isBlank (hafter d List.mem_cons_self)

/-! ### The parser -/

private theorem numberOf_eq_ok_iff {t : Token} {n : Int64} :
    numberOf t = .ok n ↔ n.toInt = decimal t.text := by
  have hvalue := Calculator.toInt_numberOf t
  rw [Calculator.Expr.value] at hvalue
  have hbound := Int64.toInt_lt n
  cases hnumber : numberOf t with
  | ok m =>
      rw [hnumber] at hvalue
      split at hvalue
      · have hm := Except.ok.inj hvalue
        rw [Except.ok.injEq, ← Int64.toInt_inj, hm, eq_comm]
      · cases hvalue
  | error cause =>
      rw [hnumber] at hvalue
      split at hvalue
      · cases hvalue
      · refine iff_of_false ?_ (by omega)
        rintro ⟨⟩

/-- Where the rest of a sum is found, its tokens have been taken. -/
theorem takes_of_tail {fuel : Nat} {acc ns : List Int64} {s s' : Standing Kind}
    (h : (tail fuel acc).Gives s (.ok ns) s') :
    ∃ ts ms, s.Takes .finish ts s' ∧ WritesRest (Lexicon.forms ts) ms ∧ ns = acc ++ ms := by
  induction fuel generalizing acc s with
  | zero => cases (gives_unexpected.mp h).1
  | succ fuel ih =>
      rw [tail, gives_kind_bind] at h
      cases hkind : s.kind with
      | num =>
          rw [hkind] at h
          cases (gives_unexpected.mp h).1
      | finish =>
          rw [hkind] at h
          obtain ⟨hns, rfl⟩ := gives_pure.mp h
          obtain rfl := Except.ok.inj hns
          exact ⟨[], [], .refl _, .nil, (List.append_nil ns).symm⟩
      | plus =>
          rw [hkind] at h
          obtain ⟨⟨⟩, s₁, hplus, h⟩ := gives_bind_ok.mp h
          obtain ⟨n, s₂, hnumber, h⟩ := gives_bind_ok.mp h
          obtain ⟨x, -, htakex⟩ := takes_of_terminal (show Kind.plus ≠ .finish by decide) hplus
          obtain ⟨y, hy, htakey⟩ := takes_of_terminal (show Kind.num ≠ .finish by decide) hnumber
          obtain ⟨ts, ms, htakes, hts, rfl⟩ := ih h
          refine ⟨_, n :: ms, (htakex.trans htakey).trans htakes, ?_, by simp⟩
          exact .plus (numberOf_eq_ok_iff.mp hy) hts

/-- The rule of sums takes a number and what writes the further operands. -/
theorem takes_of_expr {fuel : Nat} {ns : List Int64} {s s' : Standing Kind}
    (h : (expr fuel).Gives s (.ok ns) s') :
    ∃ x ts, ∃ (m : Int64) (ms : List Int64), s.Takes .finish ((.num, x) :: ts) s' ∧
      m.toInt = decimal x.text ∧ WritesRest (Lexicon.forms ts) ms ∧ ns = m :: ms := by
  rw [expr, gives_kind_bind] at h
  cases hkind : s.kind with
  | plus | finish =>
      rw [hkind] at h
      cases (gives_unexpected.mp h).1
  | num =>
      rw [hkind] at h
      obtain ⟨n, s₁, hnumber, h⟩ := gives_bind_ok.mp h
      obtain ⟨x, hx, htakex⟩ := takes_of_terminal (show Kind.num ≠ .finish by decide) hnumber
      obtain ⟨ts, ms, htakes, hts, rfl⟩ := takes_of_tail h
      exact ⟨x, ts, n, ms, htakex.trans htakes, numberOf_eq_ok_iff.mp hx, hts, rfl⟩

private theorem sign_of_holds {s : Standing Kind} {t : Token} {ts : List (Kind × Token)}
    (hs : s.Holds .finish ((.plus, t) :: ts)) :
    ∃ u, (terminal .plus Kind.plus.name fun _ => .ok () : Parser Kind ActionError Unit).Gives
      s (.ok ()) u ∧ u.Holds .finish ts :=
  terminal_of_holds hs rfl

private theorem operand_of_holds {s : Standing Kind} {n : Int64} {t : Token}
    {ts : List (Kind × Token)}
    (hn : n.toInt = decimal t.text) (hs : s.Holds .finish ((.num, t) :: ts)) :
    ∃ u, operand.Gives s (.ok n) u ∧ u.Holds .finish ts :=
  terminal_of_holds hs (numberOf_eq_ok_iff.mpr hn)

/-- In front of the tokens of the rest of a sum the rest is found. Two tokens are taken for each call. -/
theorem tail_of_holds {fuel : Nat} {ms : List Int64} {s : Standing Kind}
    {ts : List (Kind × Token)} (acc : List Int64) (hts : WritesRest (Lexicon.forms ts) ms)
    (hs : s.Holds .finish ts) (hfuel : ts.length < fuel) :
    ∃ u, (tail fuel acc).Gives s (.ok (acc ++ ms)) u ∧ u.Holds .finish [] := by
  induction fuel generalizing acc ms s ts with
  | zero => omega
  | succ fuel ih =>
      rw [tail]
      generalize hforms : Lexicon.forms ts = fs at hts
      cases hts with
      | nil =>
          obtain rfl := List.map_eq_nil_iff.mp hforms
          refine ⟨s, ?_, hs⟩
          rw [gives_kind_bind, hs.kind_eq, List.append_nil]
          exact gives_pure.mpr ⟨rfl, rfl⟩
      | @plus sign word n fs ms hn hms =>
          obtain ⟨x, us, rfl, rfl, hbehind⟩ := Lexicon.forms_eq_cons hforms
          obtain ⟨y, us, rfl, rfl, rfl⟩ := Lexicon.forms_eq_cons hbehind
          obtain ⟨s₁, hplus, h₁⟩ := sign_of_holds hs
          obtain ⟨s₂, hnumber, h₂⟩ := operand_of_holds hn h₁
          simp only [List.length_cons] at hfuel
          obtain ⟨u, htail, hu⟩ := ih (acc ++ [n]) hms h₂ (by omega)
          refine ⟨u, ?_, hu⟩
          rw [gives_kind_bind, hs.kind_eq, List.append_cons]
          exact hplus.bind (hnumber.bind htail)

/-- In front of tokens that write operands the rule of sums succeeds with these operands. -/
theorem expr_of_holds {fuel : Nat} {ms : List Int64} {m : Int64} {s : Standing Kind} {x : Token}
    {ts : List (Kind × Token)} (hm : m.toInt = decimal x.text)
    (hts : WritesRest (Lexicon.forms ts) ms) (hs : s.Holds .finish ((.num, x) :: ts))
    (hfuel : ts.length < fuel) :
    ∃ u, (expr fuel).Gives s (.ok (m :: ms)) u ∧ u.Holds .finish [] := by
  obtain ⟨s₁, hnumber, h₁⟩ := operand_of_holds hm hs
  obtain ⟨u, htail, hu⟩ := tail_of_holds [m] hts h₁ hfuel
  refine ⟨u, ?_, hu⟩
  rw [expr, gives_kind_bind, hs.kind_eq]
  exact hnumber.bind htail

/-! ### Reading a text -/

private theorem proper_stream (source : String) : (lexicon.stream source).Proper .finish :=
  Lexicon.proper_stream_of_ofPatterns? lexicon?_eq (by decide) source

private theorem operands_of_gives {l : Lexicon Kind} (hl : lexicon? = some l) {source : String}
    {o : Except (ParseError ActionError) (List Int64)} {s' : Standing Kind}
    (h : parse.Gives (.new l source) o s') : operands source = o.mapError .parse := by
  simp only [operands, hl, h.fst_run]
  cases o <;> rfl

private theorem gives_parse {s s' : Standing Kind}
    {o : Except (ParseError ActionError) (List Int64)} :
    parse.Gives s o s' ↔ (whole .finish (expr (s.upcoming.length + 2))).Gives s o s' := by
  rw [parse]
  exact gives_get_bind

/-- A text is read as operands exactly if it writes them. -/
theorem operands_eq_ok_iff {source : String} {ns : List Int64} :
    operands source = .ok ns ↔ WritesSum source.toList ns := by
  constructor
  · intro h
    obtain ⟨o, s', hrun⟩ := exists_gives parse (.new lexicon source)
    rw [operands_of_gives lexicon?_eq hrun] at h
    cases o with
    | error e => cases h
    | ok ns' =>
        obtain rfl := Except.ok.inj h
        obtain ⟨u, hexpr, -, htokens⟩ :=
          tokens?_of_whole (proper_stream source) (gives_parse.mp hrun)
        obtain ⟨x, ts, m, ms, htakes, hm, hts, rfl⟩ := takes_of_expr hexpr
        exact writesSum_of_splits hts hm (Lexicon.splits_iff.mpr ⟨_, htokens _ htakes, rfl⟩)
  · intro h
    obtain ⟨word, ws, m, ms, rfl, hm, hws, hsplits⟩ := splits_of_writesSum h
    obtain ⟨us, htokens, hforms⟩ := Lexicon.splits_iff.mp hsplits
    obtain ⟨x, ts, rfl, rfl, rfl⟩ := Lexicon.forms_eq_cons hforms
    have hlength := Stream.length_of_tokens? htokens
    have hfuel : ts.length < (Standing.new lexicon source).upcoming.length + 2 := by
      rw [List.length_cons] at hlength
      exact hlength ▸ by omega
    obtain ⟨s', hrun⟩ := whole_of_tokens? (s := .new lexicon source) (proper_stream source) htokens
      fun u hu => expr_of_holds hm hws hu hfuel
    exact operands_of_gives lexicon?_eq (gives_parse.mpr hrun)

/-- A text is read as a list of operands if and only if it writes their sum. So numbers that are not
negative are read back from their printed forms with plus signs between them. -/
theorem operands_exact :
    (∀ source ns, operands source = .ok ns ↔ WritesSum source.toList ns) ∧
      ∀ ns : List Int64, ns ≠ [] → (∀ n ∈ ns, 0 ≤ n) →
        operands (" + ".intercalate (ns.map toString)) = .ok ns :=
  ⟨fun _ _ => operands_eq_ok_iff,
    fun _ hne hns => operands_eq_ok_iff.mpr (writesSum_intercalate hne hns)⟩

/-- Zeros may lead a number, and there may be white space around it. -/
theorem operands_exact_printed :
    operands " 007\t+35 " = .ok [7, 35] ∧ operands "5 + 10" = .ok [5, 10] := by
  have hseven : IsNumeral ['0', '0', '7'] 7 := ⟨by decide, List.all_eq_true.mp rfl, by decide⟩
  have hnumber : IsNumeral ['3', '5'] 35 := ⟨by decide, List.all_eq_true.mp rfl, by decide⟩
  have hlast : WritesSum ([] ++ ['3', '5'] ++ [' ']) [35] :=
    .last (List.forall_mem_nil _) hnumber (List.forall_mem_singleton.mpr rfl)
  have hsum : WritesSum ([' '] ++ ['0', '0', '7'] ++ ['\t'] ++ '+' :: _) [7, 35] :=
    .plus (List.forall_mem_singleton.mpr rfl) hseven (List.forall_mem_singleton.mpr rfl) hlast
  have hpositive : ∀ n ∈ ([5, 10] : List Int64), 0 ≤ n :=
    List.forall_mem_cons.mpr ⟨by decide, List.forall_mem_singleton.mpr (by decide)⟩
  exact ⟨(operands_exact.1 _ _).mpr hsum, operands_exact.2 [5, 10] (by decide) hpositive⟩

/-- The least number beyond the greatest operand is refused. -/
example : operands "9223372036854775808" = .error (.parse (.action .numberTooLarge)) := by
  decide +kernel

end Descent.Languages.Sum
