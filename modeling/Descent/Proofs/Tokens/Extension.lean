import Descent.Proofs.Tokens.Ahead
import Descent.Proofs.Tokens.Compiling

/-!
# More rules behind the others

Rules that are added behind those of a lexicon are asked last, so they only matter where no
earlier rule finds anything. Call by call the longer lexicon gives the answers of the
shorter one and goes to the same cursors, up to a failure of the shorter one; there it
fails as well, or one of the added rules makes a token in its place.
-/

namespace Descent

open Descent.Text Descent.Pattern

variable {κ : Type}

namespace Lexicon

/-- The lexicon with more rules behind its own. -/
def extend (lexicon : Lexicon κ) (more : List (LexemeRule κ)) : Lexicon κ :=
  { lexicon with rules := lexicon.rules ++ more }

variable {lexicon : Lexicon κ} {more : List (LexemeRule κ)} {cursor after : Cursor}
  {text : List Char}

/-! ### One call -/

/-- Rules that are added change nothing of what is skipped. -/
theorem skipFrom_extend (fuel : Nat) (cursor : Cursor) :
    (lexicon.extend more).skipFrom fuel cursor = lexicon.skipFrom fuel cursor := by
  induction fuel generalizing cursor with
  | zero => rfl
  | succ fuel ih =>
      have hskip :
          (lexicon.extend more).skipLength? cursor.rest = lexicon.skipLength? cursor.rest := rfl
      rw [skipFrom, skipFrom, hskip]
      cases lexicon.skipLength? cursor.rest with
      | none => rfl
      | some n => exact ih _

/-- Rules have no part in skipping. -/
theorem skipAll_extend (more : List (LexemeRule κ)) (cursor : Cursor) :
    (lexicon.extend more).skipAll cursor = lexicon.skipAll cursor :=
  skipFrom_extend _ cursor

/-- The added rules are asked where the others find nothing. -/
theorem firstRule?_extend (lexicon : Lexicon κ) (more : List (LexemeRule κ)) (text : List Char) :
    (lexicon.extend more).firstRule? text =
      (lexicon.firstRule? text).or ((Lexicon.mk [] more lexicon.endKind).firstRule? text) :=
  List.findSome?_append

/-- The end and the tokens of the lexicon are returned with more rules as well. -/
theorem Answers.extend_ok {x : κ × Token} (h : lexicon.Answers cursor (.ok x) after) :
    (lexicon.extend more).Answers cursor (.ok x) after := by
  cases h with
  | finish hrest => exact .finish hrest
  | token hfirst =>
      exact .token (by rw [firstRule?_extend, hfirst, Option.some_or])

/-- Where the lexicon fails there is the same failure with more rules, or one of these makes a
token. -/
theorem Answers.extend_error (more : List (LexemeRule κ)) {e : LexicalError}
    (h : lexicon.Answers cursor (.error e) after) :
    (lexicon.extend more).Answers cursor (.error e) after ∨
      ∃ r ∈ more, ∃ word after', word ≠ "" ∧
        (lexicon.extend more).Answers cursor (.ok (r.kind, ⟨r.name, word, e.offset⟩)) after' := by
  cases h with
  | fail hrest hnone =>
      have hextend := firstRule?_extend lexicon more cursor.rest
      rw [hnone, Option.none_or] at hextend
      cases hmore : (Lexicon.mk [] more lexicon.endKind).firstRule? cursor.rest with
      | none => exact Or.inl (.fail hrest (hextend.trans hmore))
      | some found =>
          obtain ⟨hr, -⟩ := firstRule?_eq_some hmore
          exact Or.inr ⟨found.1, hr, _, _, text_ne_of_firstRule? hmore,
            .token (hextend.trans hmore)⟩

/-- A call that does not fail is the same with more rules. -/
theorem next_extend_of_ok {x : κ × Token} (h : (lexicon.next cursor).1 = .ok x) :
    (lexicon.extend more).next cursor = lexicon.next cursor := by
  have hanswers := answers_next lexicon cursor
  rw [h, ← skipAll_extend more] at hanswers
  rw [hanswers.extend_ok.next_eq, ← h]

/-- A failed call is the same with more rules, or one of these makes a token where it fails. -/
theorem next_extend_of_error (more : List (LexemeRule κ)) {e : LexicalError}
    (h : (lexicon.next cursor).1 = .error e) :
    (lexicon.extend more).next cursor = lexicon.next cursor ∨
      ∃ r ∈ more, ∃ word, word ≠ "" ∧
        ((lexicon.extend more).next cursor).1 = .ok (r.kind, ⟨r.name, word, e.offset⟩) := by
  have hanswers := answers_next lexicon cursor
  rw [h, ← skipAll_extend more] at hanswers
  rcases hanswers.extend_error more with hsame | ⟨r, hr, word, after', hword, htoken⟩
  · exact Or.inl (by rw [hsame.next_eq, ← h])
  · exact Or.inr ⟨r, hr, word, hword, by rw [htoken.next_eq]⟩

/-! ### Series of calls -/

variable {input : String} {calls : Nat}

/-- As long as the answers agree, the cursors do. -/
theorem cursorAfter_extend
    (h : ∀ j < calls, (lexicon.extend more).answer input j = lexicon.answer input j) :
    (lexicon.extend more).cursorAfter input calls = lexicon.cursorAfter input calls := by
  induction calls with
  | zero => rfl
  | succ calls ih =>
      have hcursor := ih fun j hj => h j (Nat.lt_succ_of_lt hj)
      have hlast := h calls (Nat.lt_succ_self calls)
      rw [answer, hcursor] at hlast
      rw [cursorAfter_succ, cursorAfter_succ, hcursor]
      cases hanswer : lexicon.answer input calls with
      | ok x => rw [next_extend_of_ok hanswer]
      | error e =>
          rcases next_extend_of_error more hanswer with hsame | ⟨r, -, word, -, htoken⟩
          · rw [hsame]
          · cases (htoken.symm.trans hlast).trans hanswer

/-- Up to a failure the answers agree. -/
theorem answer_extend (more : List (LexemeRule κ))
    (h : ∀ j < calls, (lexicon.answer input j).isOk = true) :
    ∀ j < calls, (lexicon.extend more).answer input j = lexicon.answer input j := by
  induction calls with
  | zero => exact fun _ hj => nomatch hj
  | succ calls ih =>
      have hbefore := ih fun j hj => h j (Nat.lt_succ_of_lt hj)
      intro j hj
      rcases Nat.lt_succ_iff_lt_or_eq.mp hj with hj | rfl
      · exact hbefore j hj
      · have hcursor := cursorAfter_extend hbefore
        have hok := h j (Nat.lt_succ_self j)
        cases hanswer : lexicon.answer input j with
        | ok x =>
            rw [answer, hcursor, next_extend_of_ok hanswer]
            exact hanswer
        | error e =>
            rw [hanswer] at hok
            cases hok

/-- Where the end is returned once, no call fails. -/
theorem isOk_answer_of_end {kind : κ} {t : Token} {k : Nat}
    (h : lexicon.answer input k = .ok (kind, t)) (htext : t.text = "") (j : Nat) :
    (lexicon.answer input j).isOk = true := by
  have hfinal : lexicon.FinalAt input k := by
    have hanswers := answers_next lexicon (lexicon.cursorAfter input k)
    rw [← cursorAfter_succ, ← answer] at hanswers
    rw [FinalAt]
    generalize lexicon.answer input k = a at h hanswers ⊢
    generalize lexicon.cursorAfter input (k + 1) = after at hanswers ⊢
    cases hanswers with
    | finish hrest => exact Or.inl ⟨hrest, rfl⟩
    | token hfirst =>
        obtain ⟨-, rfl⟩ := Prod.mk.inj (Except.ok.inj h)
        exact absurd htext (text_ne_of_firstRule? hfirst)
    | fail => cases h
  cases hanswer : lexicon.answer input j with
  | ok x => rfl
  | error e =>
      -- the end and the failure both persist, so that neither can come first
      have hfailed : lexicon.FinalAt input j := Or.inr ⟨e, hanswer⟩
      rcases Nat.le_total j k with hjk | hkj
      · cases (h.symm.trans (hfailed.persists hjk).1).trans hanswer
      · cases (h.symm.trans (hfinal.persists hkj).1.symm).trans hanswer

/-! ### Compiled patterns -/

/-- Rules that are compiled behind others extend the lexicon of these. -/
theorem exists_extend {skips : List String} {rules added : List (κ × String × String)}
    {endKind : κ} {longer : Lexicon κ}
    (h : ofPatterns? skips (rules ++ added) endKind = some longer) :
    ∃ lexicon more, ofPatterns? skips rules endKind = some lexicon ∧
      longer = lexicon.extend more ∧
      ∀ r ∈ more, ∃ pattern, (r.kind, r.name, pattern) ∈ added := by
  obtain ⟨compiled, hskips, h⟩ := Option.bind_eq_some_iff.mp h
  obtain ⟨found, hfound, h⟩ := Option.bind_eq_some_iff.mp h
  obtain rfl := Option.some.inj h
  rw [List.mapM_append] at hfound
  obtain ⟨own, hown, hfound⟩ := Option.bind_eq_some_iff.mp hfound
  obtain ⟨more, hmore, hfound⟩ := Option.bind_eq_some_iff.mp hfound
  obtain rfl := Option.some.inj hfound
  refine ⟨⟨compiled, own, endKind⟩, more, ?_, rfl, fun r hr => ?_⟩
  · simp only [ofPatterns?, hskips, hown, Option.bind_eq_bind, Option.bind_some]
  · obtain ⟨⟨kind, name, pattern⟩, hmem, hrule⟩ := exists_of_mem_mapM hmore hr
    obtain ⟨p, -, rfl⟩ := Option.map_eq_some_iff.mp hrule
    exact ⟨pattern, hmem⟩

/-- On the input the longer lexicon, with the added rules behind those of the other, only differs
from it by making tokens where the other fails. -/
structure ConservedBy (lexicon longer : Lexicon κ) (added : List (κ × String × String))
    (input : String) : Prop where
  /-- Up to the first failure the answers agree, and after each of them the cursors. -/
  agrees : ∀ n, (∀ j < n, (lexicon.answer input j).isOk = true) →
    ∀ j < n, longer.answer input j = lexicon.answer input j ∧
      longer.cursorAfter input (j + 1) = lexicon.cursorAfter input (j + 1)
  /-- Where the whole input is split into tokens it is split into the same ones. -/
  whole : ∀ k, lexicon.answer input k = .ok (lexicon.endKind, .atEnd (byteLength input.toList)) →
    ∀ j, longer.answer input j = lexicon.answer input j ∧
      longer.cursorAfter input (j + 1) = lexicon.cursorAfter input (j + 1)
  /-- The first answer that differs is a token of an added rule in the place of a failure. -/
  differs : ∀ n, (∀ j < n, longer.answer input j = lexicon.answer input j) →
    longer.answer input n ≠ lexicon.answer input n →
      ∃ e r word, lexicon.answer input n = .error e ∧ r ∈ added ∧ word ≠ "" ∧
        longer.answer input n = .ok (r.1, ⟨r.2.1, word, e.offset⟩)

/-- Token rules can be added behind the others: what was a token stays the same token, with the same
place and the same counts behind it. -/
theorem added_rules_conserve (skips : List String) (rules added : List (κ × String × String))
    (endKind : κ) (longer : Lexicon κ)
    (h : ofPatterns? skips (rules ++ added) endKind = some longer) (input : String) :
    ∃ lexicon, ofPatterns? skips rules endKind = some lexicon ∧
      lexicon.ConservedBy longer added input := by
  obtain ⟨lexicon, more, hlexicon, rfl, hmore⟩ := exists_extend h
  have hagrees : ∀ n, (∀ j < n, (lexicon.answer input j).isOk = true) →
      ∀ j < n, (lexicon.extend more).answer input j = lexicon.answer input j ∧
        (lexicon.extend more).cursorAfter input (j + 1) = lexicon.cursorAfter input (j + 1) := by
    intro n hok j hj
    have hanswers := answer_extend more hok
    exact ⟨hanswers j hj, cursorAfter_extend fun i hi => hanswers i (by omega)⟩
  refine ⟨lexicon, hlexicon, hagrees, fun k hk j => ?_, fun n hsame hdiffers => ?_⟩
  · exact hagrees (j + 1) (fun i _ => isOk_answer_of_end hk rfl i) j (Nat.lt_succ_self j)
  · have hlonger : (lexicon.extend more).answer input n =
        ((lexicon.extend more).next (lexicon.cursorAfter input n)).1 := by
      rw [answer, cursorAfter_extend hsame]
    rw [hlonger] at hdiffers ⊢
    cases hanswer : lexicon.answer input n with
    | ok x => exact absurd (congrArg Prod.fst (next_extend_of_ok hanswer)) hdiffers
    | error e =>
        rcases next_extend_of_error more hanswer with heq | ⟨r, hr, word, hword, htoken⟩
        · exact absurd (congrArg Prod.fst heq) hdiffers
        · obtain ⟨pattern, hadded⟩ := hmore r hr
          exact ⟨e, _, word, rfl, hadded, hword, htoken⟩

/-- A keyword behind the rule of names, and a sign that no rule takes without the added ones. -/
theorem added_rules_conserve_keyword : ∃ longer,
    ofPatterns? [" +"] ([('i', "NAME", "[a-z]+")] ++ [('l', "LET", "let"), ('s', "SIGN", "[+]+")])
      'e' = some longer ∧
    ∃ lexicon, ofPatterns? [" +"] [('i', "NAME", "[a-z]+")] 'e' = some lexicon ∧
      lexicon.ConservedBy longer [('l', "LET", "let"), ('s', "SIGN", "[+]+")] "let a ++b" := by
  have haccepted : (ofPatterns? [" +"]
      ([('i', "NAME", "[a-z]+")] ++ [('l', "LET", "let"), ('s', "SIGN", "[+]+")]) 'e').isSome =
        true := by decide +kernel
  obtain ⟨longer, hlonger⟩ := Option.isSome_iff_exists.mp haccepted
  exact ⟨longer, hlonger, added_rules_conserve _ _ _ _ longer hlonger _⟩

end Lexicon
end Descent
