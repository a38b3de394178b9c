import Descent.Proofs.Description.Forms
import Descent.Proofs.Description.Tracking
import Descent.Proofs.Grammar.Valid

/-!
# What is read has the form

All that the recognizer of declarations reads has the form of declarations. The parts of a
declaration track their forms, as far as each block in square brackets is one binding.
-/

namespace Descent.Description

open Recognizer

variable {α : Type}

/-! ### Words -/

/-- The text is one binding. -/
def IsBinding (text : String) : Prop :=
  ∃ piece b, splitTopLevel true text = [piece] ∧ readBinding piece = .ok b

/-- If the word is a block in square brackets, it is one binding. -/
def Lexeme.Binds : Lexeme → Prop
  | .bracket text => IsBinding text
  | _ => True

/-- The unit result is a binding. -/
theorem isBinding_unit : IsBinding "r: ()" := ⟨"r: ()", ⟨"r", "()"⟩, by decide, by decide⟩

/-- A recognizer of one word tracks the words that it accepts. -/
theorem tracks_labelled_word {label : String} {accept : Lexeme → Option α} {spell : α → Lexeme}
    {a : α} (h : ∀ l a, accept l = some a → l = spell a) (ha : accept (spell a) = some a)
    (hbinds : (spell a).Binds) :
    Tracks Lexeme.Binds (labelled label (word [] accept)) fun a words => words = [spell a] := by
  refine ((tracks_word ha hbinds).imp ?_).labelled
  rintro b _ ⟨l, hl, rfl⟩
  rw [h l b hl]

/-- A part that reads one word tracks that word. -/
theorem tracks_just {l : Lexeme} (hbinds : l.Binds) :
    Tracks Lexeme.Binds (just l) fun _ words => words = [l] := by
  refine (tracks_word (if_pos rfl) hbinds).imp ?_
  rintro _ _ ⟨m, hm, rfl⟩
  by_cases heq : m = l
  · rw [heq]
  · rw [if_neg heq] at hm
    cases hm

private theorem tracks_keyword (k : Keyword) :
    Tracks Lexeme.Binds (keyword k) fun _ words => words = [.keyword k] := tracks_just trivial

private theorem tracks_punctuation (p : Punctuation) :
    Tracks Lexeme.Binds (punctuation p) fun _ words => words = [.punctuation p] :=
  tracks_just trivial

private theorem tracks_tokenName :
    Tracks Lexeme.Binds tokenName fun name words => words = [.upper name] :=
  tracks_labelled_word (a := "") (fun l a h => by cases l <;> cases h; rfl) rfl trivial

private theorem tracks_ruleName :
    Tracks Lexeme.Binds ruleName fun name words => words = [.lower name] :=
  tracks_labelled_word (a := "") (fun l a h => by cases l <;> cases h; rfl) rfl trivial

private theorem tracks_codeBlock :
    Tracks Lexeme.Binds codeBlock fun text words => words = [.code text] :=
  tracks_labelled_word (a := "") (fun l a h => by cases l <;> cases h; rfl) rfl trivial

private theorem tracks_bracketBlock :
    Tracks Lexeme.Binds bracketBlock fun text words => words = [.bracket text] :=
  tracks_labelled_word (fun l a h => by cases l <;> cases h; rfl) rfl isBinding_unit

private theorem tracks_patternText :
    Tracks Lexeme.Binds patternText fun text words => words = [.pattern text] :=
  tracks_labelled_word (a := "") (fun l a h => by cases l <;> cases h; rfl) rfl trivial

private theorem tracks_optional_codeBlock :
    Tracks Lexeme.Binds codeBlock.optional fun code words => words = codeWords code :=
  tracks_codeBlock.optional rfl fun _ _ h => h

private theorem tracks_optional_bracketBlock :
    Tracks Lexeme.Binds bracketBlock.optional fun text words => words = bracketWords text :=
  tracks_bracketBlock.optional rfl fun _ _ h => h

private theorem tracks_bindingName :
    Tracks Lexeme.Binds bindingName fun name words => words = bindingWords name :=
  (tracks_ruleName.before (R := fun name words => words = [.lower name, .punctuation .equals])
    (tracks_punctuation .equals) (by rintro name _ _ _ rfl rfl; rfl)).optional rfl fun _ _ h => h

/-- A terminal in a rule tracks the form of an atom. -/
theorem tracks_terminalAtom : Tracks Lexeme.Binds terminalAtom AtomForm := by
  have hname := tracks_bindingName.both (R := fun x words =>
    words = bindingWords x.1 ++ [.upper x.2]) tracks_tokenName (by rintro _ _ _ _ rfl rfl; rfl)
  have hall := hname.both (R := fun x words =>
    words = bindingWords x.1.1 ++ .upper x.1.2 :: codeWords x.2) tracks_optional_codeBlock (by
      rintro _ _ _ _ rfl rfl
      simp only [List.append_assoc, List.singleton_append])
  exact hall.map fun ⟨⟨binding, name⟩, action⟩ _ h => h ▸ .terminal binding name action

/-- A rule name in a rule tracks the form of an atom. -/
theorem tracks_nonterminalAtom : Tracks Lexeme.Binds nonterminalAtom AtomForm := by
  have hname := tracks_bindingName.both (R := fun x words =>
    words = bindingWords x.1 ++ [.lower x.2]) tracks_ruleName (by rintro _ _ _ _ rfl rfl; rfl)
  have harguments := hname.both (R := fun x words =>
    words = bindingWords x.1.1 ++ .lower x.1.2 :: bracketWords x.2) tracks_optional_bracketBlock (by
      rintro _ _ _ _ rfl rfl
      simp only [List.append_assoc, List.singleton_append])
  have hall := harguments.both (R := fun x words =>
    words = bindingWords x.1.1.1 ++ .lower x.1.1.2 :: (bracketWords x.1.2 ++ codeWords x.2))
    tracks_optional_codeBlock (by
      rintro _ _ _ _ rfl rfl
      simp only [List.append_assoc, List.cons_append])
  exact hall.map fun ⟨⟨⟨binding, name⟩, arguments⟩, action⟩ _ h =>
    h ▸ .nonterminal binding name arguments action

/-- An atom tracks its form. -/
theorem tracks_atom : Tracks Lexeme.Binds atom AtomForm :=
  (tracks_terminalAtom.orElse tracks_nonterminalAtom).labelled

/-- The empty alternative tracks the form of an alternative. -/
theorem tracks_epsilonAlternative : Tracks Lexeme.Binds epsilonAlternative AlternativeForm := by
  have hinit := tracks_optional_codeBlock.before (R := fun init words =>
    words = codeWords init ++ [.keyword .eps]) (tracks_keyword .eps) (by
      rintro _ _ _ _ rfl rfl
      rfl)
  have hall := hinit.both (R := fun x words =>
    words = codeWords x.1 ++ .keyword .eps :: codeWords x.2) tracks_optional_codeBlock (by
      rintro _ _ _ _ rfl rfl
      simp only [List.append_assoc, List.singleton_append])
  exact hall.map fun ⟨init, code⟩ _ h => h ▸ .epsilon init code

/-- The form of an atom has at least one word. -/
theorem AtomForm.length_pos {a : Atom} {words : List Lexeme} (h : AtomForm a words) :
    0 < words.length := by
  cases h <;> simp only [List.length_append, List.length_cons] <;> omega

/-- A sequence of atoms tracks the form of an alternative. -/
theorem tracks_sequenceAlternative : Tracks Lexeme.Binds sequenceAlternative AlternativeForm := by
  have hatoms : Tracks Lexeme.Binds atom.some1 fun atoms words =>
      atoms ≠ [] ∧ Series AtomForm atoms words :=
    (tracks_atom.both (R := fun x words => Series AtomForm (x.1 :: x.2) words)
      (tracks_atom.many fun _ h => absurd h.length_pos (Nat.lt_irrefl 0))
      fun _ _ _ _ ha has => .cons ha has).map fun _ _ h => ⟨List.cons_ne_nil _ _, h⟩
  have hall := tracks_optional_codeBlock.both (R := fun x words =>
    ∃ rest, words = codeWords x.1 ++ rest ∧ x.2 ≠ [] ∧ Series AtomForm x.2 rest) hatoms (by
      rintro _ _ _ rest rfl h
      exact ⟨rest, rfl, h⟩)
  exact hall.map fun ⟨init, atoms⟩ _ ⟨rest, hwords, hne, h⟩ => hwords ▸ .sequence init hne h

/-- An alternative tracks its form. -/
theorem tracks_alternative : Tracks Lexeme.Binds alternative AlternativeForm :=
  (tracks_epsilonAlternative.orElse tracks_sequenceAlternative).labelled

/-- Values with a word between any two have the form of such a list. -/
theorem tracks_separated {p : Recognizer α} {l : Lexeme} {Form : α → List Lexeme → Prop}
    (hp : Tracks Lexeme.Binds p Form) (hbinds : l.Binds) :
    Tracks Lexeme.Binds (p.separated (just l)) (Separated l Form) := by
  have hled : Tracks Lexeme.Binds ((just l).after p) (Led l Form) :=
    (tracks_just hbinds).after hp (by rintro _ a _ rest rfl h; exact ⟨rest, h, rfl⟩)
  have hpos : ∀ a, ¬ Led l Form a [] := by
    rintro a ⟨rest, -, hnil⟩
    cases hnil
  exact (hp.both (R := fun x words => Separated l Form (x.1 :: x.2) words) (hled.many hpos)
    fun _ _ _ _ ha has => .mk ha has).map fun _ _ h => h

/-! ### Bindings -/

/-- Bindings are read from texts exactly if each text is one. -/
theorem readBindings_eq_ok_iff {texts : List String} {bindings : List Binding} :
    readBindings texts = .ok bindings ↔ AreBindings texts bindings := by
  rw [readBindings]
  induction texts generalizing bindings with
  | nil =>
      rw [List.mapM_nil, AreBindings, List.forall₂_nil_left_iff]
      exact ⟨fun h => (Except.ok.inj h).symm, fun h => congrArg Except.ok h.symm⟩
  | cons text rest ih =>
      simp only [List.mapM_cons, bind_eq_ok, ih, AreBindings, List.forall₂_cons_left_iff]
      constructor
      · rintro ⟨b, hb, bs, hbs, h⟩
        exact ⟨b, bs, hb, hbs, (Except.ok.inj h).symm⟩
      · rintro ⟨b, bs, hb, hbs, rfl⟩
        exact ⟨b, hb, bs, hbs, rfl⟩

/-- The result of a rule is read exactly from a text that is one piece and whose piece is a
binding. -/
theorem readReturns_eq_ok_iff {text : String} {result : Binding} :
    readReturns text = .ok result ↔
      ∃ piece, splitTopLevel true text = [piece] ∧ readBinding piece = .ok result := by
  rw [readReturns]
  split
  · next single hsingle =>
      simp only [hsingle, List.cons.injEq, and_true, exists_eq_left']
      cases readBinding single <;> simp
  · next hnot =>
      exact iff_of_false nofun fun ⟨piece, h, _⟩ => hnot piece h

/-- A rule is made of its parts exactly if the arguments are bindings and it returns one binding. -/
theorem makeRule_eq_ok_iff {name returns : String} {arguments : Option String}
    {alternatives : List Alternative} {r : ParserRule} :
    makeRule name arguments returns alternatives = .ok r ↔
      ∃ bindings result, AreBindings (splitTopLevel true (arguments.getD "")) bindings ∧
        (∃ piece, splitTopLevel true returns = [piece] ∧ readBinding piece = .ok result) ∧
        r = ⟨name, bindings, result, alternatives⟩ := by
  simp only [← readBindings_eq_ok_iff, ← readReturns_eq_ok_iff]
  rw [makeRule]
  cases hbindings : readBindings (splitTopLevel true (arguments.getD "")) with
  | error e => exact iff_of_false nofun fun ⟨_, _, h, _⟩ => nomatch h
  | ok bindings =>
      cases hreturns : readReturns returns with
      | error e =>
          refine iff_of_false ?_ fun ⟨_, _, _, h, _⟩ => nomatch h
          cases e <;> nofun
      | ok result =>
          dsimp only
          constructor
          · intro h
            exact ⟨bindings, result, rfl, rfl, (Except.ok.inj h).symm⟩
          · rintro ⟨_, _, hb, hr, rfl⟩
            rw [Except.ok.inj hb, Except.ok.inj hr]

/-! ### Declarations -/

/-- The parts of a rule, which are still to be checked. -/
def ruleParts : Recognizer (((String × Option String) × String) × List Alternative) :=
  (((((ruleName.both bracketBlock.optional).before (keyword .returns)).both
    bracketBlock).before (punctuation .colon)).both
    (alternative.separated (punctuation .pipe))).before (punctuation .semicolon)

/-- The words of the parts of a rule. -/
def PartsForm (parts : ((String × Option String) × String) × List Alternative)
    (words : List Lexeme) : Prop :=
  ∃ rest, Separated (.punctuation .pipe) AlternativeForm parts.2 rest ∧
    words = .lower parts.1.1.1 :: (bracketWords parts.1.1.2 ++ .keyword .returns ::
      .bracket parts.1.2 :: .punctuation .colon :: (rest ++ [.punctuation .semicolon]))

/-- The parts of a rule track their form. -/
theorem tracks_ruleParts : Tracks Lexeme.Binds ruleParts PartsForm := by
  have hhead := tracks_ruleName.both (R := fun x words => words = .lower x.1 :: bracketWords x.2)
    tracks_optional_bracketBlock (by rintro _ _ _ _ rfl rfl; rfl)
  have hkeyword := hhead.before (R := fun x words =>
    words = .lower x.1 :: (bracketWords x.2 ++ [.keyword .returns])) (tracks_keyword .returns) (by
      rintro _ _ _ _ rfl rfl
      rfl)
  have hreturns := hkeyword.both (R := fun x words =>
    words = .lower x.1.1 :: (bracketWords x.1.2 ++ [.keyword .returns, .bracket x.2]))
    tracks_bracketBlock (by
      rintro _ _ _ _ rfl rfl
      simp only [List.cons_append, List.append_assoc, List.nil_append])
  have hcolon := hreturns.before (R := fun x words =>
    words = .lower x.1.1 ::
      (bracketWords x.1.2 ++ [.keyword .returns, .bracket x.2, .punctuation .colon]))
    (tracks_punctuation .colon) (by
      rintro _ _ _ _ rfl rfl
      simp only [List.cons_append, List.append_assoc, List.nil_append])
  have halternatives := hcolon.both (R := fun x words => ∃ rest,
    Separated (.punctuation .pipe) AlternativeForm x.2 rest ∧
    words = .lower x.1.1.1 ::
      (bracketWords x.1.1.2 ++ .keyword .returns :: .bracket x.1.2 :: .punctuation .colon :: rest))
    (tracks_separated (l := .punctuation .pipe) tracks_alternative trivial) (by
      rintro _ _ _ rest rfl h
      refine ⟨rest, h, ?_⟩
      simp only [List.cons_append, List.append_assoc, List.nil_append])
  refine halternatives.before (tracks_punctuation .semicolon) ?_
  rintro _ _ _ _ ⟨rest, h, rfl⟩ rfl
  refine ⟨rest, h, ?_⟩
  simp only [List.cons_append, List.append_assoc]

/-- What is read as a rule are the parts of one, and they have been checked. -/
theorem exists_of_ruleItem {r : Reading} {memory : Memory} {item : Item} {after : Reading}
    (h : (ruleItem r memory).1 = some (item, after)) : ∃ words,
    r.rest = words ++ after.rest ∧ after.place = r.place + words.length ∧ ItemForm item words := by
  rw [ruleItem, checked_fst, Option.bind_eq_some_iff] at h
  obtain ⟨⟨⟨⟨⟨name, arguments⟩, returns⟩, alternatives⟩, last⟩, hparts, hmake⟩ := h
  obtain ⟨words, hwords, hplace, rest, hrest, rfl⟩ := tracks_ruleParts.reads hparts
  cases hr : makeRule name arguments returns alternatives with
  | error e => simp [hr, Except.map, Except.toOption] at hmake
  | ok r =>
      simp only [hr, Except.map, Except.toOption, Option.map_some, Option.some.injEq,
        Prod.mk.injEq] at hmake
      obtain ⟨rfl, rfl⟩ := hmake
      obtain ⟨bindings, result, hbindings, ⟨piece, hpiece, hresult⟩, rfl⟩ :=
        makeRule_eq_ok_iff.mp hr
      exact ⟨_, hwords, hplace, .rule (.mk name hbindings hpiece hresult hrest)⟩

/-- A header tracks the form of a declaration. -/
theorem tracks_headerItem : Tracks Lexeme.Binds headerItem ItemForm :=
  ((tracks_keyword .header).after
    (R := fun text words => words = [.keyword .header, .code text])
    tracks_codeBlock (by rintro _ _ _ _ rfl rfl; rfl)).map fun text _ h => h ▸ .header text

/-- A token declaration tracks the form of a declaration. -/
theorem tracks_tokenItem : Tracks Lexeme.Binds tokenItem ItemForm := by
  have hname := (tracks_keyword .token).after
    (R := fun name words => words = [.keyword .token, .upper name]) tracks_tokenName (by
      rintro _ _ _ _ rfl rfl; rfl)
  have hequals := hname.before (R := fun name words =>
    words = [.keyword .token, .upper name, .punctuation .equals]) (tracks_punctuation .equals) (by
      rintro _ _ _ _ rfl rfl; rfl)
  have hpattern := hequals.both (R := fun x words =>
    words = [.keyword .token, .upper x.1, .punctuation .equals, .pattern x.2])
    tracks_patternText (by rintro _ _ _ _ rfl rfl; rfl)
  have hall := hpattern.before (R := fun x words =>
    words = [.keyword .token, .upper x.1, .punctuation .equals, .pattern x.2,
      .punctuation .semicolon]) (tracks_punctuation .semicolon) (by rintro _ _ _ _ rfl rfl; rfl)
  exact hall.map fun ⟨name, pattern⟩ _ h => h ▸ .token name pattern

/-- A skip declaration tracks the form of a declaration. -/
theorem tracks_skipItem : Tracks Lexeme.Binds skipItem ItemForm := by
  have hnames := (tracks_keyword .skip).after (R := fun names words => ∃ rest,
    Separated (.punctuation .comma) (fun name words => words = [.upper name]) names rest ∧
      words = .keyword .skip :: rest)
    (tracks_separated (l := .punctuation .comma) tracks_tokenName trivial) (by
      rintro _ _ _ rest rfl h
      exact ⟨rest, h, rfl⟩)
  have hall := hnames.before (R := ItemForm ∘ .skip) (tracks_punctuation .semicolon) (by
    rintro _ _ _ _ ⟨rest, h, rfl⟩ rfl
    exact .skip h)
  exact hall.map fun _ _ h => h

/-- A start declaration tracks the form of a declaration. -/
theorem tracks_startItem : Tracks Lexeme.Binds startItem ItemForm := by
  have hname := (tracks_keyword .start).after
    (R := fun name words => words = [.keyword .start, .lower name]) tracks_ruleName (by
      rintro _ _ _ _ rfl rfl; rfl)
  have hall := hname.before (R := fun name words =>
    words = [.keyword .start, .lower name, .punctuation .semicolon])
    (tracks_punctuation .semicolon) (by rintro _ _ _ _ rfl rfl; rfl)
  exact hall.map fun name _ h => h ▸ .start name

/-- What is read as a declaration has the form of it, and the place moves behind it. -/
theorem exists_of_item {r : Reading} {memory : Memory} {item : Item} {after : Reading}
    (h : (Item.recognizer r memory).1 = some (item, after)) : ∃ words,
    r.rest = words ++ after.rest ∧ after.place = r.place + words.length ∧ ItemForm item words := by
  rw [Item.recognizer] at h
  iterate rw [orElse_fst, Option.or_eq_some_iff] at h
  rcases h with h | ⟨-, h | ⟨-, h | ⟨-, h | ⟨-, h⟩⟩⟩⟩
  · exact tracks_headerItem.reads h
  · exact tracks_tokenItem.reads h
  · exact tracks_skipItem.reads h
  · exact tracks_startItem.reads h
  · exact exists_of_ruleItem h

/-- The recognizer of declarations is sound for the form of declarations. -/
theorem sound_item : Item.recognizer.Sound ItemForm := by
  intro r memory item after h
  obtain ⟨words, hr, -, hform⟩ := exists_of_item h
  exact ⟨words, hr, hform⟩

end Descent.Description
