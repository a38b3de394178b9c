import Descent.Proofs.Description.Soundness
import Mathlib.Data.Set.Subsingleton

/-!
# What has the form is read

Words that have the form of a value are read as that value, given that the words behind
them are none that the value could go on with. With the converse, a description is
read exactly if it has the form of declarations.
-/

namespace Descent.Description

open Recognizer

variable {α : Type} {words rest : List Lexeme}

/-! ### Optional words -/

/-- The words do not begin with a block of code. -/
def NoCode (words : List Lexeme) : Prop := ∀ text, words.head? ≠ some (.code text)

/-- The words do not begin with a block in square brackets. -/
def NoBracket (words : List Lexeme) : Prop := ∀ text, words.head? ≠ some (.bracket text)

/-- A recognizer of one word refuses words that do not begin with one that it accepts. -/
theorem refuses_labelled_word {label : String} {accept : Lexeme → Option α}
    (h : ∀ l, words.head? = some l → accept l = none) :
    (labelled label (word [] accept)).Refuses words := by
  cases words with
  | nil => exact refuses_word_nil.labelled
  | cons l rest => exact (refuses_word (h l rfl)).labelled

private theorem reads_tokenName {name : String} : tokenName.Reads (.upper name :: rest) name rest :=
  .labelled (reads_word rfl)

private theorem reads_ruleName {name : String} : ruleName.Reads (.lower name :: rest) name rest :=
  .labelled (reads_word rfl)

private theorem reads_codeBlock {text : String} : codeBlock.Reads (.code text :: rest) text rest :=
  .labelled (reads_word rfl)

private theorem reads_bracketBlock {text : String} :
    bracketBlock.Reads (.bracket text :: rest) text rest :=
  .labelled (reads_word rfl)

private theorem reads_patternText {text : String} :
    patternText.Reads (.pattern text :: rest) text rest :=
  .labelled (reads_word rfl)

/-- A block of code that may be left out is read, given that none follows where it is. -/
theorem reads_optional_codeBlock {code : Option String} (h : NoCode rest) :
    codeBlock.optional.Reads (codeWords code ++ rest) code rest := by
  cases code with
  | none =>
      refine .optional_none (refuses_labelled_word fun l hl => ?_)
      cases l with
      | code text => exact absurd hl (h text)
      | _ => rfl
  | some text => exact .optional_some reads_codeBlock

/-- A block in brackets that may be left out is read, given that none follows where it is. -/
theorem reads_optional_bracketBlock {text : Option String} (h : NoBracket rest) :
    bracketBlock.optional.Reads (bracketWords text ++ rest) text rest := by
  cases text with
  | none =>
      refine .optional_none (refuses_labelled_word fun l hl => ?_)
      cases l with
      | bracket text => exact absurd hl (h text)
      | _ => rfl
  | some text => exact .optional_some reads_bracketBlock

private theorem reads_bindingName_some {name : String} :
    bindingName.Reads (.lower name :: .punctuation .equals :: rest) (some name) rest :=
  (reads_ruleName.before reads_just).optional_some

/-- Without a sign of equality behind it a name is no variable. -/
theorem reads_bindingName_lower {name : String} (h : rest.head? ≠ some (.punctuation .equals)) :
    bindingName.Reads (.lower name :: rest) none (.lower name :: rest) := by
  refine .optional_none (Refuses.map (Refuses.both_right reads_ruleName ?_))
  cases rest with
  | nil => exact refuses_word_nil
  | cons l rest => exact refuses_just fun heq => h (by rw [heq]; rfl)

private theorem reads_bindingName_upper {name : String} :
    bindingName.Reads (.upper name :: rest) none (.upper name :: rest) :=
  .optional_none (Refuses.map (Refuses.both_left (refuses_word rfl).labelled))

/-! ### Atoms -/

/-- The words that stand behind the atoms of an alternative. -/
inductive EndsAlternative : List Lexeme → Prop where
  | pipe {rest : List Lexeme} : EndsAlternative (.punctuation .pipe :: rest)
  | semicolon {rest : List Lexeme} : EndsAlternative (.punctuation .semicolon :: rest)

/-- The words that stand behind an atom. -/
inductive EndsAtom : List Lexeme → Prop where
  | upper {name : String} {rest : List Lexeme} : EndsAtom (.upper name :: rest)
  | lower {name : String} {rest : List Lexeme} : EndsAtom (.lower name :: rest)
  | last {words : List Lexeme} (h : EndsAlternative words) : EndsAtom words

/-- An atom does not go on with the words. -/
structure Apart (words : List Lexeme) : Prop where
  noCode : NoCode words
  noBracket : NoBracket words
  noEquals : words.head? ≠ some (.punctuation .equals)

private theorem EndsAtom.apart (h : EndsAtom words) : Apart words := by
  rcases h with _ | _ | (_ | _) <;> exact ⟨nofun, nofun, nofun⟩

/-- An atom ends the one in front of it. -/
theorem AtomForm.endsAtom {a : Atom} (h : AtomForm a words) : EndsAtom (words ++ rest) := by
  rcases h with ⟨_ | _, name, action⟩ | ⟨_ | _, name, arguments, action⟩
  · exact .upper
  · exact .lower
  · exact .lower
  · exact .lower

private theorem noBracket_codeWords {code : Option String} (h : NoBracket rest) :
    NoBracket (codeWords code ++ rest) := by
  cases code with
  | none => exact h
  | some text => exact nofun

/-- The words behind the name of a rule are no sign of equality. -/
theorem head?_arguments_ne_equals {arguments code : Option String} (h : Apart rest) :
    (bracketWords arguments ++ (codeWords code ++ rest)).head? ≠ some (.punctuation .equals) := by
  rcases arguments with _ | text
  · rcases code with _ | text
    · exact h.noEquals
    · nofun
  · nofun

/-- The name of a binding is read where it stands, and left out where none stands. -/
theorem reads_bindingName {binding : Option String} {l : Lexeme}
    (hl : (∃ name, l = .upper name) ∨
      (∃ name, l = .lower name) ∧ rest.head? ≠ some (.punctuation .equals)) :
    bindingName.Reads (bindingWords binding ++ l :: rest) binding (l :: rest) := by
  rcases binding with _ | name
  · rcases hl with ⟨name, rfl⟩ | ⟨⟨name, rfl⟩, h⟩
    · exact reads_bindingName_upper
    · exact reads_bindingName_lower h
  · exact reads_bindingName_some

/-- A token of an alternative is read with its binding and its action. -/
theorem reads_terminalAtom {binding action : Option String} {name : String} (h : Apart rest) :
    terminalAtom.Reads (bindingWords binding ++ .upper name :: (codeWords action ++ rest))
      ⟨binding.getD unbound, name, .terminal, action⟩ rest :=
  (((reads_bindingName (.inl ⟨name, rfl⟩)).both reads_tokenName).both
    (reads_optional_codeBlock h.noCode)).map

private theorem refuses_terminalAtom {binding : Option String} {name : String}
    (h : rest.head? ≠ some (.punctuation .equals)) :
    terminalAtom.Refuses (bindingWords binding ++ .lower name :: rest) :=
  Refuses.map <| Refuses.both_left <|
    Refuses.both_right (reads_bindingName (.inr ⟨⟨name, rfl⟩, h⟩)) (refuses_word rfl).labelled

/-- The call of a rule is read with its binding, its arguments and its action. -/
theorem reads_nonterminalAtom {binding arguments action : Option String} {name : String}
    (h : Apart rest) :
    nonterminalAtom.Reads
      (bindingWords binding ++
        .lower name :: (bracketWords arguments ++ (codeWords action ++ rest)))
      ⟨binding.getD unbound, name, .nonterminal (argumentsOf arguments), action⟩ rest :=
  ((((reads_bindingName (.inr ⟨⟨name, rfl⟩, head?_arguments_ne_equals h⟩)).both reads_ruleName).both
    (reads_optional_bracketBlock (noBracket_codeWords h.noBracket))).both
      (reads_optional_codeBlock h.noCode)).map

/-- Words that have the form of an atom are read as that atom. -/
theorem reads_atom {a : Atom} (ha : AtomForm a words) (h : Apart rest) :
    atom.Reads (words ++ rest) a rest := by
  rcases ha with ⟨binding, name, action⟩ | ⟨binding, name, arguments, action⟩
  · rw [List.append_assoc, List.cons_append]
    exact (reads_terminalAtom h).orElse_left.labelled
  · rw [List.append_assoc, List.cons_append, List.append_assoc]
    exact ((reads_nonterminalAtom h).orElse_right
      (refuses_terminalAtom (head?_arguments_ne_equals h))).labelled

/-- No atom begins with a word that is no name. -/
theorem refuses_atom (h : EndsAlternative rest) : atom.Refuses rest := by
  have hname : ∀ {l : Lexeme} {tail : List Lexeme}, (l = .punctuation .pipe ∨
      l = .punctuation .semicolon) → atom.Refuses (l :: tail) := by
    rintro l tail hl
    have hlower : ruleName.Refuses (l :: tail) :=
      (refuses_word (by rcases hl with rfl | rfl <;> rfl)).labelled
    have hupper : tokenName.Refuses (l :: tail) :=
      (refuses_word (by rcases hl with rfl | rfl <;> rfl)).labelled
    have hbinding : bindingName.Reads (l :: tail) none (l :: tail) :=
      .optional_none (Refuses.map (Refuses.both_left hlower))
    have hterminal : terminalAtom.Refuses (l :: tail) :=
      Refuses.map (Refuses.both_left (Refuses.both_right hbinding hupper))
    have hnonterminal : nonterminalAtom.Refuses (l :: tail) :=
      Refuses.map (Refuses.both_left (Refuses.both_left (Refuses.both_right hbinding hlower)))
    exact (hterminal.orElse hnonterminal).labelled
  cases h with
  | pipe => exact hname (.inl rfl)
  | semicolon => exact hname (.inr rfl)

/-- What stands behind an atom in a series is another atom or what stands behind the series. -/
theorem endsAtom_series {atoms : List Atom} (h : Series AtomForm atoms words)
    (hrest : EndsAlternative rest) : EndsAtom (words ++ rest) := by
  cases h with
  | nil => exact .last hrest
  | cons ha _ =>
      rw [List.append_assoc]
      exact ha.endsAtom

/-- The atoms of an alternative are read up to what ends it. -/
theorem readsAll_atom {atoms : List Atom} (h : Series AtomForm atoms words)
    (hrest : EndsAlternative rest) : ReadsAll atom (words ++ rest) atoms rest := by
  -- the next atom, or the end of the alternative, is where the atom before it ends
  induction h with
  | nil => exact .nil (refuses_atom hrest)
  | cons ha hseries ih =>
      have hpos := ha.length_pos
      rw [List.append_assoc]
      refine .cons (reads_atom ha (endsAtom_series hseries hrest).apart) ?_ ih
      simp only [List.length_append]
      omega

/-! ### Alternatives -/

private theorem EndsAlternative.noCode (h : EndsAlternative rest) : NoCode rest := by
  cases h <;> exact fun _ => nofun

/-- An empty alternative is read with the code in front of it and behind it. -/
theorem reads_epsilonAlternative {init code : Option String} (h : EndsAlternative rest) :
    epsilonAlternative.Reads (codeWords init ++ .keyword .eps :: (codeWords code ++ rest))
      (.epsilon init code) rest :=
  (((reads_optional_codeBlock fun _ => by nofun).before reads_just).both
    (reads_optional_codeBlock h.noCode)).map

/-- Before the first atom there is no keyword. -/
theorem refuses_epsilonAlternative {init : Option String} (h : EndsAtom rest) :
    epsilonAlternative.Refuses (codeWords init ++ rest) := by
  refine Refuses.map (Refuses.both_left (Refuses.map
    (Refuses.both_right (reads_optional_codeBlock h.apart.noCode) ?_)))
  rcases h with _ | _ | (_ | _) <;> exact refuses_just nofun

/-- The atoms of an alternative, of which there is one at least, are read up to what ends it. -/
theorem reads_some1_atom {atoms : List Atom} (hne : atoms ≠ []) (h : Series AtomForm atoms words)
    (hrest : EndsAlternative rest) : atom.some1.Reads (words ++ rest) atoms rest := by
  cases h with
  | nil => exact absurd rfl hne
  | cons ha hseries =>
      rw [List.append_assoc]
      exact ((reads_atom ha (endsAtom_series hseries hrest).apart).both
        (readsAll_atom hseries hrest).many).map

/-- Words that have the form of an alternative are read as that alternative. -/
theorem reads_alternative {alt : Alternative} (h : AlternativeForm alt words)
    (hrest : EndsAlternative rest) : alternative.Reads (words ++ rest) alt rest := by
  rcases h with ⟨init, code⟩ | ⟨init, hne, hatoms⟩
  · rw [List.append_assoc, List.cons_append]
    exact (reads_epsilonAlternative hrest).orElse_left.labelled
  · have hends := endsAtom_series hatoms hrest
    rw [List.append_assoc]
    have hinit : codeBlock.optional.Reads (codeWords init ++ _) init _ :=
      reads_optional_codeBlock hends.apart.noCode
    exact ((hinit.both (reads_some1_atom hne hatoms hrest)).map.orElse_right
      (refuses_epsilonAlternative hends)).labelled

/-- A list with separators is read if each element is read where a separator or the end of the list
follows. -/
theorem reads_separated {p : Recognizer α} {l : Lexeme} {Form : α → List Lexeme → Prop}
    {Ends : List Lexeme → Prop} {as : List α}
    (hp : ∀ {a words rest}, Form a words → Ends rest → p.Reads (words ++ rest) a rest)
    (hl : ∀ rest, Ends (l :: rest)) (h : Separated l Form as words) (hrest : Ends rest)
    (hstop : (just l).Refuses rest) : (p.separated (just l)).Reads (words ++ rest) as rest := by
  have hends : ∀ {as words}, Series (Led l Form) as words → Ends (words ++ rest) := by
    rintro _ _ (_ | ⟨⟨_, _, rfl⟩, _⟩)
    · exact hrest
    · exact hl _
  have hmany : ∀ {as words}, Series (Led l Form) as words →
      ReadsAll ((just l).after p) (words ++ rest) as rest := by
    intro as words hseries
    induction hseries with
    | nil => exact .nil (Refuses.map (Refuses.both_left hstop))
    | cons hled hseries ih =>
        obtain ⟨words, hform, rfl⟩ := hled
        rw [List.append_assoc, List.cons_append]
        refine .cons (reads_just.after (hp hform (hends hseries))) ?_ ih
        simp only [List.length_cons, List.length_append]
        omega
  cases h with
  | mk hform hseries =>
      rw [List.append_assoc]
      exact ((hp hform (hends hseries)).both (hmany hseries).many).map

/-! ### Declarations -/

private theorem reads_headerItem {text : String} :
    headerItem.Reads (.keyword .header :: .code text :: rest) (.header text) rest :=
  (reads_just.after reads_codeBlock).map

/-- The declaration of a token is read. -/
theorem reads_tokenItem {name pattern : String} :
    tokenItem.Reads (.keyword .token :: .upper name :: .punctuation .equals :: .pattern pattern ::
      .punctuation .semicolon :: rest) (.token ⟨name, pattern⟩) rest :=
  ((((reads_just.after reads_tokenName).before reads_just).both reads_patternText).before
    reads_just).map

/-- The declaration of tokens that are skipped is read, whatever their number. -/
theorem reads_skipItem {names : List String}
    (h : Separated (.punctuation .comma) (fun name words => words = [.upper name]) names words) :
    skipItem.Reads (.keyword .skip :: (words ++ .punctuation .semicolon :: rest)) (.skip names)
      rest := by
  have hname : ∀ {name : String} {words rest : List Lexeme}, words = [.upper name] → True →
      tokenName.Reads (words ++ rest) name rest := by
    rintro name _ rest rfl -
    exact reads_tokenName
  have hstop : (just (.punctuation .comma)).Refuses (.punctuation .semicolon :: rest) :=
    refuses_just nofun
  have hnames := reads_separated hname (fun _ => trivial) h trivial hstop
  exact ((reads_just.after hnames).before reads_just).map

/-- The declaration of the start is read. -/
theorem reads_startItem {name : String} :
    startItem.Reads (.keyword .start :: .lower name :: .punctuation .semicolon :: rest)
      (.start name) rest :=
  ((reads_just.after reads_ruleName).before reads_just).map

/-- Words that have the form of a rule are read as the declaration of that rule. -/
theorem reads_ruleItem {r : ParserRule} (h : RuleForm r words) :
    ruleItem.Reads (words ++ rest) (.rule r) rest := by
  obtain @⟨name, arguments, returns, bindings, piece, result, alternatives, words, harguments,
    hreturns, hresult, halternatives⟩ := h
  have hmake : makeRule name arguments returns alternatives =
      .ok ⟨name, bindings, result, alternatives⟩ :=
    makeRule_eq_ok_iff.mpr ⟨bindings, result, harguments, ⟨piece, hreturns, hresult⟩, rfl⟩
  have hstop : (just (.punctuation .pipe)).Refuses (.punctuation .semicolon :: rest) :=
    refuses_just nofun
  have halts := reads_separated reads_alternative (fun _ => .pipe) halternatives .semicolon hstop
  simp only [List.cons_append, List.append_assoc, List.nil_append]
  have hhead : ∀ {tail : List Lexeme}, (ruleName.both bracketBlock.optional).Reads
      (.lower name :: (bracketWords arguments ++ .keyword .returns :: tail)) (name, arguments)
      (.keyword .returns :: tail) :=
    reads_ruleName.both (reads_optional_bracketBlock fun _ => nofun)
  exact Reads.checked (((((hhead.before reads_just).both reads_bracketBlock).before
    reads_just).both halts).before reads_just) (congrArg (Except.map Item.rule) hmake)

/-- A declaration that begins with a keyword begins with no other word. -/
theorem refuses_after_just {l m : Lexeme} {p : Recognizer α} (h : m ≠ l) :
    ((just l).after p).Refuses (m :: rest) := Refuses.map (Refuses.both_left (refuses_just h))

private theorem refuses_headerItem {m : Lexeme} (h : m ≠ .keyword .header) :
    headerItem.Refuses (m :: rest) :=
  Refuses.map (refuses_after_just h)

private theorem refuses_tokenItem {m : Lexeme} (h : m ≠ .keyword .token) :
    tokenItem.Refuses (m :: rest) :=
  Refuses.map <| Refuses.map <| Refuses.both_left <| Refuses.both_left <| Refuses.map <|
    Refuses.both_left (refuses_after_just h)

private theorem refuses_skipItem {m : Lexeme} (h : m ≠ .keyword .skip) :
    skipItem.Refuses (m :: rest) :=
  Refuses.map <| Refuses.map <| Refuses.both_left (refuses_after_just h)

private theorem refuses_startItem {m : Lexeme} (h : m ≠ .keyword .start) :
    startItem.Refuses (m :: rest) :=
  Refuses.map <| Refuses.map <| Refuses.both_left (refuses_after_just h)

/-- Words that have the form of a declaration are read as that declaration, whatever follows. -/
theorem reads_item {item : Item} (h : ItemForm item words) :
    Item.recognizer.Reads (words ++ rest) item rest := by
  cases h with
  | header text => exact reads_headerItem.orElse_left
  | token name pattern =>
      refine .orElse_right (refuses_headerItem nofun) ?_
      exact reads_tokenItem.orElse_left
  | skip hnames =>
      rw [List.cons_append, List.append_assoc]
      refine .orElse_right (refuses_headerItem nofun) (.orElse_right (refuses_tokenItem nofun) ?_)
      exact (reads_skipItem hnames).orElse_left
  | start name =>
      refine .orElse_right (refuses_headerItem nofun) (.orElse_right (refuses_tokenItem nofun)
        (.orElse_right (refuses_skipItem nofun) ?_))
      exact reads_startItem.orElse_left
  | rule hrule =>
      -- the first word of a rule is its name, at which all other declarations are refused
      have hreads : ruleItem.Reads (words ++ rest) (.rule _) rest := reads_ruleItem hrule
      cases hrule
      exact .orElse_right (refuses_headerItem nofun) (.orElse_right (refuses_tokenItem nofun)
        (.orElse_right (refuses_skipItem nofun) (.orElse_right (refuses_startItem nofun) hreads)))

/-- A declaration has at least one word. -/
theorem ItemForm.length_pos {item : Item} (h : ItemForm item words) : 0 < words.length := by
  cases h with
  | rule hrule =>
      cases hrule
      exact Nat.succ_pos _
  | _ => exact Nat.succ_pos _

private theorem refuses_item_nil : Item.recognizer.Refuses [] := fun _ _ => rfl

/-- A series of declarations is read as such up to the end. -/
theorem readsAll_item {items : List Item} (h : Series ItemForm items words) :
    ReadsAll Item.recognizer words items [] := by
  induction h with
  | nil => exact .nil refuses_item_nil
  | cons hitem _ ih =>
      have hpos := hitem.length_pos
      refine .cons (reads_item hitem) ?_ ih
      simp only [List.length_append]
      omega

/-- The declarations that are read are those whose forms the words are. -/
theorem Item.readAll_eq_ok_iff {items : List Item} :
    Item.readAll words = .ok items ↔ Series ItemForm items words :=
  readAll_many_eq_ok_iff sound_item readsAll_item

/-- Words are read as declarations exactly if they have the forms of these declarations one after
the other, and they have the forms of one series of declarations at most. -/
theorem Item.readAll_exact (words : List Lexeme) :
    (∀ items, Item.readAll words = .ok items ↔ Series ItemForm items words) ∧
      {items | Series ItemForm items words}.Subsingleton := by
  refine ⟨fun items => readAll_eq_ok_iff, ?_⟩
  intro items hitems items' hitems'
  have heq := (readAll_eq_ok_iff.mpr hitems).symm.trans (readAll_eq_ok_iff.mpr hitems')
  exact Except.ok.inj heq

end Descent.Description
