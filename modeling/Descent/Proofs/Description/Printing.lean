import Descent.Proofs.Description.Forms
import Descent.Proofs.Description.Elements

/-!
# Printing declarations

Declarations are printed word by word, each on a line of its own. If every name, pattern,
type and block of code can be spelled, the text that is printed spells words that have
the form of the declarations.
-/

namespace Descent.Description

open Descent.Text

variable {α : Type}

/-! ### The printer -/

/-- The text of a block in square brackets; a list without elements has no block. -/
def listText (texts : List String) : Option String :=
  if texts.isEmpty then none else some (", ".intercalate texts)

/-- The arguments of an atom. -/
def atomArguments (a : Atom) : List String :=
  match a.reference with
  | .terminal => []
  | .nonterminal arguments => arguments

/-- The words of an atom, which is bound to no variable if it is bound to the one that says so. -/
def atomWords (a : Atom) : List Lexeme :=
  bindingWords (if a.binding = unbound then none else some a.binding) ++
    match a.reference with
    | .terminal => .upper a.name :: codeWords a.action
    | .nonterminal arguments =>
      .lower a.name :: (bracketWords (listText arguments) ++ codeWords a.action)

/-- The words of an alternative. -/
def alternativeWords : Alternative → List Lexeme
  | .epsilon init code => codeWords init ++ .keyword .eps :: codeWords code
  | .sequence init atoms => codeWords init ++ atoms.flatMap atomWords

/-- The words of a rule. -/
def ruleWords (r : ParserRule) : List Lexeme :=
  .lower r.name :: (bracketWords (listText (r.arguments.map bindingText)) ++
    .keyword .returns :: .bracket (bindingText r.returns) :: .punctuation .colon ::
      ([.punctuation .pipe].intercalate (r.alternatives.map alternativeWords) ++
        [.punctuation .semicolon]))

/-- The words of a declaration. -/
def itemWords : Item → List Lexeme
  | .header text => [.keyword .header, .code text]
  | .token t => [.keyword .token, .upper t.name, .punctuation .equals, .pattern t.pattern,
      .punctuation .semicolon]
  | .skip names => .keyword .skip ::
      ([.punctuation .comma].intercalate (names.map fun name => [.upper name]) ++
        [.punctuation .semicolon])
  | .start name => [.keyword .start, .lower name, .punctuation .semicolon]
  | .rule r => ruleWords r

/-- Words with a blank behind each. -/
def spaced (words : List Lexeme) : List Char := words.flatMap fun l => l.spelling ++ [' ']

/-- A description with these declarations. -/
def print (items : List Item) : String :=
  String.ofList (items.flatMap fun item => spaced (itemWords item) ++ ['\n'])

/-! ### What can be printed -/

/-- A block of code can be written behind something. -/
def CodeSpellable (code : Option String) : Prop := ∀ text ∈ code, Closes '\x7b' '\x7d' text

/-- A list can be written as a block in square brackets. -/
structure ListSpellable (angles : Bool) (texts : List String) : Prop where
  element : ∀ t ∈ texts, IsElement angles t
  closes : ∀ text ∈ listText texts, Closes '[' ']' text

/-- All of an atom but its name can be written. -/
structure AtomSpellable (a : Atom) : Prop where
  binding : isFreeName a.binding = true
  arguments : ListSpellable false (atomArguments a)
  action : CodeSpellable a.action

/-- An alternative can be written, which has at least one atom if it is a sequence. -/
inductive AlternativeSpellable : Alternative → Prop where
  | epsilon {init code : Option String} (hinit : CodeSpellable init) (hcode : CodeSpellable code) :
      AlternativeSpellable (.epsilon init code)
  | sequence {init : Option String} {atoms : List Atom} (hinit : CodeSpellable init)
      (hne : atoms ≠ []) (h : ∀ a ∈ atoms, AtomSpellable a) :
      AlternativeSpellable (.sequence init atoms)

/-- The parts of the rule can be spelled. -/
structure RuleSpellable (r : ParserRule) : Prop where
  name : isFreeName r.name = true
  argument : ∀ b ∈ r.arguments, BindingSpellable b
  arguments : ∀ text ∈ listText (r.arguments.map bindingText), Closes '[' ']' text
  result : BindingSpellable r.returns
  returns : Closes '[' ']' (bindingText r.returns)
  nonempty : r.alternatives ≠ []
  alternatives : ∀ alt ∈ r.alternatives, AlternativeSpellable alt

/-- The names of the symbols that an atom refers to can be written. -/
structure AtomNamed (a : Atom) : Prop where
  terminal : a.isTerminal = true → isTokenName a.name.toList = true
  nonterminal : a.isTerminal = false → isFreeName a.name = true

/-- The parts of the declaration can be spelled. -/
inductive ItemSpellable : Item → Prop where
  | header {text : String} (h : Closes '\x7b' '\x7d' text) : ItemSpellable (.header text)
  | token {t : TokenRule} (hname : isTokenName t.name.toList = true)
      (hpattern : isPaired t.pattern.toList = true) : ItemSpellable (.token t)
  | skip {names : List String} (hne : names ≠ [])
      (h : ∀ name ∈ names, isTokenName name.toList = true) : ItemSpellable (.skip names)
  | start {name : String} (h : isFreeName name = true) : ItemSpellable (.start name)
  | rule {r : ParserRule} (h : RuleSpellable r) (hnamed : ∀ a ∈ r.atoms, AtomNamed a) :
      ItemSpellable (.rule r)

/-! ### The form of the words -/

/-- A list is split into the texts of which it was made. -/
theorem splitTopLevel_listText {angles : Bool} {texts : List String}
    (h : ∀ t ∈ texts, IsElement angles t) :
    splitTopLevel angles ((listText texts).getD "") = texts := by
  cases texts with
  | nil => rfl
  | cons t ts => exact splitTopLevel_intercalate h

/-- The arguments of a printed list are those of which it was made. -/
theorem argumentsOf_listText {texts : List String} (h : ∀ t ∈ texts, IsElement false t) :
    argumentsOf (listText texts) = texts := by
  cases texts with
  | nil => rfl
  | cons t ts => exact splitTopLevel_intercalate h

private theorem getD_unbound {binding : String} :
    (if binding = unbound then none else some binding).getD unbound = binding := by
  split
  · next h => exact h.symm
  · rfl

/-- The words of an atom have the form of the atom. -/
theorem atomForm_atomWords {a : Atom} (h : AtomSpellable a) : AtomForm a (atomWords a) := by
  obtain ⟨binding, name, reference, action⟩ := a
  cases reference with
  | terminal =>
      have hform := AtomForm.terminal (if binding = unbound then none else some binding) name action
      rwa [getD_unbound] at hform
  | nonterminal arguments =>
      have hform := AtomForm.nonterminal (if binding = unbound then none else some binding) name
        (listText arguments) action
      have harguments : argumentsOf (listText arguments) = arguments :=
        argumentsOf_listText h.arguments.element
      rwa [getD_unbound, harguments] at hform

/-- The words of some values, one after the other, are a series of these values. -/
theorem series_flatMap {Form : α → List Lexeme → Prop} {f : α → List Lexeme} {as : List α}
    (h : ∀ a ∈ as, Form a (f a)) : Series Form as (as.flatMap f) := by
  induction as with
  | nil => exact .nil
  | cons a as ih =>
      rw [List.flatMap_cons]
      exact .cons (h a List.mem_cons_self) (ih fun b hb => h b (.tail a hb))

private theorem intercalate_map_cons {l : Lexeme} {f : α → List Lexeme} {a : α} {as : List α} :
    [l].intercalate ((a :: as).map f) = f a ++ as.flatMap fun b => l :: f b := by
  induction as generalizing a with
  | nil => exact List.intercalate_singleton.trans (List.append_nil _).symm
  | cons b as ih =>
      rw [List.map_cons, List.map_cons, List.intercalate_cons_cons, ← List.map_cons, ih,
        List.flatMap_cons, List.append_assoc]
      rfl

/-- The words of some values with a word between them have the form of these values, separated by
it. -/
theorem separated_intercalate {l : Lexeme} {Form : α → List Lexeme → Prop} {f : α → List Lexeme}
    {as : List α} (hne : as ≠ []) (h : ∀ a ∈ as, Form a (f a)) :
    Separated l Form as ([l].intercalate (as.map f)) := by
  cases as with
  | nil => exact absurd rfl hne
  | cons a as =>
      rw [intercalate_map_cons]
      exact .mk (h a List.mem_cons_self) (series_flatMap fun b hb => ⟨f b, h b (.tail a hb), rfl⟩)

/-- The words of an alternative have the form of the alternative. -/
theorem alternativeForm_alternativeWords {alt : Alternative} (h : AlternativeSpellable alt) :
    AlternativeForm alt (alternativeWords alt) := by
  cases h with
  | epsilon _ _ => exact .epsilon _ _
  | sequence _ hne hatoms => exact .sequence _ hne (series_flatMap fun a ha =>
      atomForm_atomWords (hatoms a ha))

/-- The words of a rule have the form of the rule. -/
theorem ruleForm_ruleWords {r : ParserRule} (h : RuleSpellable r) : RuleForm r (ruleWords r) := by
  have helements : ∀ t ∈ r.arguments.map bindingText, IsElement true t :=
    List.forall_mem_map.mpr fun b hb => (h.argument b hb).isElement
  have harguments : AreBindings
      (splitTopLevel true ((listText (r.arguments.map bindingText)).getD "")) r.arguments := by
    rw [splitTopLevel_listText helements, AreBindings, List.forall₂_map_left_iff,
      List.forall₂_same]
    exact fun b hb => readBinding_bindingText (h.argument b hb)
  have hreturns := splitTopLevel_intercalate (List.forall_mem_singleton.mpr h.result.isElement)
  exact .mk r.name harguments hreturns (readBinding_bindingText h.result)
    (separated_intercalate h.nonempty fun alt halt =>
      alternativeForm_alternativeWords (h.alternatives alt halt))

/-- The words of a declaration have its form. -/
theorem itemForm_itemWords {item : Item} (h : ItemSpellable item) :
    ItemForm item (itemWords item) := by
  cases h with
  | header _ => exact .header _
  | token _ _ => exact .token _ _
  | skip hne _ => exact .skip (separated_intercalate hne fun _ _ => rfl)
  | start _ => exact .start _
  | rule hr _ => exact .rule (ruleForm_ruleWords hr)

/-! ### The spelling of the words -/

private theorem spellable_codeWords {code : Option String} (h : CodeSpellable code) :
    ∀ l ∈ codeWords code, l.Spellable := by
  rw [codeWords, List.forall_mem_map]
  exact fun text htext => h text (Option.mem_toList.mp htext)

private theorem spellable_bracketWords {block : Option String}
    (h : ∀ text ∈ block, Closes '[' ']' text) : ∀ l ∈ bracketWords block, l.Spellable := by
  rw [bracketWords, List.forall_mem_map]
  exact fun text htext => h text (Option.mem_toList.mp htext)

private theorem spellable_bindingWords {binding : String} (h : isFreeName binding = true) :
    ∀ l ∈ bindingWords (if binding = unbound then none else some binding), l.Spellable := by
  split
  · exact List.forall_mem_nil _
  · exact List.forall_mem_cons.mpr ⟨h, List.forall_mem_singleton.mpr trivial⟩

private theorem spellable_intercalate {l : Lexeme} {f : α → List Lexeme} {as : List α}
    (hl : l.Spellable)
    (h : ∀ a ∈ as, ∀ m ∈ f a, m.Spellable) : ∀ m ∈ [l].intercalate (as.map f), m.Spellable := by
  cases as with
  | nil => exact List.forall_mem_nil _
  | cons a as =>
      rw [intercalate_map_cons]
      refine List.forall_mem_append.mpr ⟨h a List.mem_cons_self, fun m hm => ?_⟩
      obtain ⟨b, hb, hm⟩ := List.mem_flatMap.mp hm
      exact List.forall_mem_cons.mpr ⟨hl, h b (.tail a hb)⟩ m hm

/-- All words of an atom can be spelled. -/
theorem spellable_atomWords {a : Atom} (h : AtomSpellable a) (hnamed : AtomNamed a) :
    ∀ l ∈ atomWords a, l.Spellable := by
  obtain ⟨binding, name, reference, action⟩ := a
  refine List.forall_mem_append.mpr ⟨spellable_bindingWords h.binding, ?_⟩
  have hcode := spellable_codeWords h.action
  cases reference with
  | terminal => exact List.forall_mem_cons.mpr ⟨hnamed.terminal rfl, hcode⟩
  | nonterminal arguments =>
      exact List.forall_mem_cons.mpr ⟨hnamed.nonterminal rfl,
        List.forall_mem_append.mpr ⟨spellable_bracketWords h.arguments.closes, hcode⟩⟩

/-- All words of an alternative can be spelled. -/
theorem spellable_alternativeWords {alt : Alternative} (h : AlternativeSpellable alt)
    (hnamed : ∀ a ∈ alt.atoms, AtomNamed a) : ∀ l ∈ alternativeWords alt, l.Spellable := by
  cases h with
  | epsilon hinit hcode =>
      exact List.forall_mem_append.mpr ⟨spellable_codeWords hinit,
        List.forall_mem_cons.mpr ⟨trivial, spellable_codeWords hcode⟩⟩
  | sequence hinit _ hatoms =>
      refine List.forall_mem_append.mpr ⟨spellable_codeWords hinit, fun l hl => ?_⟩
      obtain ⟨a, ha, hl⟩ := List.mem_flatMap.mp hl
      exact spellable_atomWords (hatoms a ha) (hnamed a ha) l hl

/-- All words of a rule can be spelled. -/
theorem spellable_ruleWords {r : ParserRule} (h : RuleSpellable r)
    (hnamed : ∀ a ∈ r.atoms, AtomNamed a) : ∀ l ∈ ruleWords r, l.Spellable := by
  have halternatives : ∀ alt ∈ r.alternatives, ∀ l ∈ alternativeWords alt, l.Spellable :=
    fun alt halt => spellable_alternativeWords (h.alternatives alt halt) fun a ha =>
      hnamed a (List.mem_flatMap.mpr ⟨alt, halt, ha⟩)
  have hbody : ∀ l ∈ [.punctuation .pipe].intercalate (r.alternatives.map alternativeWords) ++
      [.punctuation .semicolon], Lexeme.Spellable l :=
    List.forall_mem_append.mpr ⟨spellable_intercalate trivial halternatives,
      List.forall_mem_singleton.mpr trivial⟩
  refine List.forall_mem_cons.mpr ⟨h.name, List.forall_mem_append.mpr
    ⟨spellable_bracketWords h.arguments, ?_⟩⟩
  exact List.forall_mem_cons.mpr ⟨trivial, List.forall_mem_cons.mpr ⟨h.returns,
    List.forall_mem_cons.mpr ⟨trivial, hbody⟩⟩⟩

/-- All words of a declaration can be spelled. -/
theorem spellable_itemWords {item : Item} (h : ItemSpellable item) :
    ∀ l ∈ itemWords item, l.Spellable := by
  cases h with
  | header h => exact List.forall_mem_cons.mpr ⟨trivial, List.forall_mem_singleton.mpr h⟩
  | token hname hpattern =>
      simp only [itemWords, List.forall_mem_cons]
      exact ⟨trivial, hname, trivial, hpattern, trivial, List.forall_mem_nil _⟩
  | skip _ h =>
      refine List.forall_mem_cons.mpr ⟨trivial, List.forall_mem_append.mpr
        ⟨spellable_intercalate trivial fun name hname => ?_, List.forall_mem_singleton.mpr trivial⟩⟩
      exact List.forall_mem_singleton.mpr (h name hname)
  | start h =>
      simp only [itemWords, List.forall_mem_cons]
      exact ⟨trivial, h, trivial, List.forall_mem_nil _⟩
  | rule h hnamed => exact spellable_ruleWords h hnamed

/-- Words with a blank behind each are spelled in front of a text. -/
theorem Spells.spaced_append {words rest : List Lexeme} {text : List Char}
    (hwords : ∀ l ∈ words, l.Spellable) (h : Spells rest text) :
    Spells (words ++ rest) (spaced words ++ text) := by
  induction words with
  | nil => exact h
  | cons l words ih =>
      have htail : Spells (words ++ rest) (' ' :: (spaced words ++ text)) :=
        .blank rfl (ih fun m hm => hwords m (.tail l hm))
      rw [spaced, List.flatMap_cons, List.append_assoc, List.append_assoc]
      exact .word (hwords l List.mem_cons_self) (fun _ => rfl) htail

/-- The text has the words of the declarations. -/
def Describes (text : String) (items : List Item) : Prop :=
  ∃ words, Series ItemForm items words ∧ Spells words text.toList

/-- What is printed describes the declarations. -/
theorem describes_print {items : List Item} (h : ∀ item ∈ items, ItemSpellable item) :
    Describes (print items) items := by
  refine ⟨items.flatMap itemWords, series_flatMap fun item hitem =>
    itemForm_itemWords (h item hitem), ?_⟩
  rw [print, String.toList_ofList]
  induction items with
  | nil => exact .nil
  | cons item items ih =>
      rw [List.flatMap_cons, List.flatMap_cons, List.append_assoc]
      exact .spaced_append (spellable_itemWords (h item List.mem_cons_self))
        (.blank rfl (ih fun other hother => h other (.tail item hother)))

example : print [.start "expr", .skip ["WS", "NL"], .token ⟨"QUOTE", "\""⟩] =
    "start expr ; \nskip WS , NL ; \ntoken QUOTE = \"\\\"\" ; \n" := by decide

end Descent.Description
