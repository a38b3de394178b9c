import Descent.Proofs.Grammar.Offenders
import Descent.Proofs.Grammar.Valid

/-!
# The conditions on a grammar

A draft holds the parts of a grammar before they are checked. It has nine conditions to
meet, which are checked in a fixed order. A draft that meets all of them makes a grammar
of just its parts; any other is refused for the first condition that it breaks, and the
fault names the first offender in the order of the text.
-/

namespace Descent

/-- The parts of a grammar before they are checked. -/
structure Draft where
  header : String
  tokenRules : List TokenRule
  skipNames : List String
  start : String
  parserRules : List ParserRule

/-- The conditions on the parts of a grammar. -/
inductive Condition where
  | distinctTokens
  | distinctSkips
  | knownSkips
  | knownStart
  | knownAtoms
  | distinctRules
  | endReserved
  | noSkippedAtoms
  | validPatterns
deriving DecidableEq

/-- The conditions in the order in which they are checked. -/
def Condition.all : List Condition :=
  [distinctTokens, distinctSkips, knownSkips, knownStart, knownAtoms, distinctRules, endReserved,
    noSkippedAtoms, validPatterns]

/-- The nine conditions are all in the list of conditions. -/
theorem Condition.mem_all (c : Condition) : c ∈ all := by
  cases c <;> decide

/-- The pattern is a regular expression where it is tied to the start of a text. -/
def TokenRule.HasValidPattern (t : TokenRule) : Prop :=
  (Pattern.compileAnchored? t.pattern).isSome = true

/-- The kind of the symbol that an atom refers to. -/
def Atom.kind (a : Atom) : SymbolKind :=
  match a.reference with
  | .terminal => .terminal
  | .nonterminal _ => .nonterminal

namespace Draft

/-- The names of the token rules, in their order. -/
def tokenNames (d : Draft) : List String := d.tokenRules.map (·.name)

/-- The names of the parser rules, in their order. -/
def ruleNames (d : Draft) : List String := d.parserRules.map (·.name)

/-- The atoms in the order of the text, each with its rule: rule by rule, in a rule alternative by
alternative. -/
def occurrences (d : Draft) : List (ParserRule × Atom) :=
  d.parserRules.flatMap fun r => r.atoms.map fun a => (r, a)

/-- A terminal atom names a token rule, and any other a parser rule. -/
def Resolves (d : Draft) (a : Atom) : Prop :=
  match a.kind with
  | .terminal => a.name ∈ d.tokenNames
  | .nonterminal => a.name ∈ d.ruleNames

/-- The atom waits for a token that is skipped. -/
def Skips (d : Draft) (a : Atom) : Prop := a.kind = .terminal ∧ a.name ∈ d.skipNames

open Condition in
/-- The draft meets a condition. -/
def Meets (d : Draft) : Condition → Prop
  | distinctTokens => d.tokenNames.Nodup
  | distinctSkips => d.skipNames.Nodup
  | knownSkips => ∀ s ∈ d.skipNames, s ∈ d.tokenNames
  | knownStart => d.start ∈ d.ruleNames
  | knownAtoms => ∀ r ∈ d.parserRules, ∀ a ∈ r.atoms, d.Resolves a
  | distinctRules => d.ruleNames.Nodup
  | endReserved => endName ∉ d.tokenNames
  | noSkippedAtoms => ∀ r ∈ d.parserRules, ∀ a ∈ r.atoms, ¬ d.Skips a
  | validPatterns => ∀ t ∈ d.tokenRules, t.HasValidPattern

open Condition in
/-- The fault reports a condition that the draft breaks, and names the first offender. -/
def Reported (d : Draft) : Condition → GrammarError → Prop
  | distinctTokens, e => ∃ name, FirstRepeat d.tokenNames name ∧ e = .duplicateTokenRule name
  | distinctSkips, e => ∃ name, FirstRepeat d.skipNames name ∧ e = .duplicateSkip name
  | knownSkips, e => ∃ s, FirstOffender (· ∉ d.tokenNames) d.skipNames s ∧ e = .unknownSkip s
  | knownStart, e => e = .unknownStart d.start
  | knownAtoms, e => ∃ x, FirstOffender (fun x => ¬ d.Resolves x.2) d.occurrences x ∧
      e = .unknownSymbol x.1.name x.2.name x.2.kind
  | distinctRules, e => ∃ name, FirstRepeat d.ruleNames name ∧ e = .duplicateParserRule name
  | endReserved, e => e = .reservedTokenName endName
  | noSkippedAtoms, e => ∃ x, FirstOffender (fun x => d.Skips x.2) d.occurrences x ∧
      e = .skippedTerminal x.1.name x.2.name
  | validPatterns, e => ∃ t, FirstOffender (¬ ·.HasValidPattern) d.tokenRules t ∧
      e = .invalidPattern t.name patternReason

/-- The grammar holds just the parts of the draft, and its start rule is the one with the name that
the draft gives. -/
structure Makes (d : Draft) (g : Grammar) : Prop where
  header : g.header = d.header
  tokenRules : g.tokenRules = d.tokenRules
  skipNames : g.skipNames = d.skipNames
  parserRules : g.parserRules = d.parserRules
  start : d.ruleNames[g.start]? = some d.start

variable {d : Draft} {c : Condition} {cs : List Condition} {e : GrammarError} {α : Type}

/-- A check decides a condition: it passes exactly if the condition is met, and otherwise fails with
the fault that reports it. -/
structure Decides (d : Draft) (check : Except GrammarError α) (c : Condition) : Prop where
  ok_iff : (∃ a, check = .ok a) ↔ d.Meets c
  error_iff : ∀ e, check = .error e ↔ ¬ d.Meets c ∧ d.Reported c e

/-- A run of checks comes to what the conditions say, if these are checked in their order. -/
structure Follows (d : Draft) (run : Except GrammarError Grammar) (cs : List Condition) : Prop where
  ok_iff : (∃ g, run = .ok g) ↔ ∀ c ∈ cs, d.Meets c
  makes : ∀ g, run = .ok g → d.Makes g
  error_iff : ∀ e, run = .error e ↔ ∃ c, FirstOffender (¬ d.Meets ·) cs c ∧ d.Reported c e

private theorem ok_ne_error {a : α} : (Except.ok a : Except GrammarError α) ≠ .error e := by
  intro h
  cases h

private theorem not_exists_error_eq_ok :
    ¬ ∃ a, (Except.error e : Except GrammarError α) = .ok a := by
  rintro ⟨a, h⟩
  cases h

/-- Where no condition is left a run makes the grammar. -/
theorem Follows.done {g : Grammar} (h : d.Makes g) : d.Follows (.ok g) [] := by
  refine ⟨iff_of_true ⟨g, rfl⟩ (List.forall_mem_nil _), fun g' hg => Except.ok.inj hg ▸ h,
    fun e => iff_of_false ok_ne_error ?_⟩
  rintro ⟨c, hc, -⟩
  exact List.not_mem_nil hc.mem

/-- A run that begins with the check of a condition and goes on where that is met. -/
theorem Follows.step {check : Except GrammarError α} {rest : α → Except GrammarError Grammar}
    (hcheck : d.Decides check c) (hrest : ∀ a, check = .ok a → d.Follows (rest a) cs) :
    d.Follows (check >>= rest) (c :: cs) := by
  cases check with
  | error e =>
      obtain ⟨hbroken, he⟩ := (hcheck.error_iff e).mp rfl
      have hfirst : ∀ c', FirstOffender (¬ d.Meets ·) (c :: cs) c' ↔ c' = c :=
        fun _ => FirstOffender.cons_of_bad hbroken
      refine ⟨?_, fun g h => absurd h.symm ok_ne_error, fun e' => ?_⟩
      · exact iff_of_false not_exists_error_eq_ok fun h => hbroken (h c List.mem_cons_self)
      · simp only [hfirst, exists_eq_left]
        constructor
        · intro h
          obtain rfl := Except.error.inj h
          exact he
        · intro h
          rw [(hcheck.error_iff e').mpr ⟨hbroken, h⟩]
          rfl
  | ok a =>
      have hmet : d.Meets c := hcheck.ok_iff.mp ⟨a, rfl⟩
      have hfirst : ∀ c', FirstOffender (¬ d.Meets ·) (c :: cs) c' ↔
          FirstOffender (¬ d.Meets ·) cs c' :=
        fun _ => FirstOffender.cons_of_good (not_not_intro hmet)
      obtain ⟨hok, hmakes, herror⟩ := hrest a rfl
      refine ⟨?_, hmakes, fun e => ?_⟩
      · rw [List.forall_mem_cons]
        exact hok.trans (and_iff_right hmet).symm
      · simp only [hfirst]
        exact herror e

/-- The check for repeated names decides its condition. -/
theorem decides_distinct {names : List String} {fault : String → GrammarError}
    (hmeets : d.Meets c ↔ names.Nodup)
    (hreported : ∀ e, d.Reported c e ↔ ∃ name, FirstRepeat names name ∧ e = fault name) :
    d.Decides (distinct names fault) c := by
  rw [distinct]
  split
  · next t ht =>
      have hnodup := (SymbolTable.nodup_of_unique ht).1
      exact ⟨iff_of_true ⟨t, rfl⟩ (hmeets.mpr hnodup),
        fun e => iff_of_false ok_ne_error fun h => h.1 (hmeets.mpr hnodup)⟩
  · next name hname =>
      have hrepeat := SymbolTable.unique_eq_error_iff.mp hname
      have hbroken : ¬ d.Meets c := fun h => hrepeat.not_nodup (hmeets.mp h)
      refine ⟨iff_of_false not_exists_error_eq_ok hbroken, fun e => ?_⟩
      rw [hreported, and_iff_right hbroken]
      constructor
      · intro h
        exact ⟨name, hrepeat, (Except.error.inj h).symm⟩
      · rintro ⟨name', hrepeat', rfl⟩
        rw [← SymbolTable.unique_eq_error_iff, hname] at hrepeat'
        rw [Except.error.inj hrepeat']

/-- A search for the first fault decides its condition. -/
theorem decides_noFault {β : Type} {found : Option GrammarError} {bad : β → Prop} {l : List β}
    {gives : β → GrammarError} (h : Reports found bad l gives)
    (hmeets : d.Meets c ↔ ∀ x ∈ l, ¬ bad x)
    (hreported : ∀ e, d.Reported c e ↔ ∃ x, FirstOffender bad l x ∧ e = gives x) :
    d.Decides (noFault found) c := by
  cases found with
  | none =>
      have hmet := hmeets.mpr (h.none_iff.mp rfl)
      exact ⟨iff_of_true ⟨(), rfl⟩ hmet, fun e => iff_of_false ok_ne_error fun hn => hn.1 hmet⟩
  | some r =>
      have hbroken : ¬ d.Meets c := fun hm =>
        absurd (h.none_iff.mpr (hmeets.mp hm)) (Option.some_ne_none r)
      refine ⟨iff_of_false not_exists_error_eq_ok hbroken, fun e => ?_⟩
      rw [hreported, and_iff_right hbroken, ← h.some_iff]
      exact ⟨fun he => congrArg some (Except.error.inj he),
        fun he => congrArg Except.error (Option.some.inj he)⟩

private theorem forall_occurrences {P : Atom → Prop} :
    (∀ x ∈ d.occurrences, P x.2) ↔ ∀ r ∈ d.parserRules, ∀ a ∈ r.atoms, P a := by
  simp only [occurrences, List.mem_flatMap, List.mem_map]
  constructor
  · exact fun h r hr a ha => h (r, a) ⟨r, hr, a, ha, rfl⟩
  · rintro h x ⟨r, hr, a, ha, rfl⟩
    exact h r hr a ha

/-- A search through the atoms of one rule after the other is one through all occurrences. -/
theorem findSome?_occurrences (f : ParserRule → Atom → Option GrammarError) :
    d.parserRules.findSome? (fun r => r.atoms.findSome? (f r)) =
      d.occurrences.findSome? fun x => f x.1 x.2 := by
  rw [occurrences]
  induction d.parserRules with
  | nil => rfl
  | cons r rest ih =>
      have hrule : (r.atoms.map fun a => (r, a)).findSome? (fun x => f x.1 x.2) =
          r.atoms.findSome? (f r) := List.findSome?_map
      rw [List.flatMap_cons, List.findSome?_append, List.findSome?_cons, hrule, ← ih]
      cases r.atoms.findSome? (f r) <;> rfl

/-- The check of the skipped names decides that all of them are declared. -/
theorem decides_knownSkips {terminals : SymbolTable} (ht : terminals.names = d.tokenNames) :
    d.Decides (noFault ((d.skipNames.find? fun s => !terminals.contains s).map .unknownSkip))
      .knownSkips := by
  have hp : ∀ s, (!terminals.contains s) = true ↔ s ∉ d.tokenNames := fun s => by
    rw [Bool.not_eq_true', ← Bool.not_eq_true, SymbolTable.contains_iff, ht]
  refine decides_noFault (reports_find? hp _) ?_ fun e => Iff.rfl
  simp only [Meets, not_not]

/-- The check of the atoms decides that each one is declared with its kind. -/
theorem decides_knownAtoms {terminals nonterminals : SymbolTable}
    (ht : ∀ name, name ∈ terminals.names ↔ name ∈ d.tokenNames)
    (hn : ∀ name, name ∈ nonterminals.names ↔ name ∈ d.ruleNames) :
    d.Decides (noFault (d.parserRules.findSome? (·.unknownAtom? terminals nonterminals)))
      .knownAtoms := by
  have hsearch := d.findSome?_occurrences fun r a =>
    if a.isTerminal then
      if terminals.contains a.name then none else some (.unknownSymbol r.name a.name .terminal)
    else
      if nonterminals.contains a.name then none
      else some (.unknownSymbol r.name a.name .nonterminal)
  rw [show d.parserRules.findSome? (·.unknownAtom? terminals nonterminals) = _ from hsearch]
  have hresolves : ∀ a, d.Resolves a ↔ (if a.isTerminal then terminals.contains a.name
      else nonterminals.contains a.name) = true := by
    rintro ⟨binding, name, reference, action⟩
    cases reference with
    | terminal => exact (ht name).symm.trans SymbolTable.contains_iff.symm
    | nonterminal arguments => exact (hn name).symm.trans SymbolTable.contains_iff.symm
  refine decides_noFault (reports_findSome? (fun x => ¬ d.Resolves x.2) _ (fun x hx => ?_)
    fun x hx => ?_) ?_ fun e => Iff.rfl
  · obtain ⟨r, ⟨binding, name, reference, action⟩⟩ := x
    rw [hresolves] at hx
    cases reference with
    | terminal => exact if_neg hx
    | nonterminal arguments => exact if_neg hx
  · obtain ⟨r, ⟨binding, name, reference, action⟩⟩ := x
    rw [not_not, hresolves] at hx
    cases reference with
    | terminal => exact if_pos hx
    | nonterminal arguments => exact if_pos hx
  · simp only [not_not]
    exact forall_occurrences.symm

/-- The check of the atoms decides that no rule uses a skipped token. -/
theorem decides_noSkippedAtoms :
    d.Decides (noFault (d.parserRules.findSome? (·.skippedAtom? d.skipNames))) .noSkippedAtoms := by
  have hsearch := d.findSome?_occurrences fun r =>
    Option.map (fun a => .skippedTerminal r.name a.name) ∘
      Option.guard fun a => a.isTerminal && d.skipNames.contains a.name
  simp only [← List.map_findSome?, List.findSome?_guard] at hsearch
  rw [show d.parserRules.findSome? (·.skippedAtom? d.skipNames) = _ from hsearch]
  have hskips : ∀ a : Atom, d.Skips a ↔ (a.isTerminal && d.skipNames.contains a.name) = true := by
    rintro ⟨binding, name, reference, action⟩
    cases reference <;> simp [Skips, Atom.kind, Atom.isTerminal]
  refine decides_noFault (reports_findSome? (fun x => d.Skips x.2) _ (fun x hx => ?_)
    fun x hx => ?_) ?_ fun e => Iff.rfl
  · rw [hskips] at hx
    simp only [Function.comp_apply, Option.guard, hx, if_true, Option.map_some]
  · rw [hskips] at hx
    simp only [Function.comp_apply, Option.guard, if_neg hx, Option.map_none]
  · exact (forall_occurrences (P := fun a => ¬ d.Skips a)).symm

/-- The check of the token names decides that none is the one of the end. -/
theorem decides_endReserved :
    d.Decides (noFault ((d.tokenRules.find? fun t => t.name == endName).map fun t =>
      .reservedTokenName t.name)) .endReserved := by
  have hmet : d.Meets .endReserved ↔ ∀ t ∈ d.tokenRules, ¬ t.name = endName := by
    simp only [Meets, tokenNames, List.mem_map, not_exists, not_and]
  cases hfind : d.tokenRules.find? fun t => t.name == endName with
  | none =>
      have hnone : d.Meets .endReserved := hmet.mpr fun t ht hname =>
        List.find?_eq_none.mp hfind t ht (beq_iff_eq.mpr hname)
      exact ⟨iff_of_true ⟨(), rfl⟩ hnone, fun e => iff_of_false ok_ne_error fun hn => hn.1 hnone⟩
  | some t =>
      have hname : t.name = endName := by simpa using List.find?_some hfind
      have hbroken : ¬ d.Meets .endReserved := fun hm =>
        hmet.mp hm t (List.mem_of_find?_eq_some hfind) hname
      refine ⟨iff_of_false not_exists_error_eq_ok hbroken, fun e => ?_⟩
      rw [and_iff_right hbroken, Option.map_some, hname]
      exact ⟨fun he => (Except.error.inj he).symm, fun he => congrArg Except.error he.symm⟩

/-- The check of the patterns decides that all of them are valid. -/
theorem decides_validPatterns :
    d.Decides (noFault (d.tokenRules.findSome? (·.patternFault?))) .validPatterns := by
  refine decides_noFault (reports_findSome? (fun t => ¬ t.HasValidPattern)
    (fun t => .invalidPattern t.name patternReason) (fun t ht => ?_)
    fun t ht => ?_) ?_ fun e => Iff.rfl
  · exact if_neg ht
  · exact if_pos (not_not.mp ht)
  · simp only [not_not]
    rfl

/-- The look-up of the start rule decides its condition where the rule is found. -/
theorem decides_knownStart {i : Nat} (hi : d.ruleNames.idxOf? d.start = some i) :
    d.Decides (.ok i) .knownStart := by
  have hmet : d.Meets .knownStart := by
    by_contra hn
    exact absurd (hi.symm.trans (List.idxOf?_eq_none_iff.mpr hn)) (Option.some_ne_none i)
  exact ⟨iff_of_true ⟨i, rfl⟩ hmet, fun e => iff_of_false ok_ne_error fun hn => hn.1 hmet⟩

/-- The look-up of the start rule decides its condition where no rule is found. -/
theorem decides_unknownStart (hnone : d.ruleNames.idxOf? d.start = none) :
    d.Decides (.error (.unknownStart d.start) : Except GrammarError Nat) .knownStart := by
  have hbroken : ¬ d.Meets .knownStart := List.idxOf?_eq_none_iff.mp hnone
  refine ⟨iff_of_false not_exists_error_eq_ok hbroken, fun e => ?_⟩
  rw [and_iff_right hbroken]
  exact ⟨fun he => (Except.error.inj he).symm, fun he => congrArg Except.error he.symm⟩

/-- The grammar of all parts, with the position at which the start rule is found. -/
theorem makes_mk {i : Nat} (hi : d.ruleNames.idxOf? d.start = some i) :
    d.Makes ⟨d.header, d.tokenRules, d.skipNames, i, d.parserRules⟩ := by
  obtain ⟨hlt, hat, -⟩ := List.idxOf?_eq_some_iff.mp hi
  exact ⟨rfl, rfl, rfl, rfl, by rw [List.getElem?_eq_getElem hlt, hat]⟩

/-- The run of all checks follows the conditions. -/
theorem follows_validate (d : Draft) :
    d.Follows (Grammar.validate d.header d.tokenRules d.skipNames d.start d.parserRules)
      Condition.all := by
  rw [Grammar.validate]
  refine .step (decides_distinct Iff.rfl fun e => Iff.rfl) fun terminals hterminals => ?_
  obtain ⟨-, hnames⟩ := distinct_eq_ok hterminals
  refine .step (decides_distinct Iff.rfl fun e => Iff.rfl) fun _ _ => ?_
  refine .step (decides_knownSkips hnames) fun _ _ => ?_
  dsimp only
  split
  · next i hi =>
      refine .step (decides_knownStart hi) fun j hj => ?_
      obtain rfl := Except.ok.inj hj
      refine .step (decides_knownAtoms (fun name => by rw [hnames]; rfl)
        fun name => SymbolTable.mem_names_ofList) fun _ _ => ?_
      refine .step (decides_distinct Iff.rfl fun e => Iff.rfl) fun _ _ => ?_
      refine .step decides_endReserved fun _ _ => ?_
      refine .step decides_noSkippedAtoms fun _ _ => ?_
      refine .step decides_validPatterns fun _ _ => ?_
      exact .done (makes_mk hi)
  · next hnone => exact .step (decides_unknownStart hnone) fun _ hj => absurd hj.symm ok_ne_error

end Draft

/-- A draft makes a grammar exactly if it meets all conditions, and the grammar holds just its
parts. Otherwise it is refused with the fault that reports the first condition, in the order of the
checks, that it breaks. -/
theorem Grammar.validate_exact (d : Draft) :
    ((∃ g, validate d.header d.tokenRules d.skipNames d.start d.parserRules = .ok g) ↔
      ∀ c, d.Meets c) ∧
    (∀ g, validate d.header d.tokenRules d.skipNames d.start d.parserRules = .ok g → d.Makes g) ∧
    ∀ e, validate d.header d.tokenRules d.skipNames d.start d.parserRules = .error e ↔
      ∃ c, FirstOffender (¬ d.Meets ·) Condition.all c ∧ d.Reported c e := by
  obtain ⟨hok, hmakes, herror⟩ := d.follows_validate
  exact ⟨hok.trans ⟨fun h c => h c c.mem_all, fun h c _ => h c⟩, hmakes, herror⟩

end Descent
