import Descent.Description.Reading
import Descent.Proofs.Description.Completeness
import Mathlib.Order.Bounds.Basic
import Mathlib.Data.Nat.Find

/-!
# Which word is complained about

Words that are no declarations are complained about at the first of them that is impossible
behind those before it, unless a declaration that begins with a keyword goes wrong: as the
attempt to read a rule comes last and forgets what was complained about before, that
declaration is complained about at its keyword.
-/

namespace Descent.Description

open Recognizer Descent.Text

variable {words u v w : List Lexeme} {items : List Item} {item : Item}

/-! ### Possible words -/

/-- The words are declarations. -/
def Accepted (words : List Lexeme) : Prop := ∃ items, Item.readAll words = .ok items

/-- Some words behind the words make them declarations. -/
def Viable (words : List Lexeme) : Prop := ∃ more, Accepted (words ++ more)

private theorem accepted_iff : Accepted words ↔ ∃ items, Series ItemForm items words :=
  exists_congr fun _ => Item.readAll_eq_ok_iff

/-- Accepted words are viable. -/
theorem Accepted.viable (h : Accepted words) : Viable words := ⟨[], by rwa [List.append_nil]⟩

/-- What stands in front in viable words is viable. -/
theorem viable_of_append (h : Viable (u ++ v)) : Viable u := by
  obtain ⟨more, h⟩ := h
  exact ⟨v ++ more, by rwa [← List.append_assoc]⟩

/-- Two series in a row are a series. -/
theorem Series.append {α : Type} {Form : α → List Lexeme → Prop} {as bs : List α}
    (h : Series Form as u) (h' : Series Form bs v) : Series Form (as ++ bs) (u ++ v) := by
  induction h with
  | nil => exact h'
  | cons ha _ ih =>
      rw [List.append_assoc]
      exact .cons ha ih

/-- A declaration in front of declarations is the first of them. -/
theorem exists_of_series_append (hitem : ItemForm item w) (h : Series ItemForm items (w ++ v)) :
    ∃ later, Series ItemForm later v := by
  generalize hwords : w ++ v = words at h
  cases h with
  | nil =>
      have hpos := hitem.length_pos
      rw [(List.append_eq_nil_iff.mp hwords).1] at hpos
      exact absurd hpos (Nat.lt_irrefl 0)
  | @cons item' later w' v' hitem' hlater =>
      have hreads : Item.recognizer.Reads (w ++ v) item v := reads_item hitem
      have hreads' : Item.recognizer.Reads (w' ++ v') item' v' := reads_item hitem'
      obtain ⟨place, hrun⟩ := hreads 0 none
      obtain ⟨place', hrun'⟩ := hreads' 0 none
      rw [hwords, hrun'] at hrun
      obtain ⟨-, hreading⟩ := Prod.mk.inj (Option.some.inj hrun)
      obtain ⟨-, rfl⟩ := Reading.mk.inj hreading
      exact ⟨later, hlater⟩

/-- Behind declarations only declarations are accepted. -/
theorem Accepted.of_append (hu : Accepted u) (h : Accepted (u ++ v)) : Accepted v := by
  rw [accepted_iff] at hu h
  obtain ⟨items, hu⟩ := hu
  obtain ⟨all, hall⟩ := h
  induction hu generalizing all with
  | nil => exact accepted_iff.mpr ⟨all, hall⟩
  | cons hitem _ ih =>
      rw [List.append_assoc] at hall
      obtain ⟨later, hlater⟩ := exists_of_series_append hitem hall
      exact ih later hlater

/-- Accepted words behind accepted words are accepted. -/
theorem Accepted.append (hu : Accepted u) (hv : Accepted v) : Accepted (u ++ v) := by
  obtain ⟨items, hu⟩ := accepted_iff.mp hu
  obtain ⟨later, hv⟩ := accepted_iff.mp hv
  exact accepted_iff.mpr ⟨items ++ later, hu.append hv⟩

/-- A declaration by itself is accepted. -/
theorem ItemForm.accepted (h : ItemForm item words) : Accepted words := by
  have hseries := Series.cons h .nil
  rw [List.append_nil] at hseries
  exact accepted_iff.mpr ⟨[item], hseries⟩

/-- The words that a declaration can begin with, apart from the name of a rule. -/
def Lexeme.Leads (l : Lexeme) : Prop :=
  l ∈ [.keyword .header, .keyword .token, .keyword .skip, .keyword .start]

/-- A declaration begins with a keyword or is a rule. -/
theorem ItemForm.cases_head {l : Lexeme} (h : ItemForm item (l :: w)) :
    l.Leads ∨ ∃ r, RuleForm r (l :: w) := by
  cases h with
  | header => exact .inl (by simp [Lexeme.Leads])
  | token => exact .inl (by simp [Lexeme.Leads])
  | skip => exact .inl (by simp [Lexeme.Leads])
  | start => exact .inl (by simp [Lexeme.Leads])
  | rule hrule => exact .inr ⟨_, hrule⟩

/-- Each leading keyword can be gone on with. -/
theorem Lexeme.Leads.viable {l : Lexeme} (h : l.Leads) : Viable [l] := by
  have hviable : ∀ {item : Item} {more : List Lexeme}, ItemForm item (l :: more) → Viable [l] :=
    fun hform => ⟨_, hform.accepted⟩
  simp only [Lexeme.Leads, List.mem_cons, List.not_mem_nil, or_false] at h
  rcases h with rfl | rfl | rfl | rfl
  · exact hviable (.header "")
  · exact hviable (.token "" "")
  · have hnames : Separated (.punctuation .comma)
        (fun name words => words = [Lexeme.upper name]) [""] ([.upper ""] ++ []) := .mk rfl .nil
    exact hviable (.skip hnames)
  · exact hviable (.start "")

/-! ### Rules -/

/-- Parts whose blocks in square brackets are bindings make a rule. -/
theorem exists_rule_of_parts {name returns : String} {arguments : Option String}
    {alternatives : List Alternative}
    (h : PartsForm (((name, arguments), returns), alternatives) words)
    (hbinds : ∀ l ∈ words, l.Binds) :
    ∃ r, makeRule name arguments returns alternatives = .ok r ∧ RuleForm r words := by
  obtain ⟨rest, hrest, rfl⟩ := h
  obtain ⟨piece, result, hpiece, hresult⟩ : IsBinding returns :=
    hbinds (.bracket returns) (by simp)
  obtain ⟨bindings, hbindings⟩ :
      ∃ bindings, AreBindings (splitTopLevel true (arguments.getD "")) bindings := by
    cases arguments with
    | none => exact ⟨[], .nil⟩
    | some text =>
        obtain ⟨single, b, hsingle, hb⟩ : IsBinding text :=
          hbinds (.bracket text) (by simp [bracketWords])
        refine ⟨[b], ?_⟩
        rw [Option.getD_some, hsingle]
        exact .cons hb .nil
  exact ⟨_, makeRule_eq_ok_iff.mpr ⟨bindings, result, hbindings, ⟨piece, hpiece, hresult⟩, rfl⟩,
    .mk name hbindings hpiece hresult hrest⟩

/-- A rule is refused where its parts are, and what was remembered before is forgotten. -/
theorem ruleItem_refused {r : Reading} {memory : Memory} (hbinds : ∀ l ∈ r.rest, l.Binds)
    (h : (ruleItem r memory).1 = none) :
    (ruleParts r none).1 = none ∧ (ruleItem r memory).2 = (ruleParts r none).2 := by
  change ((ruleParts.checked _) r memory).1 = none at h
  change _ ∧ ((ruleParts.checked _) r memory).2 = _
  cases hparts : (ruleParts r none).1 with
  | some found =>
      obtain ⟨⟨⟨⟨name, arguments⟩, returns⟩, alternatives⟩, after⟩ := found
      obtain ⟨words, hwords, -, hform⟩ := tracks_ruleParts.reads hparts
      rw [hwords] at hbinds
      obtain ⟨rule, hrule, -⟩ :=
        exists_rule_of_parts hform fun l hl => hbinds l (List.mem_append_left _ hl)
      rw [checked_fst, hparts] at h
      simp [hrule, Except.map, Except.toOption] at h
  | none =>
      rw [checked]
      rcases hrun : ruleParts r none with ⟨_ | found, inner⟩
      · exact ⟨rfl, rfl⟩
      · rw [hrun] at hparts
        cases hparts

/-- Where neither of two readings succeeds, the second one says what is remembered. -/
theorem orElse_refused {α : Type} {p p' : Recognizer α} {r : Reading} {memory : Memory}
    (h : ((p.orElse p') r memory).1 = none) :
    ∃ memory', (p.orElse p') r memory = p' r memory' := by
  rcases orElse_cases p p' r memory with ⟨-, heq⟩ | ⟨x, -, heq⟩
  · exact ⟨_, heq⟩
  · rw [heq] at h
    cases h

/-- Where no declaration is read, only the attempt to read a rule is remembered. -/
theorem item_refused {r : Reading} {memory : Memory} (hbinds : ∀ l ∈ r.rest, l.Binds)
    (h : (Item.recognizer r memory).1 = none) :
    (ruleParts r none).1 = none ∧ (Item.recognizer r memory).2 = (ruleParts r none).2 := by
  rw [Item.recognizer] at h ⊢
  obtain ⟨memory₁, h₁⟩ := orElse_refused h
  rw [h₁] at h ⊢
  obtain ⟨memory₂, h₂⟩ := orElse_refused h
  rw [h₂] at h ⊢
  obtain ⟨memory₃, h₃⟩ := orElse_refused h
  rw [h₃] at h ⊢
  obtain ⟨memory₄, h₄⟩ := orElse_refused h
  rw [h₄] at h ⊢
  exact ruleItem_refused hbinds h

/-- Reading a declaration takes at least one word. -/
theorem advances_item : Item.recognizer.Advances := by
  intro r memory item after h
  obtain ⟨words, hr, -, hform⟩ := exists_of_item h
  have hpos := hform.length_pos
  rw [hr, List.length_append]
  omega

/-- In front of declarations the parts of a rule are possible. -/
theorem opens_ruleParts (hu : Accepted u) : Opens Lexeme.Binds Viable u PartsForm := by
  rintro ⟨⟨⟨name, arguments⟩, returns⟩, alternatives⟩ words hform hbinds
  obtain ⟨r, -, hrule⟩ := exists_rule_of_parts hform hbinds
  exact (hu.append (ItemForm.rule hrule).accepted).viable

/-- Without a name in front the parts of a rule are refused at the first word. -/
theorem ruleParts_of_not_lower {l : Lexeme} (hl : ∀ name, l ≠ .lower name) (place : Nat)
    (rest : List Lexeme) : ∃ c, ruleParts ⟨place, l :: rest⟩ none = (none, some (place, c)) := by
  cases l with
  | lower name => exact absurd rfl (hl name)
  | _ => exact ⟨_, rfl⟩

/-! ### The complaint -/

/-- The lengths of the beginnings of the words that have the property. -/
def beginnings (P : List Lexeme → Prop) (words : List Lexeme) : Set Nat :=
  {n | n ≤ words.length ∧ P (words.take n)}

/-- Words that are refused: behind some declarations no further one is read, and the complaint is
about the place for which the attempt to read a rule left one behind. -/
structure Refused (u rest : List Lexeme) (place : Nat) (c : Complaint) : Prop where
  accepted : Accepted u
  nonempty : rest ≠ []
  binds : ∀ l ∈ rest, l.Binds
  refused : ∃ memory, (Item.recognizer ⟨u.length, rest⟩ memory).1 = none
  parts : ∃ old, ruleParts ⟨u.length, rest⟩ none = (none, some (place, old))
  points : c.Points Viable (u ++ rest) place

/-- Words that are not read have accepted words in front, and the declaration behind them is
refused. -/
theorem exists_refused {c : Complaint} (hbinds : ∀ l ∈ words, l.Binds)
    (h : Item.readAll words = .error c) :
    ∃ u rest place, words = u ++ rest ∧ Refused u rest place c := by
  obtain ⟨items, ⟨place, _⟩, memory, l, rest, place', hrepeats, rfl, hadd⟩ :=
    exists_of_readAll_error advances_item h
  obtain ⟨u, hwords, hplace, hseries⟩ := hrepeats.reads exists_of_item
  have hu : Accepted u := accepted_iff.mpr ⟨items, hseries⟩
  obtain rfl : words = u ++ l :: rest := hwords
  obtain rfl : place = u.length := hplace.trans (Nat.zero_add _)
  obtain ⟨memory₁, hnone, rfl⟩ := hrepeats.exists_stop
  have hrest : ∀ m ∈ l :: rest, m.Binds := (List.forall_mem_append.mp hbinds).2
  obtain ⟨hparts, hmemory⟩ := item_refused hrest hnone
  rw [hmemory] at hadd
  obtain ⟨⟨e, old⟩, hsome, hle⟩ := tracks_ruleParts.complains hparts
  have hend : Complaint.Points Viable (u ++ l :: rest) u.length
      ⟨u.length, u.length + 1, .expected ["end of input"] (some l)⟩ := by
    refine ⟨by simp, rfl, ⟨["end of input"], by simp⟩, ?_⟩
    rw [List.take_left]
    exact hu.viable
  have hholds := (tracks_ruleParts.points (fun u v => viable_of_append) hrest (opens_ruleParts hu)
    Memory.holds_none).add hend fun old hold => hold.merge hend
  rw [hadd] at hholds
  rw [hsome] at hadd
  obtain rfl : place' = e := Memory.place_of_add hle hadd
  exact ⟨u, l :: rest, place', rfl, hu, List.cons_ne_nil l rest, hrest, ⟨memory₁, hnone⟩,
    ⟨old, Prod.ext hparts hsome⟩, hholds _ rfl⟩

namespace Refused

variable {rest : List Lexeme} {place : Nat} {c : Complaint}

/-- What is accepted behind the declarations begins with a declaration. -/
theorem exists_item (h : Refused u rest place c) (hv : v ≠ []) (haccepted : Accepted (u ++ v)) :
    ∃ item w more, ItemForm item w ∧ v = w ++ more := by
  obtain ⟨later, hlater⟩ := accepted_iff.mp (h.accepted.of_append haccepted)
  cases hlater with
  | nil => exact absurd rfl hv
  | cons hitem _ => exact ⟨_, _, _, hitem, rfl⟩

/-- No declaration goes on behind those that are read. -/
theorem isGreatest_accepted (h : Refused u rest place c) :
    IsGreatest (beginnings Accepted (u ++ rest)) u.length := by
  refine ⟨⟨by simp, by rw [List.take_left]; exact h.accepted⟩, ?_⟩
  rintro n ⟨hle, haccepted⟩
  by_contra hlt
  rw [List.take_append, List.take_of_length_le (by omega)] at haccepted
  -- a longer one would have a declaration where none was read
  have hne : rest.take (n - u.length) ≠ [] := by
    have hrest := h.nonempty
    simp only [ne_eq, List.take_eq_nil_iff, hrest, or_false]
    omega
  obtain ⟨item, w, more, hitem, hsplit⟩ := h.exists_item hne haccepted
  have hrest : rest = w ++ (more ++ rest.drop (n - u.length)) := by
    rw [← List.append_assoc, ← hsplit, List.take_append_drop]
  obtain ⟨memory, hnone⟩ := h.refused
  have hreads : Item.recognizer.Reads _ item (more ++ rest.drop (n - u.length)) := reads_item hitem
  obtain ⟨place', hrun⟩ := hreads u.length memory
  rw [← hrest, hnone] at hrun
  cases hrun

/-- No rule begins with the words up to the one that is complained about. -/
theorem not_rule (h : Refused u rest place c) (hlt : place < (u ++ rest).length)
    {more w more' : List Lexeme} {r : ParserRule}
    (hsplit : rest.take (place + 1 - u.length) ++ more = w ++ more') : ¬ RuleForm r w := by
  intro hrule
  obtain ⟨old, hparts⟩ := h.parts
  have hreads : ruleItem.Reads (w ++ more') (.rule r) more' := reads_ruleItem hrule
  obtain ⟨place', hrun⟩ := hreads u.length none
  have hagree : (⟨u.length, rest⟩ : Reading).Agree (place + 1)
      ⟨u.length, rest.take (place + 1 - u.length) ++ more⟩ := by
    have hle : place + 1 - u.length ≤ (rest.take (place + 1 - u.length)).length := by
      rw [List.length_append] at hlt
      rw [List.length_take]
      omega
    refine ⟨rfl, ?_⟩
    rw [List.take_append_of_le_length hle, List.take_take, Nat.min_self]
  -- on all words that agree up to the complaint the parts are refused as well
  have hreach : ¬ (ruleParts ⟨u.length, rest⟩ none).2.Reaches (place + 1) := by
    simp [hparts, Memory.Reaches]
  have hnone : (ruleParts ⟨u.length, rest.take (place + 1 - u.length) ++ more⟩ none).1 = none :=
    tracks_ruleParts.refuses hagree hreach (by rw [hparts])
  change ((ruleParts.checked _) _ none).1 = _ at hrun
  rw [checked_fst, ← hsplit, hnone] at hrun
  cases hrun

/-- The place of a complaint is not in front of the words that are refused. -/
theorem length_le (h : Refused u rest place c) : u.length ≤ place := by
  obtain ⟨old, hparts⟩ := h.parts
  have hreaches : (ruleParts ⟨u.length, rest⟩ none).2.Reaches u.length :=
    tracks_ruleParts.complains (by rw [hparts])
  simpa [hparts, Memory.Reaches] using hreaches

/-- Unless a keyword leads, the complaint is about the first impossible word. -/
theorem isGreatest_viable (h : Refused u rest place c) (hleads : ∀ l ∈ rest.head?, ¬ l.Leads) :
    IsGreatest (beginnings Viable (u ++ rest)) place := by
  refine ⟨⟨h.points.le, h.points.possible⟩, ?_⟩
  rintro n ⟨hle, hviable⟩
  by_contra hlt
  have hplace : place < (u ++ rest).length := by omega
  have hlength := h.length_le
  -- it is enough to look at one word more
  obtain ⟨more, haccepted⟩ : Viable ((u ++ rest).take (place + 1)) := by
    rw [← List.take_append_drop (place + 1) ((u ++ rest).take n), List.take_take,
      Nat.min_eq_left (by omega)] at hviable
    exact viable_of_append hviable
  rw [List.take_append, List.take_of_length_le (by omega), List.append_assoc] at haccepted
  cases hrest : rest with
  | nil => exact h.nonempty hrest
  | cons l tail =>
      have htake : rest.take (place + 1 - u.length) = l :: tail.take (place - u.length) := by
        rw [hrest, Nat.succ_sub hlength, List.take_succ_cons]
      obtain ⟨item, w, more', hitem, hsplit⟩ := h.exists_item (by simp [htake]) haccepted
      obtain ⟨l', w', rfl⟩ := List.exists_cons_of_length_pos hitem.length_pos
      obtain rfl : l = l' := by
        rw [htake] at hsplit
        exact (List.cons.inj hsplit).1
      rcases hitem.cases_head with hl | ⟨r, hrule⟩
      · exact hleads l (by rw [hrest, List.head?_cons]; rfl) hl
      · exact h.not_rule hplace hsplit hrule

/-- A keyword that leads is possible, and the declaration is complained about at it. -/
theorem place_of_leads (h : Refused u rest place c) {l : Lexeme} (hl : rest.head? = some l)
    (hleads : l.Leads) : place = u.length ∧ Viable (u ++ [l]) := by
  obtain ⟨tail, rfl⟩ := List.head?_eq_some_iff.mp hl
  obtain ⟨old, hparts⟩ := h.parts
  have hlower : ∀ name, l ≠ .lower name := by
    rintro name rfl
    simp [Lexeme.Leads] at hleads
  obtain ⟨c', hfirst⟩ := ruleParts_of_not_lower hlower u.length tail
  rw [hfirst] at hparts
  obtain ⟨more, haccepted⟩ := hleads.viable
  refine ⟨(Prod.mk.inj (Option.some.inj (Prod.mk.inj hparts).2)).1.symm, more, ?_⟩
  rw [List.append_assoc]
  exact h.accepted.append haccepted

end Refused

/-- There is a longest beginning with a property that the empty one has. -/
theorem exists_isGreatest_beginnings {P : List Lexeme → Prop} (h : P []) (words : List Lexeme) :
    ∃ k, IsGreatest (beginnings P words) k := by
  classical
  refine ⟨Nat.findGreatest (fun n => P (words.take n)) words.length, ⟨?_, ?_⟩, ?_⟩
  · exact Nat.findGreatest_le _
  · exact Nat.findGreatest_spec (P := fun n => P (words.take n)) (Nat.zero_le _) h
  · rintro n ⟨hle, hn⟩
    exact Nat.le_findGreatest hle hn

/-- Where a complaint about the words stands: `q` is the length of their longest beginning that is
declarations, and `k` that of the longest that can be gone on with. -/
structure Complaint.Located (words : List Lexeme) (c : Complaint) (q k : Nat) : Prop where
  accepted : IsGreatest (beginnings Accepted words) q
  viable : IsGreatest (beginnings Viable words) k
  /-- A declaration that a keyword leads is complained about at the keyword. -/
  atKeyword : (∃ l ∈ words[q]?, l.Leads) → c.first = q ∧ q < k
  atImpossible : (¬ ∃ l ∈ words[q]?, l.Leads) → c.first = k
  found : ∃ labels, c.reason = .expected labels words[c.first]?

/-- The complaint about a declaration that is refused is located at a word of it. -/
theorem Refused.located {rest : List Lexeme} {place : Nat} {c : Complaint}
    (h : Refused u rest place c) : ∃ q k, c.Located (u ++ rest) q k := by
  have hfirst := h.points.first
  have hword : (u ++ rest)[u.length]? = rest.head? := by
    rw [List.getElem?_append_right (le_refl _), Nat.sub_self, List.head?_eq_getElem?]
  have hfound : ∃ labels, c.reason = .expected labels (u ++ rest)[c.first]? := by
    rw [hfirst]
    exact h.points.reason
  by_cases hleads : ∃ l ∈ rest.head?, l.Leads
  · obtain ⟨l, hl, hlead⟩ := hleads
    obtain ⟨rfl, hviable⟩ := h.place_of_leads hl hlead
    obtain ⟨tail, rfl⟩ := List.head?_eq_some_iff.mp hl
    have hnil : Viable ([] ++ u) := h.accepted.viable
    obtain ⟨k, hk⟩ := exists_isGreatest_beginnings (viable_of_append hnil) (u ++ l :: tail)
    have hnext : u.length + 1 ∈ beginnings Viable (u ++ l :: tail) := by
      refine ⟨by simp, ?_⟩
      rw [List.take_length_add_append]
      exact hviable
    refine ⟨u.length, k, h.isGreatest_accepted, hk, fun _ => ⟨hfirst, hk.2 hnext⟩, ?_, hfound⟩
    intro hnot
    exact absurd ⟨l, hword.trans hl, hlead⟩ hnot
  · have hgreatest := h.isGreatest_viable fun l hl hlead => hleads ⟨l, hl, hlead⟩
    refine ⟨u.length, place, h.isGreatest_accepted, hgreatest, ?_, fun _ => hfirst, hfound⟩
    rw [hword]
    exact fun hlead => absurd hlead hleads

/-- Words whose blocks in square brackets are bindings and that are no declarations are complained
about at the first impossible word, or at the keyword of the first declaration that goes wrong if
one leads it; the description is refused at the offset of that word. -/
theorem complaint_located (words : List Lexeme) (hbinds : ∀ l ∈ words, l.Binds) (c : Complaint)
    (h : Item.readAll words = .error c) :
    (∃ q k, c.Located words q k) ∧
      ∀ source placed, lexemes source.toList = .ok placed → placed.map (·.lexeme) = words →
        read source = .error (.declarations
          ((placed[c.first]?).elim (byteLength source.toList) (·.start)) c) := by
  constructor
  · obtain ⟨u, rest, place, rfl, hrefused⟩ := exists_refused hbinds h
    exact hrefused.located
  · intro source placed hplaced hwords
    have hitems : readItems source = .error (.declarations
        ((placed[c.first]?).elim (byteLength source.toList) (·.start)) c) := by
      rw [readItems, hplaced]
      simp only [hwords, h, offsetOf]
    rw [read, hitems]
    rfl

/-- A rule without an alternative is complained about where the alternative is missing. -/
theorem complaint_located_missing_alternative :
    let words : List Lexeme := [.keyword .start, .lower "s", .punctuation .semicolon, .lower "s",
      .keyword .returns, .bracket "r: ()", .punctuation .colon, .punctuation .semicolon]
    let c : Complaint := ⟨7, 8, .expected ["alternative"] (some (.punctuation .semicolon))⟩
    (∀ l ∈ words, l.Binds) ∧ Item.readAll words = .error c ∧ (∃ q k, c.Located words q k) ∧
      read "start s; s returns [r: ()] : ;" = .error (.declarations 29 c) := by
  intro words c
  have hbinds : ∀ l ∈ words, l.Binds := by
    simp [words, Lexeme.Binds, isBinding_unit]
  have herror : Item.readAll words = .error c := by rfl
  obtain ⟨hlocated, hread⟩ := complaint_located words hbinds c herror
  refine ⟨hbinds, herror, hlocated, ?_⟩
  exact hread "start s; s returns [r: ()] : ;" _ (by rfl) (by rfl)

/-- A token rule without the sign of equality is complained about at its keyword, which is
possible. -/
theorem not_located_at_impossible_word : ¬ ∀ words c, (∀ l ∈ words, l.Binds) →
    Item.readAll words = .error c → IsGreatest (beginnings Viable words) c.first := by
  intro hall
  have herror : Item.readAll [.keyword .token, .upper "A", .pattern "a", .punctuation .semicolon] =
      .error ⟨0, 1, .expected ["rule name", "end of input"] (some (.keyword .token))⟩ := by rfl
  have hgreatest := hall _ _ (by simp [Lexeme.Binds]) herror
  have hleads : (Lexeme.keyword .token).Leads := by simp [Lexeme.Leads]
  have hle : 1 ≤ 0 := hgreatest.2 ⟨by decide, hleads.viable⟩
  exact absurd hle (by decide)

end Descent.Description
