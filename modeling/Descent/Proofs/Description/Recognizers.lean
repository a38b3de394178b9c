import Descent.Description.Recognizer

/-!
# What recognizers read

Two kinds of facts about a recognizer, whatever complaint is remembered. `Sound` says
that all that it reads has some form. `Reads` and `Refuses` say what it does on given
words, and each way of putting recognizers together has its rules for these.
-/

namespace Descent.Description

variable {α β : Type}

/-- Words that have the form of the values one after the other. -/
inductive Series (Form : α → List Lexeme → Prop) : List α → List Lexeme → Prop where
  | nil : Series Form [] []
  | cons {a : α} {as : List α} {words rest : List Lexeme} (h : Form a words)
      (hrest : Series Form as rest) : Series Form (a :: as) (words ++ rest)

namespace Recognizer

variable {p p' : Recognizer α} {q : Recognizer β} {V : α → List Lexeme → Prop}
  {words mid rest : List Lexeme} {a : α} {b : β} {as : List α} {r : Reading} {memory : Memory}

/-- All that the recognizer reads has the form. -/
def Sound (p : Recognizer α) (Form : α → List Lexeme → Prop) : Prop :=
  ∀ r memory a after, (p r memory).1 = some (a, after) →
    ∃ words, r.rest = words ++ after.rest ∧ Form a words

/-- The recognizer reads the value from the beginning of the words and leaves the rest. -/
def Reads (p : Recognizer α) (words : List Lexeme) (a : α) (rest : List Lexeme) : Prop :=
  ∀ place memory, ∃ place', (p ⟨place, words⟩ memory).1 = some (a, ⟨place', rest⟩)

/-- The recognizer reads nothing from the words. -/
def Refuses (p : Recognizer α) (words : List Lexeme) : Prop :=
  ∀ place memory, (p ⟨place, words⟩ memory).1 = none

/-! ### Single words -/

section

variable {labels : List String} {accept : Lexeme → Option α} {l m : Lexeme}

/-- A word that is accepted is read. -/
theorem reads_word (h : accept l = some a) : (word labels accept).Reads (l :: rest) a rest :=
  fun place _ => ⟨place + 1, by simp only [word, h]⟩

/-- A word that is not accepted is refused. -/
theorem refuses_word (h : accept l = none) : (word labels accept).Refuses (l :: rest) :=
  fun _ _ => by simp only [word, h]

/-- Where no word is left, a word is refused. -/
theorem refuses_word_nil : (word labels accept).Refuses [] := fun _ _ => rfl

/-- A word is read where it stands. -/
theorem reads_just : (just l).Reads (l :: rest) () rest := reads_word (if_pos rfl)

/-- A word is refused where another one stands. -/
theorem refuses_just (h : m ≠ l) : (just l).Refuses (m :: rest) := refuses_word (if_neg h)

end

/-! ### Results

What each way of putting recognizers together does to their results. -/

/-- What is read is changed by the function. -/
theorem map_fst (f : α → β) :
    ((p.map f) r memory).1 = (p r memory).1.map fun x => (f x.1, x.2) := by
  rw [Recognizer.map]
  rcases p r memory with ⟨_ | ⟨a, after⟩, memory'⟩ <;> rfl

/-- Two readings in a row succeed if the first does and then the second behind it. -/
theorem both_fst : ((p.both q) r memory).1 = (p r memory).1.bind fun x =>
    (q x.2 (p r memory).2).1.map fun y => ((x.1, y.1), y.2) := by
  rw [both]
  rcases p r memory with ⟨_ | ⟨a, after⟩, memory'⟩
  · rfl
  · dsimp only [Option.bind_some]
    rcases q after memory' with ⟨_ | ⟨b, last⟩, memory''⟩ <;> rfl

/-- The second reading is tried where the first one fails. -/
theorem orElse_fst : ((p.orElse p') r memory).1 =
    (p r memory).1.or (p' r (p r memory).2).1 := by
  rw [orElse]
  rcases p r memory with ⟨_ | ⟨a, after⟩, memory'⟩ <;> rfl

/-- The result of an optional part, apart from what is remembered. -/
theorem optional_fst : (p.optional r memory).1 =
    some ((p r memory).1.elim (none, r) fun x => (some x.1, x.2)) := by
  rw [optional]
  rcases p r memory with ⟨_ | ⟨a, after⟩, memory'⟩ <;> rfl

/-- A label does not change the result: what is read is read without a memory. -/
theorem labelled_fst (label : String) : ((p.labelled label) r memory).1 = (p r none).1 := by
  rw [labelled]
  rcases p r none with ⟨result, _ | ⟨place, c⟩⟩ <;> rfl

/-- The result of a checked part is the one of the part, where the check passes. -/
theorem checked_fst (f : α → Except String β) : ((p.checked f) r memory).1 =
    (p r none).1.bind fun x => (f x.1).toOption.map fun b => (b, x.2) := by
  rw [checked]
  rcases p r none with ⟨_ | ⟨a, after⟩, inner⟩
  · rfl
  · dsimp only [Option.bind_some]
    cases f a <;> rfl

/-- The result of one more round of a repetition. -/
theorem manyFrom_fst (fuel : Nat) : (manyFrom p (fuel + 1) r memory).1 =
    (p r memory).1.elim ([], r) fun x =>
      (x.1 :: (manyFrom p fuel x.2 (p r memory).2).1.1,
        (manyFrom p fuel x.2 (p r memory).2).1.2) := by
  rw [manyFrom]
  rcases p r memory with ⟨_ | ⟨a, after⟩, memory'⟩ <;> rfl

/-- The result of a repetition, which always succeeds. -/
theorem many_fst : (p.many r memory).1 = some (manyFrom p (r.rest.length + 1) r memory).1 := rfl

/-! ### Soundness -/

/-- A repetition of a sound part is sound for series. -/
theorem Sound.many (hp : p.Sound V) : p.many.Sound (Series V) := by
  have hfrom : ∀ fuel r memory, ∃ words,
      r.rest = words ++ (manyFrom p fuel r memory).1.2.rest ∧
        Series V (manyFrom p fuel r memory).1.1 words := by
    intro fuel
    induction fuel with
    | zero => exact fun r _ => ⟨[], rfl, .nil⟩
    | succ fuel ih =>
        intro r memory
        rw [manyFrom_fst]
        cases ha : (p r memory).1 with
        | none => exact ⟨[], rfl, .nil⟩
        | some found =>
            obtain ⟨words, hr, hv⟩ := hp r memory found.1 found.2 ha
            obtain ⟨rest, hrest, hseries⟩ := ih found.2 (p r memory).2
            exact ⟨words ++ rest, by rw [hr, hrest, List.append_assoc]; rfl, .cons hv hseries⟩
  intro r memory as after hrun
  obtain ⟨words, hr, hseries⟩ := hfrom (r.rest.length + 1) r memory
  rw [many_fst, Option.some.injEq] at hrun
  rw [hrun] at hr hseries
  exact ⟨words, hr, hseries⟩

/-! ### Runs on given words -/

/-- What a part reads, its image reads as the image of the value. -/
theorem Reads.map {f : α → β} (hp : p.Reads words a rest) : (p.map f).Reads words (f a) rest := by
  intro place memory
  obtain ⟨place', h⟩ := hp place memory
  exact ⟨place', by rw [map_fst, h]; rfl⟩

/-- Where a part refuses, its image refuses. -/
theorem Refuses.map {f : α → β} (hp : p.Refuses words) : (p.map f).Refuses words :=
  fun place memory => by rw [map_fst, hp place memory]; rfl

/-- Two parts that read one behind the other read the pair of their values. -/
theorem Reads.both (hp : p.Reads words a mid) (hq : q.Reads mid b rest) :
    (p.both q).Reads words (a, b) rest := by
  intro place memory
  obtain ⟨place', h⟩ := hp place memory
  obtain ⟨place'', h'⟩ := hq place' (p ⟨place, words⟩ memory).2
  refine ⟨place'', ?_⟩
  rw [both_fst, h]
  dsimp only [Option.bind_some]
  rw [h']
  rfl

/-- Two parts refuse where the first one does. -/
theorem Refuses.both_left (hp : p.Refuses words) : (p.both q).Refuses words :=
  fun place memory => by rw [both_fst, hp place memory]; rfl

/-- Two parts refuse where the second one refuses what the first one left. -/
theorem Refuses.both_right (hp : p.Reads words a mid) (hq : q.Refuses mid) :
    (p.both q).Refuses words := by
  intro place memory
  obtain ⟨place', h⟩ := hp place memory
  rw [both_fst, h]
  dsimp only [Option.bind_some]
  rw [hq place' (p ⟨place, words⟩ memory).2]
  rfl

/-- Two parts of which the first value is kept read the first value. -/
theorem Reads.before (hp : p.Reads words a mid) (hq : q.Reads mid b rest) :
    (p.before q).Reads words a rest := (hp.both hq).map

/-- Two parts of which the second value is kept read the second value. -/
theorem Reads.after (hp : p.Reads words a mid) (hq : q.Reads mid b rest) :
    (p.after q).Reads words b rest := (hp.both hq).map

/-- A choice reads what its first part reads. -/
theorem Reads.orElse_left (hp : p.Reads words a rest) : (p.orElse p').Reads words a rest := by
  intro place memory
  obtain ⟨place', h⟩ := hp place memory
  exact ⟨place', by rw [orElse_fst, h]; rfl⟩

/-- A choice reads what its second part reads, where the first one refuses. -/
theorem Reads.orElse_right (hp : p.Refuses words) (hp' : p'.Reads words a rest) :
    (p.orElse p').Reads words a rest := by
  intro place memory
  obtain ⟨place', h⟩ := hp' place (p ⟨place, words⟩ memory).2
  exact ⟨place', by rw [orElse_fst, hp place memory, h]; rfl⟩

/-- A choice refuses where both parts refuse. -/
theorem Refuses.orElse (hp : p.Refuses words) (hp' : p'.Refuses words) :
    (p.orElse p').Refuses words :=
  fun place memory => by rw [orElse_fst, hp place memory, hp' place _]; rfl

/-- An optional part reads what the part reads. -/
theorem Reads.optional_some (hp : p.Reads words a rest) : p.optional.Reads words (some a) rest := by
  intro place memory
  obtain ⟨place', h⟩ := hp place memory
  exact ⟨place', by rw [optional_fst, h]; rfl⟩

/-- An optional part reads nothing where the part refuses. -/
theorem Reads.optional_none (hp : p.Refuses words) : p.optional.Reads words none words :=
  fun place memory => ⟨place, by rw [optional_fst, hp place memory]; rfl⟩

/-- A part with a label reads what the part reads. -/
theorem Reads.labelled {label : String} (hp : p.Reads words a rest) :
    (p.labelled label).Reads words a rest := by
  intro place memory
  obtain ⟨place', h⟩ := hp place none
  exact ⟨place', by rw [labelled_fst, h]⟩

/-- A part with a label refuses where the part refuses. -/
theorem Refuses.labelled {label : String} (hp : p.Refuses words) :
    (p.labelled label).Refuses words :=
  fun place memory => by rw [labelled_fst, hp place none]

/-- A checked part reads the checked value of what the part reads. -/
theorem Reads.checked {f : α → Except String β} (hp : p.Reads words a rest) (hf : f a = .ok b) :
    (p.checked f).Reads words b rest := by
  intro place memory
  obtain ⟨place', h⟩ := hp place none
  refine ⟨place', ?_⟩
  rw [checked_fst, h]
  dsimp only [Option.bind_some]
  rw [hf]
  rfl

/-- The recognizer reads the values one after the other, each from a word at least, and refuses what
is left. -/
inductive ReadsAll (p : Recognizer α) : List Lexeme → List α → List Lexeme → Prop where
  | nil {words : List Lexeme} (h : p.Refuses words) : ReadsAll p words [] words
  | cons {words mid rest : List Lexeme} {a : α} {as : List α} (h : p.Reads words a mid)
      (hlt : mid.length < words.length) (hrest : ReadsAll p mid as rest) :
      ReadsAll p words (a :: as) rest

/-- A series comes to its end before the fuel does, as each value takes a word. -/
theorem ReadsAll.many (h : ReadsAll p words as rest) : p.many.Reads words as rest := by
  have hfrom : ∀ fuel, words.length < fuel → ∀ place memory, ∃ place',
      (manyFrom p fuel ⟨place, words⟩ memory).1 = (as, ⟨place', rest⟩) := by
    induction h with
    | nil h =>
        rintro (_ | fuel) hfuel place memory
        · omega
        · exact ⟨place, by rw [manyFrom_fst, h place memory]; rfl⟩
    | cons h hlt _ ih =>
        rintro (_ | fuel) hfuel place memory
        · omega
        · obtain ⟨place', hrun⟩ := h place memory
          obtain ⟨place'', hrest⟩ := ih fuel (by omega) place' (p ⟨place, _⟩ memory).2
          refine ⟨place'', ?_⟩
          rw [manyFrom_fst, hrun]
          dsimp only [Option.elim_some]
          rw [hrest]
  intro place memory
  obtain ⟨place', hrun⟩ := hfrom (words.length + 1) (Nat.lt_succ_self _) place memory
  exact ⟨place', by rw [many_fst, hrun]⟩

private theorem before_finish_fst : ((p.before finish) r memory).1 =
    (p r memory).1.bind fun x => if x.2.rest = [] then some x else none := by
  rw [before, map_fst, both_fst, Option.map_bind]
  congr 1
  funext x
  rcases x with ⟨a, place, _ | ⟨l, rest⟩⟩ <;> rfl

/-- All words are read as a value exactly if the recognizer reads it and leaves no word. -/
theorem readAll_eq_ok_iff : p.readAll words = .ok a ↔
    ∃ place, (p ⟨0, words⟩ none).1 = some (a, ⟨place, []⟩) := by
  have hresult : p.readAll words = .ok a ↔
      ∃ after, ((p.before finish) ⟨0, words⟩ none).1 = some (a, after) := by
    rw [readAll]
    rcases (p.before finish) ⟨0, words⟩ none with ⟨_ | ⟨b, after⟩, _ | ⟨place, c⟩⟩ <;> simp
  rw [hresult, before_finish_fst]
  constructor
  · rintro ⟨after, h⟩
    obtain ⟨⟨b, place, rest⟩, hrun, hif⟩ := Option.bind_eq_some_iff.mp h
    obtain ⟨hrest, heq⟩ := Option.ite_none_right_eq_some.mp hif
    obtain ⟨rfl, rfl⟩ := Prod.mk.inj (Option.some.inj heq)
    obtain rfl : rest = [] := hrest
    exact ⟨place, hrun⟩
  · rintro ⟨place, hrun⟩
    exact ⟨⟨place, []⟩, by rw [hrun]; rfl⟩

/-- The rules for forms and for given words meet: a series whose values are of one form is read from
the words of that form and from no others. -/
theorem readAll_many_eq_ok_iff {Form : α → List Lexeme → Prop} (hsound : p.Sound Form)
    (hreads : ∀ {as words}, Series Form as words → ReadsAll p words as []) :
    p.many.readAll words = .ok as ↔ Series Form as words := by
  rw [readAll_eq_ok_iff]
  constructor
  · rintro ⟨place, hrun⟩
    obtain ⟨found, hwords, hseries⟩ := hsound.many _ _ _ _ hrun
    obtain rfl : words = found := hwords.trans (List.append_nil found)
    exact hseries
  · intro h
    exact (hreads h).many 0 none

end Recognizer
end Descent.Description
