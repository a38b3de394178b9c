import Descent.Proofs.Description.Recognizers

/-!
# Where recognizers complain

A recognizer that tracks a form reads words of the form only, and where it fails it remembers a
complaint. A complaint that is remembered is about the word at its place, and the words in
front of that place can be gone on with. A run does not depend on words behind those that
were read and those that are complained about. Each way of putting recognizers together
keeps these properties, apart from checks, which forget complaints.
-/

namespace Descent.Description

variable {α β : Type}

/-! ### Complaints -/

/-- The complaint is about the word at its place, in front of which the words are possible. -/
structure Complaint.Points (Possible : List Lexeme → Prop) (words : List Lexeme) (place : Nat)
    (c : Complaint) : Prop where
  le : place ≤ words.length
  first : c.first = place
  reason : ∃ labels, c.reason = .expected labels words[place]?
  possible : Possible (words.take place)

namespace Complaint.Points

variable {Possible : List Lexeme → Prop} {words : List Lexeme} {place : Nat} {c c' : Complaint}

/-- Two complaints that point at the same word point at it together. -/
theorem merge (h : c.Points Possible words place) (h' : c'.Points Possible words place) :
    (c.merge c').Points Possible words place := by
  obtain ⟨labels, hlabels⟩ := h.reason
  obtain ⟨more, hmore⟩ := h'.reason
  have hmerge : c.merge c' = { c with reason := .expected (joined labels more) words[place]? } := by
    simp only [Complaint.merge, hlabels, hmore]
  rw [hmerge]
  exact ⟨h.le, h.first, ⟨_, rfl⟩, h.possible⟩

/-- A complaint with a new label points where it did. -/
theorem relabel (label : String) (h : c.Points Possible words place) :
    (c.relabel label).Points Possible words place := by
  obtain ⟨labels, hlabels⟩ := h.reason
  have hrelabel : c.relabel label = { c with reason := .expected [label] words[place]? } := by
    simp only [Complaint.relabel, hlabels]
  rw [hrelabel]
  exact ⟨h.le, h.first, ⟨_, rfl⟩, h.possible⟩

end Complaint.Points

namespace Memory

variable {memory : Memory} {n place : Nat} {c : Complaint} {P : Nat → Complaint → Prop}

/-- A complaint is remembered for the place or one further on. -/
def Reaches (n : Nat) (memory : Memory) : Prop := ∃ x ∈ memory, n ≤ x.1

/-- The complaint that is remembered, if there is one, has the property. -/
def Holds (P : Nat → Complaint → Prop) (memory : Memory) : Prop := ∀ x ∈ memory, P x.1 x.2

/-- A memory that reaches a place reaches the places in front of it. -/
theorem Reaches.mono {m : Nat} (h : memory.Reaches n) (hle : m ≤ n) : memory.Reaches m := by
  obtain ⟨x, hx, hn⟩ := h
  exact ⟨x, hx, Nat.le_trans hle hn⟩

/-- A memory with a new complaint reaches as far as the memory and the complaint. -/
theorem reaches_add : (memory.add place c).Reaches n ↔ memory.Reaches n ∨ n ≤ place := by
  rcases memory with _ | ⟨q, old⟩
  · simp [Reaches, add]
  · by_cases hlt : q < place
    · simp [Reaches, add, hlt]
      omega
    · by_cases heq : q = place <;> simp [Reaches, add, hlt, heq]
      omega

/-- A complaint about an earlier place does not move what is remembered. -/
theorem place_of_add {q : Nat} {old c' : Complaint} (hle : place ≤ q)
    (h : Memory.add (some (q, old)) place c = some (n, c')) : n = q := by
  rw [Memory.add, if_neg (Nat.not_lt.mpr hle)] at h
  by_cases heq : q = place
  · rw [if_pos heq] at h
    exact (Prod.mk.inj (Option.some.inj h)).1.symm
  · rw [if_neg heq] at h
    exact (Prod.mk.inj (Option.some.inj h)).1.symm

private theorem add_ne_none : memory.add place c ≠ none := by
  intro h
  have hreaches : (memory.add place c).Reaches place := reaches_add.mpr (.inr (Nat.le_refl _))
  rw [h] at hreaches
  simp [Reaches] at hreaches

/-- An empty memory holds every property. -/
theorem holds_none : Holds P none := by simp [Holds]

/-- A memory with a new complaint holds what the memory and the complaint have, as far as complaints
that are put together have it. -/
theorem Holds.add (h : memory.Holds P) (hc : P place c)
    (hmerge : ∀ old, P place old → P place (old.merge c)) : (memory.add place c).Holds P := by
  rcases memory with _ | ⟨q, old⟩
  · simpa [Holds, Memory.add] using hc
  · have hold : P q old := by simpa [Holds] using h
    by_cases hlt : q < place
    · simpa [Holds, Memory.add, hlt] using hc
    · by_cases heq : q = place
      · subst heq
        simpa [Holds, Memory.add] using hmerge old hold
      · simpa [Holds, Memory.add, hlt, heq] using hold

end Memory

/-- The readings are at one place and go on with the same words up to the place `n`. -/
structure Reading.Agree (n : Nat) (r r' : Reading) : Prop where
  place : r.place = r'.place
  rest : r.rest.take (n - r.place) = r'.rest.take (n - r.place)

namespace Reading.Agree

variable {n : Nat} {r r' : Reading} {l : Lexeme} {rest : List Lexeme}

/-- Where one of two readings that agree is at its end, the other is as well. -/
theorem nil (h : r.Agree n r') (hlt : r.place < n) (hrest : r.rest = []) : r'.rest = [] := by
  have htake := h.rest
  rw [hrest, List.take_nil, eq_comm, List.take_eq_nil_iff] at htake
  exact htake.resolve_left (by omega)

/-- Where one of two readings that agree goes on with a word, the other does as well, and they agree
behind it. -/
theorem cons (h : r.Agree n r') (hlt : r.place < n) (hrest : r.rest = l :: rest) :
    ∃ rest', r'.rest = l :: rest' ∧
      (⟨r.place + 1, rest⟩ : Reading).Agree n ⟨r'.place + 1, rest'⟩ := by
  obtain ⟨m, rfl⟩ : ∃ m, n = r.place + (m + 1) := ⟨n - r.place - 1, by omega⟩
  have htake := h.rest
  rw [hrest, Nat.add_sub_cancel_left, List.take_succ_cons] at htake
  cases hrest' : r'.rest with
  | nil => simp [hrest'] at htake
  | cons l' rest' =>
      rw [hrest', List.take_succ_cons] at htake
      obtain ⟨rfl, htail⟩ := List.cons.inj htake
      have hsub : r.place + (m + 1) - (r.place + 1) = m := by omega
      exact ⟨rest', rfl, congrArg (· + 1) h.place, by simpa only [hsub] using htail⟩

end Reading.Agree

namespace Recognizer

variable {p p' : Recognizer α} {q : Recognizer β} {V : α → List Lexeme → Prop}
  {W : β → List Lexeme → Prop} {r r' : Reading} {memory memory' : Memory} {Fits : Lexeme → Prop}

/-! ### Outcomes

What each way of putting recognizers together does, with what is remembered. -/

/-- An image remembers what the part remembers. -/
theorem map_snd (f : α → β) : ((p.map f) r memory).2 = (p r memory).2 := by
  rw [Recognizer.map]
  rcases p r memory with ⟨_ | ⟨a, after⟩, memory'⟩ <;> rfl

/-- Two parts fail with the first one, or go on with the second one behind it. -/
theorem both_cases (p : Recognizer α) (q : Recognizer β) (r : Reading) (memory : Memory) :
    ((p r memory).1 = none ∧ (p.both q) r memory = (none, (p r memory).2)) ∨
      ∃ a after, (p r memory).1 = some (a, after) ∧
        (p.both q) r memory = ((q after (p r memory).2).1.map fun y => ((a, y.1), y.2),
          (q after (p r memory).2).2) := by
  rw [both]
  rcases p r memory with ⟨_ | ⟨a, after⟩, memory'⟩
  · exact .inl ⟨rfl, rfl⟩
  · refine .inr ⟨a, after, rfl, ?_⟩
    dsimp only
    rcases q after memory' with ⟨_ | ⟨b, last⟩, memory''⟩ <;> rfl

/-- A choice goes on with its second part behind a failure of the first one, or succeeds with the
first one. -/
theorem orElse_cases (p p' : Recognizer α) (r : Reading) (memory : Memory) :
    ((p r memory).1 = none ∧ (p.orElse p') r memory = p' r (p r memory).2) ∨
      ∃ x, (p r memory).1 = some x ∧ (p.orElse p') r memory = (some x, (p r memory).2) := by
  rw [orElse]
  rcases p r memory with ⟨_ | x, memory'⟩
  · exact .inl ⟨rfl, rfl⟩
  · exact .inr ⟨x, rfl, rfl⟩

/-- An optional part succeeds without a value behind a failure of the part, or succeeds with its
value. -/
theorem optional_cases (p : Recognizer α) (r : Reading) (memory : Memory) :
    ((p r memory).1 = none ∧ p.optional r memory = (some (none, r), (p r memory).2)) ∨
      ∃ a after, (p r memory).1 = some (a, after) ∧
        p.optional r memory = (some (some a, after), (p r memory).2) := by
  rw [optional]
  rcases p r memory with ⟨_ | ⟨a, after⟩, memory'⟩
  · exact .inl ⟨rfl, rfl⟩
  · exact .inr ⟨a, after, rfl, rfl⟩

/-- What is remembered while reading under a label is added, with the label where it is about the
first word. -/
theorem labelled_snd (label : String) (p : Recognizer α) (r : Reading) (memory : Memory) :
    ((p r none).2 = none ∧ ((p.labelled label) r memory).2 = memory) ∨
      ∃ place c, (p r none).2 = some (place, c) ∧ ((p.labelled label) r memory).2 =
        memory.add place (if place = r.place then c.relabel label else c) := by
  rw [labelled]
  rcases p r none with ⟨result, _ | ⟨place, c⟩⟩
  · exact .inl ⟨rfl, rfl⟩
  · exact .inr ⟨place, c, rfl, rfl⟩

/-! ### Tracking -/

/-- In front of the words everything that has the form is possible. -/
def Opens (Fits : Lexeme → Prop) (Possible : List Lexeme → Prop) (before : List Lexeme)
    (Form : α → List Lexeme → Prop) : Prop :=
  ∀ a words, Form a words → (∀ l ∈ words, Fits l) → Possible (before ++ words)

/-- Behind fitting words everything that completes them to the form is possible. -/
theorem Opens.behind {γ : Type} {R : γ → List Lexeme → Prop} {Possible : List Lexeme → Prop}
    {before u : List Lexeme} (hopens : Opens Fits Possible before R) (hu : ∀ l ∈ u, Fits l)
    (f : β → γ) (h : ∀ b v, W b v → R (f b) (u ++ v)) : Opens Fits Possible (before ++ u) W := by
  intro b v hw hv
  rw [List.append_assoc]
  exact hopens (f b) (u ++ v) (h b v hw) (List.forall_mem_append.mpr ⟨hu, hv⟩)

/-- The recognizer reads words of the form and remembers complaints that point at words behind
possible ones, as far as all words fit. -/
structure Tracks (Fits : Lexeme → Prop) (p : Recognizer α) (Form : α → List Lexeme → Prop) :
    Prop where
  /-- What is read has the form, and the place moves behind it. -/
  reads : ∀ {r memory a after}, (p r memory).1 = some (a, after) → ∃ words,
    r.rest = words ++ after.rest ∧ after.place = r.place + words.length ∧ Form a words
  /-- There are fitting words of the form. -/
  fitting : ∃ a words, (∀ l ∈ words, Fits l) ∧ Form a words
  keeps : ∀ {n r memory}, memory.Reaches n → (p r memory).2.Reaches n
  complains : ∀ {r memory}, (p r memory).1 = none → (p r memory).2.Reaches r.place
  points : ∀ {Possible : List Lexeme → Prop} {before words memory},
    (∀ u v, Possible (u ++ v) → Possible u) → (∀ l ∈ words, Fits l) →
    Opens Fits Possible before Form →
    memory.Holds (fun place c => c.Points Possible (before ++ words) place) →
    (p ⟨before.length, words⟩ memory).2.Holds fun place c =>
      c.Points Possible (before ++ words) place
  /-- A failure depends on the words up to the one that is complained about. -/
  refuses : ∀ {n r r' memory memory'}, r.Agree n r' → ¬ (p r memory).2.Reaches n →
    (p r memory).1 = none → (p r' memory').1 = none
  /-- A success depends on these and the words that are read. -/
  rereads : ∀ {n r r' memory memory' a after}, r.Agree n r' → ¬ (p r memory).2.Reaches n →
    (p r memory).1 = some (a, after) → after.place ≤ n →
    ∃ after', (p r' memory').1 = some (a, after') ∧ after.Agree n after'

/-- A recognizer that reads something does not go back behind where it began. -/
theorem Tracks.place_le (hp : Tracks Fits p V) {a : α} {after : Reading}
    (h : (p r memory).1 = some (a, after)) : r.place ≤ after.place := by
  obtain ⟨words, -, hplace, -⟩ := hp.reads h
  omega

/-- The same words may be said to be of a wider form. -/
theorem Tracks.imp {V' : α → List Lexeme → Prop} (hp : Tracks Fits p V)
    (h : ∀ a words, V a words → V' a words) : Tracks Fits p V' where
  reads hrun := by
    obtain ⟨words, hr, hplace, hv⟩ := hp.reads hrun
    exact ⟨words, hr, hplace, h _ words hv⟩
  fitting := by
    obtain ⟨a, words, hfits, hv⟩ := hp.fitting
    exact ⟨a, words, hfits, h a words hv⟩
  keeps := hp.keeps
  complains := hp.complains
  points hclosed hwords hopens :=
    hp.points hclosed hwords fun a words hv => hopens a words (h a words hv)
  refuses := hp.refuses
  rereads := hp.rereads

section

variable {labels : List String} {accept : Lexeme → Option α} {l : Lexeme} {a : α}

/-- A single word is taken, or else a complaint about it is remembered. -/
theorem word_cases (labels : List String) (accept : Lexeme → Option α) (r : Reading)
    (memory : Memory) :
    (∃ l rest a, r.rest = l :: rest ∧ accept l = some a ∧
      word labels accept r memory = (some (a, ⟨r.place + 1, rest⟩), memory)) ∨
    ∃ c, c.first = r.place ∧ c.reason = .expected labels r.rest.head? ∧
      (∀ l ∈ r.rest.head?, accept l = none) ∧
      word labels accept r memory = (none, memory.add r.place c) := by
  obtain ⟨place, _ | ⟨l, rest⟩⟩ := r
  · exact .inr ⟨_, rfl, rfl, nofun, rfl⟩
  · cases ha : accept l with
    | none => exact .inr ⟨⟨place, place + 1, _⟩, rfl, rfl, by simpa using ha, by simp [word, ha]⟩
    | some a => exact .inl ⟨l, rest, a, rfl, ha, by simp [word, ha]⟩

/-- The recognizer of a single word tracks the words that it accepts. -/
theorem tracks_word (hl : accept l = some a) (hfits : Fits l) :
    Tracks Fits (word labels accept) fun a words => ∃ l, accept l = some a ∧ words = [l] where
  reads {r memory a after} hrun := by
    rcases word_cases labels accept r memory with
      ⟨l, rest, b, hrest, hb, heq⟩ | ⟨c, -, -, -, heq⟩
    · rw [heq] at hrun
      obtain ⟨rfl, rfl⟩ := Prod.mk.inj (Option.some.inj hrun)
      exact ⟨[l], hrest, rfl, l, hb, rfl⟩
    · rw [heq] at hrun
      cases hrun
  fitting := ⟨a, [l], by simpa using hfits, l, hl, rfl⟩
  keeps {n r memory} hreaches := by
    rcases word_cases labels accept r memory with ⟨_, _, _, -, -, heq⟩ | ⟨c, -, -, -, heq⟩
    · rwa [heq]
    · rw [heq]
      exact Memory.reaches_add.mpr (.inl hreaches)
  complains {r memory} hnone := by
    rcases word_cases labels accept r memory with ⟨_, _, _, -, -, heq⟩ | ⟨c, -, -, -, heq⟩
    · rw [heq] at hnone
      cases hnone
    · rw [heq]
      exact Memory.reaches_add.mpr (.inr (Nat.le_refl _))
  points {Possible before words memory} hclosed hwords hopens hholds := by
    rcases word_cases labels accept ⟨before.length, words⟩ memory with
      ⟨_, _, _, -, -, heq⟩ | ⟨c, hfirst, hreason, -, heq⟩
    · rwa [heq]
    · have hpossible : Possible before :=
        hclosed before [l] (hopens a [l] ⟨l, hl, rfl⟩ (by simpa using hfits))
      have hc : c.Points Possible (before ++ words) before.length := by
        refine ⟨by simp, hfirst, ⟨labels, ?_⟩, by simpa using hpossible⟩
        rw [hreason, List.getElem?_append_right (Nat.le_refl _), Nat.sub_self,
          List.head?_eq_getElem?]
      rw [heq]
      exact hholds.add hc fun old hold => hold.merge hc
  refuses {n r r' memory memory'} hagree hreach hnone := by
    rcases word_cases labels accept r memory with ⟨_, _, _, -, -, heq⟩ | ⟨c, -, -, hhead, heq⟩
    · rw [heq] at hnone
      cases hnone
    · rw [heq, Memory.reaches_add] at hreach
      have hlt : r.place < n := by omega
      cases hrest : r.rest with
      | nil => simp [word, hagree.nil hlt hrest]
      | cons l rest =>
          obtain ⟨rest', hrest', -⟩ := hagree.cons hlt hrest
          have hl : accept l = none := hhead l (by simp [hrest])
          simp [word, hrest', hl]
  rereads {n r r' memory memory' a after} hagree hreach hrun hle := by
    rcases word_cases labels accept r memory with
      ⟨l, rest, b, hrest, hb, heq⟩ | ⟨c, -, -, -, heq⟩
    · rw [heq] at hrun
      obtain ⟨rfl, rfl⟩ := Prod.mk.inj (Option.some.inj hrun)
      obtain ⟨rest', hrest', hafter⟩ := hagree.cons hle hrest
      exact ⟨_, by simp [word, hrest', hb], hafter⟩
    · rw [heq] at hrun
      cases hrun

end

/-- An image tracks the form of the images. -/
theorem Tracks.map {f : α → β} (hp : Tracks Fits p V) (h : ∀ a u, V a u → W (f a) u) :
    Tracks Fits (p.map f) W where
  reads {r memory b after} hrun := by
    rw [map_fst, Option.map_eq_some_iff] at hrun
    obtain ⟨⟨a, after⟩, ha, heq⟩ := hrun
    obtain ⟨rfl, rfl⟩ := Prod.mk.inj heq
    obtain ⟨words, hr, hplace, hv⟩ := hp.reads ha
    exact ⟨words, hr, hplace, h a words hv⟩
  fitting := by
    obtain ⟨a, words, hfits, hv⟩ := hp.fitting
    exact ⟨f a, words, hfits, h a words hv⟩
  keeps hreaches := by
    rw [map_snd]
    exact hp.keeps hreaches
  complains hnone := by
    rw [map_snd]
    rw [map_fst, Option.map_eq_none_iff] at hnone
    exact hp.complains hnone
  points hclosed hwords hopens hholds := by
    rw [map_snd]
    exact hp.points hclosed hwords (fun a u hv => hopens (f a) u (h a u hv)) hholds
  refuses hagree hreach hnone := by
    rw [map_snd] at hreach
    rw [map_fst, Option.map_eq_none_iff] at hnone ⊢
    exact hp.refuses hagree hreach hnone
  rereads hagree hreach hrun hle := by
    rw [map_snd] at hreach
    rw [map_fst, Option.map_eq_some_iff] at hrun
    obtain ⟨⟨a, after⟩, ha, heq⟩ := hrun
    obtain ⟨rfl, rfl⟩ := Prod.mk.inj heq
    obtain ⟨after', ha', hafter⟩ := hp.rereads hagree hreach ha hle
    exact ⟨after', by rw [map_fst, ha']; rfl, hafter⟩

/-- Two parts, one behind the other, track the form of words behind words. -/
theorem Tracks.both {R : α × β → List Lexeme → Prop} (hp : Tracks Fits p V) (hq : Tracks Fits q W)
    (h : ∀ a b u v, V a u → W b v → R (a, b) (u ++ v)) : Tracks Fits (p.both q) R where
  reads {r memory ab after} hrun := by
    rcases both_cases p q r memory with ⟨-, heq⟩ | ⟨a, mid, ha, heq⟩
    · rw [heq] at hrun
      cases hrun
    · rw [heq, Option.map_eq_some_iff] at hrun
      obtain ⟨⟨b, last⟩, hb, heq⟩ := hrun
      obtain ⟨rfl, rfl⟩ := Prod.mk.inj heq
      obtain ⟨u, hu, hplace, hv⟩ := hp.reads ha
      obtain ⟨v, hv', hplace', hw⟩ := hq.reads hb
      refine ⟨u ++ v, by rw [hu, hv', List.append_assoc], ?_, h a b u v hv hw⟩
      rw [hplace', hplace, List.length_append, Nat.add_assoc]
  fitting := by
    obtain ⟨a, u, hu, hv⟩ := hp.fitting
    obtain ⟨b, v, hv', hw⟩ := hq.fitting
    exact ⟨(a, b), u ++ v, List.forall_mem_append.mpr ⟨hu, hv'⟩, h a b u v hv hw⟩
  keeps {n r memory} hreaches := by
    rcases both_cases p q r memory with ⟨-, heq⟩ | ⟨a, mid, -, heq⟩
    · rw [heq]
      exact hp.keeps hreaches
    · rw [heq]
      exact hq.keeps (hp.keeps hreaches)
  complains {r memory} hnone := by
    rcases both_cases p q r memory with ⟨ha, heq⟩ | ⟨a, mid, ha, heq⟩
    · rw [heq]
      exact hp.complains ha
    · rw [heq, Option.map_eq_none_iff] at hnone
      rw [heq]
      exact (hq.complains hnone).mono (hp.place_le ha)
  points {Possible before words memory} hclosed hwords hopens hholds := by
    have hfirst : Opens Fits Possible before V := by
      intro a u hv hu
      obtain ⟨b, v, hv', hw⟩ := hq.fitting
      have hbehind : Opens Fits Possible (before ++ u) W :=
        hopens.behind hu (fun b => (a, b)) fun b v => h a b u v hv
      exact hclosed (before ++ u) v (hbehind b v hw hv')
    have hmemory := hp.points hclosed hwords hfirst hholds
    rcases both_cases p q ⟨before.length, words⟩ memory with ⟨-, heq⟩ | ⟨a, mid, ha, heq⟩
    · rwa [heq]
    · obtain ⟨u, hu, hplace, hv⟩ := hp.reads ha
      obtain rfl : words = u ++ mid.rest := hu
      have hmid : mid = ⟨(before ++ u).length, mid.rest⟩ := by
        rw [List.length_append, ← hplace]
      obtain ⟨hfits, hrest⟩ := List.forall_mem_append.mp hwords
      have hsecond : Opens Fits Possible (before ++ u) W :=
        hopens.behind hfits (fun b => (a, b)) fun b v => h a b u v hv
      rw [← List.append_assoc] at hmemory ⊢
      rw [heq, hmid]
      exact hq.points hclosed hrest hsecond hmemory
  refuses {n r r' memory memory'} hagree hreach hnone := by
    rw [both_fst]
    rcases both_cases p q r memory with ⟨ha, heq⟩ | ⟨a, mid, ha, heq⟩
    · rw [heq] at hreach
      rw [hp.refuses hagree hreach ha]
      rfl
    · rw [heq] at hreach
      rw [heq, Option.map_eq_none_iff] at hnone
      -- the complaint of the second stands behind what the first has read
      have hle : mid.place ≤ n :=
        Nat.le_of_not_lt fun hlt => hreach ((hq.complains hnone).mono (Nat.le_of_lt hlt))
      obtain ⟨mid', ha', hmid⟩ := hp.rereads hagree (mt hq.keeps hreach) ha hle
      rw [ha', Option.bind_some, hq.refuses hmid hreach hnone]
      rfl
  rereads {n r r' memory memory' ab after} hagree hreach hrun hle := by
    rw [both_fst]
    rcases both_cases p q r memory with ⟨ha, heq⟩ | ⟨a, mid, ha, heq⟩
    · rw [heq] at hrun
      cases hrun
    · rw [heq] at hreach
      rw [heq, Option.map_eq_some_iff] at hrun
      obtain ⟨⟨b, last⟩, hb, heq⟩ := hrun
      obtain ⟨rfl, rfl⟩ := Prod.mk.inj heq
      obtain ⟨mid', ha', hmid⟩ := hp.rereads hagree (mt hq.keeps hreach) ha
        (Nat.le_trans (hq.place_le hb) hle)
      obtain ⟨last', hb', hlast⟩ := hq.rereads hmid hreach hb hle
      refine ⟨last', ?_, hlast⟩
      rw [ha', Option.bind_some, hb']
      rfl

/-- Two parts of which the first value is kept track the form of both. -/
theorem Tracks.before {R : α → List Lexeme → Prop} (hp : Tracks Fits p V) (hq : Tracks Fits q W)
    (h : ∀ a b u v, V a u → W b v → R a (u ++ v)) : Tracks Fits (p.before q) R :=
  (hp.both (R := fun ab => R ab.1) hq h).map fun _ _ hr => hr

/-- Two parts of which the second value is kept track the form of both. -/
theorem Tracks.after {R : β → List Lexeme → Prop} (hp : Tracks Fits p V) (hq : Tracks Fits q W)
    (h : ∀ a b u v, V a u → W b v → R b (u ++ v)) : Tracks Fits (p.after q) R :=
  (hp.both (R := fun ab => R ab.2) hq h).map fun _ _ hr => hr

/-- A choice between two recognizers of one form tracks this form. -/
theorem Tracks.orElse (hp : Tracks Fits p V) (hp' : Tracks Fits p' V) :
    Tracks Fits (p.orElse p') V where
  reads {r memory a after} hrun := by
    rcases orElse_cases p p' r memory with ⟨-, heq⟩ | ⟨x, hx, heq⟩
    · rw [heq] at hrun
      exact hp'.reads hrun
    · rw [heq, ← hx] at hrun
      exact hp.reads hrun
  fitting := hp.fitting
  keeps {n r memory} hreaches := by
    rcases orElse_cases p p' r memory with ⟨-, heq⟩ | ⟨x, -, heq⟩
    · rw [heq]
      exact hp'.keeps (hp.keeps hreaches)
    · rw [heq]
      exact hp.keeps hreaches
  complains {r memory} hnone := by
    rcases orElse_cases p p' r memory with ⟨hp, heq⟩ | ⟨x, -, heq⟩
    · rw [heq] at hnone ⊢
      exact hp'.complains hnone
    · rw [heq] at hnone
      cases hnone
  points {Possible before words memory} hclosed hwords hopens hholds := by
    have hmemory := hp.points hclosed hwords hopens hholds
    rcases orElse_cases p p' ⟨before.length, words⟩ memory with ⟨-, heq⟩ | ⟨x, -, heq⟩
    · rw [heq]
      exact hp'.points hclosed hwords hopens hmemory
    · rwa [heq]
  refuses {n r r' memory memory'} hagree hreach hnone := by
    rcases orElse_cases p p' r memory with ⟨hfirst, heq⟩ | ⟨x, -, heq⟩
    · rw [heq] at hreach hnone
      rw [orElse_fst, hp.refuses hagree (mt hp'.keeps hreach) hfirst, Option.none_or]
      exact hp'.refuses hagree hreach hnone
    · rw [heq] at hnone
      cases hnone
  rereads {n r r' memory memory' a after} hagree hreach hrun hle := by
    rw [orElse_fst]
    rcases orElse_cases p p' r memory with ⟨hfirst, heq⟩ | ⟨x, hx, heq⟩
    · rw [heq] at hreach hrun
      rw [hp.refuses hagree (mt hp'.keeps hreach) hfirst, Option.none_or]
      exact hp'.rereads hagree hreach hrun hle
    · rw [heq] at hreach hrun
      rw [← hx] at hrun
      obtain ⟨after', ha', hafter⟩ := hp.rereads hagree hreach hrun hle
      exact ⟨after', by rw [ha', Option.some_or], hafter⟩

/-- An optional part tracks the form, which the empty series must have as well. -/
theorem Tracks.optional {R : Option α → List Lexeme → Prop} (hp : Tracks Fits p V)
    (hnone : R none []) (hsome : ∀ a u, V a u → R (some a) u) : Tracks Fits p.optional R where
  reads {r memory o after} hrun := by
    rcases optional_cases p r memory with ⟨-, heq⟩ | ⟨a, mid, ha, heq⟩
    · rw [heq] at hrun
      obtain ⟨rfl, rfl⟩ := Prod.mk.inj (Option.some.inj hrun)
      exact ⟨[], rfl, rfl, hnone⟩
    · rw [heq] at hrun
      obtain ⟨rfl, rfl⟩ := Prod.mk.inj (Option.some.inj hrun)
      obtain ⟨words, hr, hplace, hv⟩ := hp.reads ha
      exact ⟨words, hr, hplace, hsome a words hv⟩
  fitting := ⟨none, [], nofun, hnone⟩
  keeps {n r memory} hreaches := by
    rcases optional_cases p r memory with ⟨-, heq⟩ | ⟨a, mid, -, heq⟩ <;> rw [heq] <;>
      exact hp.keeps hreaches
  complains {r memory} h := by
    rcases optional_cases p r memory with ⟨-, heq⟩ | ⟨a, mid, -, heq⟩ <;> rw [heq] at h <;> cases h
  points {Possible before words memory} hclosed hwords hopens hholds := by
    have hmemory := hp.points hclosed hwords (fun a u hv => hopens (some a) u (hsome a u hv)) hholds
    rcases optional_cases p ⟨before.length, words⟩ memory with ⟨-, heq⟩ | ⟨a, mid, -, heq⟩ <;>
      rwa [heq]
  refuses {n r r' memory memory'} hagree hreach h := by
    rcases optional_cases p r memory with ⟨-, heq⟩ | ⟨a, mid, -, heq⟩ <;> rw [heq] at h <;> cases h
  rereads {n r r' memory memory' o after} hagree hreach hrun hle := by
    rw [optional_fst]
    rcases optional_cases p r memory with ⟨ha, heq⟩ | ⟨a, mid, ha, heq⟩
    · rw [heq] at hreach hrun
      obtain ⟨rfl, rfl⟩ := Prod.mk.inj (Option.some.inj hrun)
      exact ⟨r', by rw [hp.refuses hagree hreach ha]; rfl, hagree⟩
    · rw [heq] at hreach hrun
      obtain ⟨rfl, rfl⟩ := Prod.mk.inj (Option.some.inj hrun)
      obtain ⟨mid', ha', hmid⟩ := hp.rereads hagree hreach ha hle
      exact ⟨mid', by rw [ha']; rfl, hmid⟩

/-- Under a label nothing is forgotten. -/
theorem reaches_labelled {label : String} {n : Nat} (h : (p r none).2.Reaches n) :
    ((p.labelled label) r memory).2.Reaches n := by
  rcases labelled_snd label p r memory with ⟨hnone, -⟩ | ⟨place, c, hsome, heq⟩
  · simp [hnone, Memory.Reaches] at h
  · have hle : n ≤ place := by simpa [hsome, Memory.Reaches] using h
    rw [heq]
    exact Memory.reaches_add.mpr (.inr hle)

/-- A recognizer with a label tracks the form that it tracks without the label. -/
theorem Tracks.labelled {label : String} (hp : Tracks Fits p V) :
    Tracks Fits (p.labelled label) V where
  reads hrun := by
    rw [labelled_fst] at hrun
    exact hp.reads hrun
  fitting := hp.fitting
  keeps {n r memory} hreaches := by
    rcases labelled_snd label p r memory with ⟨-, heq⟩ | ⟨place, c, -, heq⟩
    · rwa [heq]
    · rw [heq]
      exact Memory.reaches_add.mpr (.inl hreaches)
  complains {r memory} hnone := by
    rw [labelled_fst] at hnone
    exact reaches_labelled (hp.complains hnone)
  points {Possible before words memory} hclosed hwords hopens hholds := by
    rcases labelled_snd label p ⟨before.length, words⟩ memory with ⟨-, heq⟩ | ⟨place, c, hsome, heq⟩
    · rwa [heq]
    · have hinner := hp.points hclosed hwords hopens Memory.holds_none
      rw [hsome] at hinner
      have hc : c.Points Possible (before ++ words) place := hinner _ rfl
      rw [heq]
      refine hholds.add ?_ fun old hold => hold.merge ?_ <;> split
      · exact hc.relabel label
      · exact hc
      · exact hc.relabel label
      · exact hc
  refuses hagree hreach hnone := by
    rw [labelled_fst] at hnone ⊢
    exact hp.refuses hagree (mt reaches_labelled hreach) hnone
  rereads hagree hreach hrun hle := by
    rw [labelled_fst] at hrun ⊢
    exact hp.rereads hagree (mt reaches_labelled hreach) hrun hle

/-! ### Series -/

/-- The recognizer is run again and again up to its first failure. -/
inductive Repeats (p : Recognizer α) : Reading → Memory → List α → Reading → Memory → Prop where
  | stop {r : Reading} {memory : Memory} (h : (p r memory).1 = none) :
      Repeats p r memory [] r (p r memory).2
  | step {r after last : Reading} {memory memory' : Memory} {a : α} {as : List α}
      (h : (p r memory).1 = some (a, after))
      (hrest : Repeats p after (p r memory).2 as last memory') :
      Repeats p r memory (a :: as) last memory'

/-- The runs up to the first failure are determined. -/
theorem Repeats.unique {as as' : List α} {last last' : Reading} {memory₁ memory₂ : Memory}
    (h : Repeats p r memory as last memory₁) (h' : Repeats p r memory as' last' memory₂) :
    as = as' ∧ last = last' ∧ memory₁ = memory₂ := by
  induction h generalizing as' last' memory₂ with
  | stop hnone =>
      cases h' with
      | stop => exact ⟨rfl, rfl, rfl⟩
      | step hsome =>
          rw [hnone] at hsome
          cases hsome
  | step hsome _ ih =>
      cases h' with
      | stop hnone =>
          rw [hsome] at hnone
          cases hnone
      | step hsome' hrest =>
          rw [hsome] at hsome'
          obtain ⟨rfl, rfl⟩ := Prod.mk.inj (Option.some.inj hsome')
          obtain ⟨rfl, rfl, rfl⟩ := ih hrest
          exact ⟨rfl, rfl, rfl⟩

/-- The recognizer takes a word whenever it reads something. -/
def Advances (p : Recognizer α) : Prop :=
  ∀ r memory a after, (p r memory).1 = some (a, after) → after.rest.length < r.rest.length

/-- A recognizer that takes words is repeated up to its first failure. -/
theorem repeats_many (hp : p.Advances) (r : Reading) (memory : Memory) :
    ∃ as last memory', p.many r memory = (some (as, last), memory') ∧
      Repeats p r memory as last memory' := by
  have hfrom : ∀ fuel r memory, r.rest.length < fuel → ∃ as last memory',
      manyFrom p fuel r memory = ((as, last), memory') ∧ Repeats p r memory as last memory' := by
    intro fuel
    induction fuel with
    | zero => exact fun _ _ hfuel => absurd hfuel (Nat.not_lt_zero _)
    | succ fuel ih =>
        intro r memory hfuel
        rw [manyFrom]
        rcases hrun : p r memory with ⟨_ | ⟨a, after⟩, memory'⟩
        · refine ⟨[], r, memory', rfl, ?_⟩
          have hstop : Repeats p r memory [] r (p r memory).2 := .stop (by rw [hrun])
          rwa [hrun] at hstop
        · have hlt : after.rest.length < r.rest.length := hp r memory a after (by rw [hrun])
          obtain ⟨as, last, memory'', heq, hrest⟩ := ih after memory' (by omega)
          refine ⟨a :: as, last, memory'', by simp only [heq], .step (by rw [hrun]) ?_⟩
          rwa [hrun]
  obtain ⟨as, last, memory', heq, hrepeats⟩ := hfrom (r.rest.length + 1) r memory (by omega)
  exact ⟨as, last, memory', by rw [many, heq], hrepeats⟩

/-- A repetition is the runs of its part up to the first failure. -/
theorem Repeats.many_eq (hp : p.Advances) {as : List α} {last : Reading}
    (h : Repeats p r memory as last memory') : p.many r memory = (some (as, last), memory') := by
  obtain ⟨as', last', memory'', heq, hrepeats⟩ := repeats_many hp r memory
  obtain ⟨rfl, rfl, rfl⟩ := h.unique hrepeats
  exact heq

/-- A recognizer of words of a form that is never empty takes a word. -/
theorem Tracks.advances (hp : Tracks Fits p V) (hpos : ∀ a, ¬ V a []) : p.Advances := by
  intro r memory a after h
  obtain ⟨words, hr, -, hv⟩ := hp.reads h
  have hne : words ≠ [] := by
    rintro rfl
    exact hpos a hv
  have hlength := List.length_pos_iff.mpr hne
  rw [hr, List.length_append]
  omega

namespace Repeats

variable {as : List α} {last : Reading}

/-- Runs up to the first failure read a series of the form. -/
theorem reads (hp : ∀ {r memory a after}, (p r memory).1 = some (a, after) → ∃ words,
      r.rest = words ++ after.rest ∧ after.place = r.place + words.length ∧ V a words)
    (h : Repeats p r memory as last memory') : ∃ words,
    r.rest = words ++ last.rest ∧ last.place = r.place + words.length ∧ Series V as words := by
  induction h with
  | stop => exact ⟨[], rfl, rfl, .nil⟩
  | step ha _ ih =>
      obtain ⟨u, hu, hplace, hv⟩ := hp ha
      obtain ⟨words, hwords, hlast, hseries⟩ := ih
      refine ⟨u ++ words, by rw [hu, hwords, List.append_assoc], ?_, .cons hv hseries⟩
      rw [hlast, hplace, List.length_append, Nat.add_assoc]

/-- What is remembered in the end is what the failure left behind. -/
theorem exists_stop (h : Repeats p r memory as last memory') :
    ∃ memory₁, (p last memory₁).1 = none ∧ memory' = (p last memory₁).2 := by
  induction h with
  | stop hnone => exact ⟨_, hnone, rfl⟩
  | step _ _ ih => exact ih

/-- Runs up to the first failure do not forget how far the memory reaches. -/
theorem keeps (hp : Tracks Fits p V) (h : Repeats p r memory as last memory') {n : Nat}
    (hreaches : memory.Reaches n) : memory'.Reaches n := by
  induction h with
  | stop => exact hp.keeps hreaches
  | step _ _ ih => exact ih (hp.keeps hreaches)

/-- Runs up to the first failure remember complaints that point at words behind possible ones. -/
theorem points (hp : Tracks Fits p V) (h : Repeats p r memory as last memory')
    {Possible : List Lexeme → Prop} (hclosed : ∀ u v, Possible (u ++ v) → Possible u)
    {before : List Lexeme} (hplace : r.place = before.length) (hwords : ∀ l ∈ r.rest, Fits l)
    (hopens : Opens Fits Possible before (Series V))
    (hholds : memory.Holds fun place c => c.Points Possible (before ++ r.rest) place) :
    memory'.Holds fun place c => c.Points Possible (before ++ r.rest) place := by
  have hfirst : ∀ {before : List Lexeme}, Opens Fits Possible before (Series V) →
      Opens Fits Possible before V := by
    intro before hopens a u hv hu
    have hpossible := hopens [a] (u ++ []) (.cons hv .nil) (by simpa using hu)
    rwa [List.append_nil] at hpossible
  induction h generalizing before with
  | @stop r memory h =>
      obtain ⟨place, words⟩ := r
      obtain rfl : place = before.length := hplace
      exact hp.points hclosed hwords (hfirst hopens) hholds
  | @step r after last memory memory' a as ha _ ih =>
      obtain ⟨place, words⟩ := r
      obtain rfl : place = before.length := hplace
      have hmemory := hp.points hclosed hwords (hfirst hopens) hholds
      obtain ⟨u, hu, hafter, hv⟩ := hp.reads ha
      obtain rfl : words = u ++ after.rest := hu
      obtain ⟨hfits, hrest⟩ := List.forall_mem_append.mp hwords
      have hsecond : Opens Fits Possible (before ++ u) (Series V) :=
        hopens.behind hfits (a :: ·) fun _ _ => .cons hv
      rw [← List.append_assoc] at hmemory ⊢
      exact ih (by rw [hafter, List.length_append]) hrest hsecond hmemory

/-- Runs up to the first failure are the same from a reading that agrees as far as they look. -/
theorem rereads (hp : Tracks Fits p V) {n : Nat} {memory₁ : Memory}
    (h : Repeats p r memory as last memory₁) (hagree : r.Agree n r') (hreach : ¬ memory₁.Reaches n)
    (hle : last.place ≤ n) (memory' : Memory) :
    ∃ last' memory₂, Repeats p r' memory' as last' memory₂ ∧ last.Agree n last' := by
  induction h generalizing r' memory' with
  | stop hnone => exact ⟨r', _, .stop (hp.refuses hagree hreach hnone), hagree⟩
  | step ha hrest ih =>
      obtain ⟨words, -, hplace, -⟩ := hrest.reads hp.reads
      obtain ⟨after', ha', hafter⟩ :=
        hp.rereads hagree (mt (hrest.keeps hp) hreach) ha (by omega)
      obtain ⟨last', memory₂, hrest', hlast⟩ := ih hafter hreach hle _
      exact ⟨last', memory₂, .step ha' hrest', hlast⟩

end Repeats

/-- A repetition tracks the series of the form, if the empty series of words does not have the
form. -/
theorem Tracks.many (hp : Tracks Fits p V) (hpos : ∀ a, ¬ V a []) :
    Tracks Fits p.many (Series V) where
  reads {r memory as after} hrun := by
    obtain ⟨as', last, memory', heq, hrepeats⟩ := repeats_many (hp.advances hpos) r memory
    rw [heq] at hrun
    obtain ⟨rfl, rfl⟩ := Prod.mk.inj (Option.some.inj hrun)
    exact hrepeats.reads hp.reads
  fitting := ⟨[], [], nofun, .nil⟩
  keeps {n r memory} hreaches := by
    obtain ⟨as, last, memory', heq, hrepeats⟩ := repeats_many (hp.advances hpos) r memory
    rw [heq]
    exact hrepeats.keeps hp hreaches
  complains hnone := by cases hnone
  points {Possible before words memory} hclosed hwords hopens hholds := by
    obtain ⟨as, last, memory', heq, hrepeats⟩ :=
      repeats_many (hp.advances hpos) ⟨before.length, words⟩ memory
    rw [heq]
    exact hrepeats.points hp hclosed rfl hwords hopens hholds
  refuses _ _ hnone := by cases hnone
  rereads {n r r' memory memory' as after} hagree hreach hrun hle := by
    obtain ⟨as', last, memory₁, heq, hrepeats⟩ := repeats_many (hp.advances hpos) r memory
    rw [heq] at hrun hreach
    obtain ⟨rfl, rfl⟩ := Prod.mk.inj (Option.some.inj hrun)
    obtain ⟨last', memory₂, hrepeats', hlast⟩ := hrepeats.rereads hp hagree hreach hle memory'
    exact ⟨last', by rw [hrepeats'.many_eq (hp.advances hpos)], hlast⟩

/-- Where not all words are read, the complaint is the one that is remembered behind the series, or
about the word there, or both in one. -/
theorem exists_of_readAll_error (hp : p.Advances) {words : List Lexeme} {c : Complaint}
    (h : p.many.readAll words = .error c) : ∃ as last memory l rest place,
      Repeats p ⟨0, words⟩ none as last memory ∧ last.rest = l :: rest ∧
        memory.add last.place
          ⟨last.place, last.place + 1, .expected ["end of input"] (some l)⟩ = some (place, c) := by
  obtain ⟨as, last, memory, heq, hrepeats⟩ := repeats_many hp ⟨0, words⟩ none
  obtain ⟨end', _ | ⟨l, rest⟩⟩ := last
  · simp [readAll, before, both, Recognizer.map, heq, finish] at h
  · refine ⟨as, ⟨end', l :: rest⟩, memory, l, rest, ?_⟩
    rcases hadd : memory.add end' ⟨end', end' + 1, .expected ["end of input"] (some l)⟩ with
      _ | ⟨place, c'⟩
    · exact absurd hadd Memory.add_ne_none
    · simp only [readAll, before, both, Recognizer.map, heq, finish, hadd, Except.error.injEq] at h
      exact ⟨place, hrepeats, rfl, by rw [h]⟩

end Recognizer
end Descent.Description
