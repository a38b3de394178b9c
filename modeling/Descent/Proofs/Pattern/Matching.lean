import Descent.Pattern.Compiled

/-!
# What a pattern matches

A regular expression matches from one place in a text to another, as its form says. The
machine prefers one match to the others; whatever it prefers is a match of the
expression that was compiled, and it begins and ends within the text. A pattern that
is tied to the start of the text matches nowhere else.
-/

namespace Descent.Pattern

open Descent.Text

/-- The place behind the next `n` characters, or the end of the text if there are fewer. -/
def Spot.move : Spot → Nat → Spot
  | spot, 0 => spot
  | ⟨before, []⟩, _ + 1 => ⟨before, []⟩
  | ⟨_, c :: rest⟩, n + 1 => move ⟨some c, rest⟩ n

/-- The second place is behind the character at the first one, which is in the set. -/
def Spot.Passes (set : CharSet) (s t : Spot) : Prop :=
  ∃ c rest, s.after = c :: rest ∧ set.contains c = true ∧ t = ⟨some c, rest⟩

/-- From one place to another in exactly `n` rounds. -/
def Rounds (step : Spot → Spot → Prop) : Nat → Spot → Spot → Prop
  | 0, s, t => t = s
  | n + 1, s, t => ∃ u, step s u ∧ Rounds step n u t

/-- The text between the places is one that the expression stands for. A greatest number of rounds
that is below the least one counts for the least one. -/
def Regex.Matches : Regex → Spot → Spot → Prop
  | .empty, s, t => t = s
  | .chars set, s, t => s.Passes set t
  | .look l, s, t => l.holds s = true ∧ t = s
  | .cat r r', s, t => ∃ u, r.Matches s u ∧ r'.Matches u t
  | .alt r r', s, t => r.Matches s t ∨ r'.Matches s t
  | .rep r min max _, s, t => ∃ n, min ≤ n ∧ (∀ m ∈ max, n ≤ m ∨ n ≤ min) ∧ Rounds r.Matches n s t
  | .group r, s, t => r.Matches s t

/-- The text between the places is one that the node stands for. -/
def Node.Matches : Node → Spot → Spot → Prop
  | .empty _, s, t => t = s
  | .chars _ set, s, t => s.Passes set t
  | .look _ l, s, t => l.holds s = true ∧ t = s
  | .cat _ a b, s, t => ∃ u, a.Matches s u ∧ b.Matches u t
  | .alt _ a b, s, t => a.Matches s t ∨ b.Matches s t
  | .star _ _ a, s, t => ∃ n, Rounds a.Matches n s t

/-! ### Building -/

private theorem Rounds.mono {R R' : Spot → Spot → Prop} (h : ∀ s t, R s t → R' s t) {n : Nat}
    {s t : Spot} (hn : Rounds R n s t) : Rounds R' n s t := by
  induction n generalizing s with
  | zero => exact hn
  | succ n ih =>
      obtain ⟨u, hu, hrest⟩ := hn
      exact ⟨u, h s u hu, ih hrest⟩

private theorem Rounds.add {R : Spot → Spot → Prop} {m n : Nat} {s t u : Spot} (hm : Rounds R m s t)
    (hn : Rounds R n t u) : Rounds R (m + n) s u := by
  induction m generalizing s with
  | zero =>
      obtain rfl : t = s := hm
      rwa [Nat.zero_add]
  | succ m ih =>
      obtain ⟨v, hv, hrest⟩ := hm
      rw [Nat.succ_add]
      exact ⟨v, hv, ih hrest⟩

namespace Build

/-- The nodes that a builder makes match only where the relation holds. -/
def Within (b : Build) (R : Spot → Spot → Prop) : Prop := ∀ n s t, (b n).1.Matches s t → R s t

variable {a b : Build} {R R' : Spot → Spot → Prop}

private theorem within_empty : empty.Within (Rounds R 0) := fun _ _ _ h => h

/-- One build before another matches what both match, one behind the other. -/
theorem Within.cat (ha : a.Within R) (hb : b.Within R') :
    (cat a b).Within fun s t => ∃ u, R s u ∧ R' u t := by
  rintro n s t ⟨u, hu, ht⟩
  exact ⟨u, ha _ _ _ hu, hb _ _ _ ht⟩

/-- A choice of two builds matches what one of them matches. -/
theorem Within.alt (ha : a.Within R) (hb : b.Within R') :
    (alt a b).Within fun s t => R s t ∨ R' s t := by
  rintro n s t (h | h)
  · exact Or.inl (ha _ _ _ h)
  · exact Or.inr (hb _ _ _ h)

/-- A build that is repeated a number of times matches that many rounds. -/
theorem Within.exactly (ha : a.Within R) (count : Nat) :
    (exactly a count).Within (Rounds R count) := by
  induction count with
  | zero => exact within_empty
  | succ count ih =>
      cases count with
      | zero => exact fun n s t h => ⟨t, ha n s t h, rfl⟩
      | succ count => exact ha.cat ih

/-- An optional build matches what the build matches, or nothing. -/
theorem Within.optional (greedy : Bool) (ha : a.Within R) :
    (optional greedy a).Within fun s t => R s t ∨ t = s := by
  intro n s t h
  cases greedy with
  | true => exact ha.alt (within_empty (R := R)) n s t h
  | false => exact ((within_empty (R := R)).alt ha n s t h).symm

/-- A build that is repeated up to a number of times matches at most that many rounds. -/
theorem Within.upTo (greedy : Bool) (ha : a.Within R) (count : Nat) :
    (upTo greedy a count).Within fun s t => ∃ n ≤ count, Rounds R n s t := by
  induction count with
  | zero => exact fun n s t h => ⟨0, Nat.le_refl 0, within_empty n s t h⟩
  | succ count ih =>
      -- the first of the repetitions, and behind it what `more` allows
      have hoptional : ∀ more : Build, more.Within (fun s t => ∃ n ≤ count, Rounds R (n + 1) s t) →
          (Build.optional greedy more).Within fun s t => ∃ n ≤ count + 1, Rounds R n s t := by
        intro more hmore n s t h
        rcases hmore.optional greedy n s t h with ⟨m, hm, hrounds⟩ | rfl
        · exact ⟨m + 1, Nat.succ_le_succ hm, hrounds⟩
        · exact ⟨0, Nat.zero_le _, rfl⟩
      cases count with
      | zero => exact hoptional a fun n s t h => ⟨0, Nat.le_refl 0, t, ha n s t h, rfl⟩
      | succ count =>
          refine hoptional (Build.cat a (Build.upTo greedy a (count + 1))) ?_
          rintro n s t ⟨u, hu, ht⟩
          obtain ⟨m, hm, hrest⟩ := ih _ _ _ ht
          exact ⟨m, hm, u, ha _ _ _ hu, hrest⟩

/-- A build that is repeated as often as it can be matches some number of rounds. -/
theorem Within.star (greedy : Bool) (ha : a.Within R) :
    (star greedy a).Within fun s t => ∃ n, Rounds R n s t := by
  rintro n s t ⟨m, hm⟩
  exact ⟨m, hm.mono (ha n)⟩

/-- A build that is repeated once at least matches one round or more. -/
theorem Within.plus (greedy : Bool) (ha : a.Within R) :
    (plus greedy a).Within fun s t => ∃ n, Rounds R (n + 1) s t := by
  rintro n s t ⟨u, hu, m, hm⟩
  exact ⟨m, u, ha n s u hu, hm.mono (ha n)⟩

private theorem Within.mono (ha : a.Within R) (h : ∀ s t, R s t → R' s t) : a.Within R' :=
  fun n s t hm => h s t (ha n s t hm)

end Build

/-- The nodes of an expression match only what the expression matches. -/
theorem Regex.within_build (r : Regex) : r.build.Within r.Matches := by
  induction r with
  | empty => exact fun _ _ _ h => h
  | chars set => exact fun _ _ _ h => h
  | look l => exact fun _ _ _ h => h
  | cat r r' ih ih' => exact ih.cat ih'
  | alt r r' ih ih' => exact ih.alt ih'
  | group r ih => exact ih
  | rep r min max greedy ih =>
      cases max with
      | none =>
          have hrep : ∀ {n s t}, min ≤ n → Rounds r.Matches n s t →
              (Regex.rep r min none greedy).Matches s t :=
            fun hn h => ⟨_, hn, fun _ hm => (Option.not_mem_none _ hm).elim, h⟩
          match min with
          | 0 =>
              rw [build]
              split
              · exact (ih.star greedy).mono fun s t ⟨n, h⟩ => hrep n.zero_le h
              · refine ((ih.plus greedy).optional greedy).mono fun s t h => ?_
                rcases h with ⟨n, h⟩ | h
                · exact hrep (n + 1).zero_le h
                · exact hrep (Nat.le_refl 0) h
          | 1 => exact (ih.plus greedy).mono fun s t ⟨n, h⟩ => hrep (Nat.succ_le_succ n.zero_le) h
          | min + 2 =>
              refine ((ih.exactly (min + 1)).cat (ih.plus greedy)).mono fun s t ⟨u, hu, n, h⟩ => ?_
              exact hrep (by omega) (hu.add h)
      | some max =>
          have hrep : ∀ {n s t}, min ≤ n → n ≤ max ∨ n ≤ min → Rounds r.Matches n s t →
              (Regex.rep r min (some max) greedy).Matches s t :=
            fun hn hm h => ⟨_, hn, fun m hm' => Option.some.inj hm' ▸ hm, h⟩
          rw [build]
          split
          · exact (ih.exactly min).mono fun s t h => hrep (Nat.le_refl _) (.inr (Nat.le_refl _)) h
          · split
            · next hmin =>
                obtain rfl : min = 0 := by simpa using hmin
                exact (ih.upTo greedy max).mono fun s t ⟨n, hn, h⟩ => hrep n.zero_le (.inl hn) h
            · refine ((ih.exactly min).cat (ih.upTo greedy (max - min))).mono
                fun s t ⟨u, hu, n, hn, h⟩ => ?_
              exact hrep (by omega) (.inl (by omega)) (hu.add h)

/-! ### Running -/

/-- The text between the places is one that the nodes stand for, one after the other. -/
def Thread.Matches : Thread → Spot → Spot → Prop
  | [], s, t => t = s
  | node :: rest, s, t => ∃ u, node.Matches s u ∧ Thread.Matches rest u t

/-- A waiting thread can come from one place to the other. -/
def Waiting.Leads : Waiting → Spot → Spot → Prop
  | .done, s, t => t = s
  | .char set rest, s, t => ∃ u, s.Passes set u ∧ Thread.Matches rest u t

namespace Thread.Matches

variable {l : Nat} {greedy : Bool} {a b : Node} {rest : Thread} {s t : Spot}

private theorem cat (h : Thread.Matches (a :: b :: rest) s t) :
    Thread.Matches (.cat l a b :: rest) s t := by
  obtain ⟨u, hu, v, hv, ht⟩ := h
  exact ⟨v, ⟨u, hu, hv⟩, ht⟩

private theorem alt_left (h : Thread.Matches (a :: rest) s t) :
    Thread.Matches (.alt l a b :: rest) s t := by
  obtain ⟨u, hu, ht⟩ := h
  exact ⟨u, Or.inl hu, ht⟩

private theorem alt_right (h : Thread.Matches (b :: rest) s t) :
    Thread.Matches (.alt l a b :: rest) s t := by
  obtain ⟨u, hu, ht⟩ := h
  exact ⟨u, Or.inr hu, ht⟩

private theorem star_again (h : Thread.Matches (a :: .star l greedy a :: rest) s t) :
    Thread.Matches (.star l greedy a :: rest) s t := by
  obtain ⟨u, hu, v, ⟨n, hn⟩, ht⟩ := h
  exact ⟨v, ⟨n + 1, u, hu, hn⟩, ht⟩

private theorem star_done (h : Thread.Matches rest s t) :
    Thread.Matches (.star l greedy a :: rest) s t :=
  ⟨s, ⟨0, rfl⟩, h⟩

end Thread.Matches

/-- Where a thread waits leads only where the thread leads. -/
theorem matches_of_explore {spot t : Spot} {fuel seen : Nat} {thread : Thread} {w : Waiting}
    (hw : w ∈ (explore spot fuel thread seen).1) (h : w.Leads spot t) :
    Thread.Matches thread spot t := by
  fun_induction explore spot fuel thread seen with
  | case1 =>
      obtain rfl := List.mem_singleton.mp hw
      exact h
  | case2 | case3 => cases hw
  | case4 =>
      rename_i ih
      exact ⟨spot, rfl, ih hw⟩
  | case5 =>
      obtain rfl := List.mem_singleton.mp hw
      exact h
  | case6 =>
      rename_i hlook _ _ ih
      exact ⟨spot, ⟨hlook, rfl⟩, ih hw⟩
  | case7 => cases hw
  | case8 =>
      rename_i ih
      exact (ih hw).cat
  | case9 =>
      rename_i hother _ _ hpreferred ih ih'
      rw [hpreferred] at ih
      rw [hother] at ih'
      rcases List.mem_append.mp hw with hw | hw
      · exact (ih hw).alt_left
      · exact (ih' hw).alt_right
  | case10 =>
      rename_i hdone _ _ _ hagain ih ih'
      rw [hagain] at ih
      rw [hdone] at ih'
      rcases List.mem_append.mp hw with hw | hw
      · exact (ih hw).star_again
      · exact (ih' hw).star_done
  | case11 =>
      rename_i hagain _ _ hdone ih ih'
      rw [hdone] at ih
      rw [hagain] at ih'
      rcases List.mem_append.mp hw with hw | hw
      · exact (ih hw).star_done
      · exact (ih' hw).star_again

private theorem mem_of_mem_cutAtDone {waiting : List Waiting} {set : CharSet} {rest : Thread}
    (h : (set, rest) ∈ (cutAtDone waiting).1) : .char set rest ∈ waiting := by
  fun_induction cutAtDone waiting with
  | case1 | case2 => cases h
  | case3 set' rest' others ts done hothers ih =>
      rw [hothers] at ih
      rcases List.mem_cons.mp h with heq | h
      · obtain ⟨rfl, rfl⟩ := Prod.mk.inj heq
        exact List.mem_cons_self
      · exact List.mem_cons_of_mem _ (ih h)

private theorem done_mem_of_cutAtDone {waiting : List Waiting} (h : (cutAtDone waiting).2 = true) :
    .done ∈ waiting := by
  fun_induction cutAtDone waiting with
  | case1 => cases h
  | case2 => exact List.mem_cons_self
  | case3 set rest others ts done hothers ih =>
      rw [hothers] at ih
      exact List.mem_cons_of_mem _ (ih h)

/-- After a character a thread waits only where one goes on that accepts the character. -/
theorem exists_of_mem_advance {fuel seen : Nat} {c : Char} {spot t : Spot}
    {threads : List (CharSet × Thread)} {w : Waiting} (hw : w ∈ advance fuel c spot threads seen)
    (h : w.Leads spot t) :
    ∃ set rest, (set, rest) ∈ threads ∧ set.contains c = true ∧ Thread.Matches rest spot t := by
  fun_induction advance fuel c spot threads seen with
  | case1 => cases hw
  | case2 set rest others seen hset ys seen' hexplore ih =>
      rcases List.mem_append.mp hw with hw | hw
      · have hmem : w ∈ (explore spot fuel rest seen).1 := by rwa [hexplore]
        exact ⟨set, rest, List.mem_cons_self, hset, matches_of_explore hmem h⟩
      · obtain ⟨set', rest', hmem, hfound⟩ := ih hw
        exact ⟨set', rest', List.mem_cons_of_mem _ hmem, hfound⟩
  | case3 set rest others seen _ ih =>
      obtain ⟨set', rest', hmem, hfound⟩ := ih hw
      exact ⟨set', rest', List.mem_cons_of_mem _ hmem, hfound⟩

/-- The text behind a moved place. -/
theorem Spot.after_move (spot : Spot) (n : Nat) : (spot.move n).after = spot.after.drop n := by
  fun_induction Spot.move spot n with
  | case1 => rfl
  | case2 => rfl
  | case3 _ c rest n ih => rw [ih, List.drop_succ_cons]

private theorem Spot.move_succ {spot : Spot} {n : Nat} {c : Char} {rest : List Char}
    (h : (spot.move n).after = c :: rest) : spot.move (n + 1) = ⟨some c, rest⟩ := by
  fun_induction Spot.move spot n with
  | case1 spot =>
      obtain ⟨before, after⟩ := spot
      obtain rfl : after = c :: rest := h
      rfl
  | case2 => cases h
  | case3 _ d rest' n ih => exact ih h

/-- Threads that go on from the place behind `count` characters find a match that ends where `R`
holds, if waiting leads only there. -/
theorem ends_of_runThreads {R : Spot → Prop} {start : Spot} {fuel : Nat} {text : List Char}
    {waiting : List Waiting} {count : Nat} {best : Option Nat}
    (htext : (start.move count).after = text) (hcount : count ≤ start.after.length)
    (hwaiting : ∀ w ∈ waiting, ∀ t, w.Leads (start.move count) t → R t)
    (hbest : ∀ n ∈ best, n ≤ start.after.length ∧ R (start.move n)) :
    ∀ n ∈ runThreads fuel waiting count best text, n ≤ start.after.length ∧ R (start.move n) := by
  have hdone : ∀ {waiting count best}, count ≤ start.after.length →
      (∀ w ∈ waiting, ∀ t, w.Leads (start.move count) t → R t) →
      (∀ n ∈ best, n ≤ start.after.length ∧ R (start.move n)) →
      ∀ n ∈ if (cutAtDone waiting).2 then some count else best,
        n ≤ start.after.length ∧ R (start.move n) := by
    intro waiting count best hcount hwaiting hbest n hn
    split at hn
    · next hcut =>
        obtain rfl := Option.some.inj hn
        exact ⟨hcount, hwaiting _ (done_mem_of_cutAtDone hcut) _ rfl⟩
    · exact hbest n hn
  induction text generalizing waiting count best with
  | nil => exact hdone hcount hwaiting hbest
  | cons c rest ih =>
      have hbest' := hdone hcount hwaiting hbest
      intro n hn
      rw [runThreads] at hn
      dsimp only at hn
      split at hn
      · exact hbest' n hn
      · have hnext : start.move (count + 1) = ⟨some c, rest⟩ := Spot.move_succ htext
        have hlt : count < start.after.length := by
          have hlength := congrArg List.length ((start.after_move count).symm.trans htext)
          rw [List.length_drop, List.length_cons] at hlength
          omega
        refine ih (by rw [hnext]) hlt (fun w hw t ht => ?_) hbest' n hn
        rw [hnext] at ht
        obtain ⟨set, rest', hmem, hset, ht⟩ := exists_of_mem_advance hw ht
        exact hwaiting _ (mem_of_mem_cutAtDone hmem) t ⟨_, ⟨c, rest, htext, hset, rfl⟩, ht⟩

/-- The preferred match at a place is a match of the node, and ends within the text. -/
theorem Node.matches_of_matchEnd {node : Node} {fuel n : Nat} {spot : Spot}
    (h : node.matchEnd fuel spot = some n) :
    n ≤ spot.after.length ∧ node.Matches spot (spot.move n) := by
  refine ends_of_runThreads (R := node.Matches spot) rfl (Nat.zero_le _) (fun w hw t ht => ?_)
    (fun n hn => (Option.not_mem_none n hn).elim) n h
  obtain ⟨u, hu, rfl⟩ := matches_of_explore hw ht
  exact hu

/-- The first match in a text is one of the node, and begins and ends within the text. -/
theorem Node.matches_of_findFrom {node : Node} {fuel start i j : Nat} {before : Option Char}
    {text : List Char} (h : node.findFrom fuel before start text = some (i, j)) :
    ∃ k n, i = start + k ∧ j = i + n ∧ k + n ≤ text.length ∧
      node.Matches (Spot.move ⟨before, text⟩ k) (Spot.move ⟨before, text⟩ (k + n)) := by
  induction text generalizing before start with
  | nil =>
      obtain ⟨n, hn, heq⟩ := Option.map_eq_some_iff.mp h
      obtain ⟨rfl, rfl⟩ := Prod.mk.inj heq
      obtain ⟨hle, hmatch⟩ := matches_of_matchEnd hn
      exact ⟨0, n, rfl, rfl, by rwa [Nat.zero_add], by rwa [Nat.zero_add]⟩
  | cons c rest ih =>
      rw [findFrom] at h
      split at h
      · next n hn =>
          obtain ⟨rfl, rfl⟩ := Prod.mk.inj (Option.some.inj h)
          obtain ⟨hle, hmatch⟩ := matches_of_matchEnd hn
          exact ⟨0, n, rfl, rfl, by rwa [Nat.zero_add], by rwa [Nat.zero_add]⟩
      · obtain ⟨k, n, rfl, rfl, hle, hmatch⟩ := ih h
        refine ⟨k + 1, n, by omega, rfl, by rw [List.length_cons]; omega, ?_⟩
        rwa [Nat.succ_add]

namespace Compiled

variable {p : Compiled} {text : List Char} {i j : Nat}

/-- A match that is found lies within the text. -/
theorem matches_of_find (h : p.find text = some (i, j)) : i ≤ j ∧ j ≤ text.length ∧
    p.node.Matches (Spot.move ⟨none, text⟩ i) (Spot.move ⟨none, text⟩ j) ∧
      (p.anchored = true → i = 0) := by
  rw [find] at h
  split at h
  · obtain ⟨n, hn, heq⟩ := Option.map_eq_some_iff.mp h
    obtain ⟨rfl, rfl⟩ := Prod.mk.inj heq
    obtain ⟨hle, hmatch⟩ := Node.matches_of_matchEnd hn
    exact ⟨Nat.zero_le _, hle, hmatch, fun _ => rfl⟩
  · next hanchored =>
      obtain ⟨k, n, rfl, rfl, hle, hmatch⟩ := Node.matches_of_findFrom h
      rw [Nat.zero_add] at *
      exact ⟨Nat.le_add_right k n, hle, hmatch, fun h => absurd h hanchored⟩

/-- What an expression is compiled to finds matches of the expression only. -/
theorem regex_matches_of_find {r : Regex} (hp : ofRegex? r = some p)
    (h : p.find text = some (i, j)) : i ≤ j ∧ j ≤ text.length ∧
      r.Matches (Spot.move ⟨none, text⟩ i) (Spot.move ⟨none, text⟩ j) ∧
        (r.anchored = true → i = 0) := by
  obtain ⟨hij, hj, hmatch, hanchored⟩ := matches_of_find h
  rw [ofRegex?] at hp
  split at hp
  · obtain rfl := Option.some.inj hp
    exact ⟨hij, hj, r.within_build 0 _ _ hmatch, hanchored⟩
  · cases hp

end Compiled
end Descent.Pattern
