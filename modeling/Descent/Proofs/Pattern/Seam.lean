import Descent.Pattern.Reading
import Descent.Proofs.Pattern.Classes

/-!
# Escapes and classes in front of a parenthesis

A reader that takes an escape or a class from a text takes the same from the text with a
closing parenthesis behind it, as it is through with its part before the parenthesis. A
comment at the end of the text is the one thing that can take the parenthesis too.
-/

namespace Descent.Pattern

open Descent.Text

variable {α β ρ σ : Type} {signs : Prop} {rest rest' : List Char}

/-! ### Readers that agree -/

/-- What is left of a text, and what is left with a closing parenthesis behind the text: the
parenthesis follows, unless a comment at the end has taken it. Only a text with the sign of a
comment has comments. -/
def Wrapped (signs : Prop) (rest rest' : List Char) : Prop :=
  ('#' ∈ rest → signs) ∧ (rest' = rest ++ [')'] ∨ signs ∧ rest = [] ∧ rest' = [])

/-- The same value beside what is related. -/
def Beside (R : ρ → σ → Prop) (x : α × ρ) (y : α × σ) : Prop := x.1 = y.1 ∧ R x.2 y.2

/-- Two results side by side have one value and rests that are related. -/
theorem Beside.exists_eq {R : ρ → σ → Prop} {x : α × ρ} {y : α × σ} (h : Beside R x y) :
    ∃ a r r', x = (a, r) ∧ y = (a, r') ∧ R r r' :=
  ⟨x.1, x.2, y.2, rfl, Prod.ext h.1.symm rfl, h.2⟩

/-- Where the first reading succeeds the second one does, with a related result. -/
def Agrees (R : ρ → σ → Prop) (o : Option ρ) (o' : Option σ) : Prop :=
  ∀ x, o = some x → ∃ x', o' = some x' ∧ R x x'

namespace Agrees

variable {ρ' σ' : Type} {R : ρ → σ → Prop} {S : ρ' → σ' → Prop} {o : Option ρ} {o' : Option σ}

/-- Where nothing is read everything agrees. -/
theorem none : Agrees R none o' := fun _ h => nomatch h

/-- Results that are related agree. -/
theorem some {x : ρ} {x' : σ} (h : R x x') : Agrees R (some x) (some x') := by
  intro y hy
  obtain rfl := Option.some.inj hy
  exact ⟨x', rfl, h⟩

/-- Readers that agree, put behind readers that agree, agree. -/
theorem bind {f : ρ → Option ρ'} {f' : σ → Option σ'} (h : Agrees R o o')
    (hf : ∀ x x', R x x' → Agrees S (f x) (f' x')) : Agrees S (o >>= f) (o' >>= f') := by
  intro y hy
  obtain ⟨x, hx, hy⟩ := Option.bind_eq_some_iff.mp hy
  obtain ⟨x', hx', hR⟩ := h x hx
  obtain ⟨y', hy', hS⟩ := hf x x' hR y hy
  exact ⟨y', Option.bind_eq_some_iff.mpr ⟨x', hx', hy'⟩, hS⟩

private theorem map {f : ρ → ρ'} {f' : σ → σ'} (h : Agrees R o o')
    (hf : ∀ x x', R x x' → S (f x) (f' x')) : Agrees S (o.map f) (o'.map f') := by
  intro y hy
  obtain ⟨x, hx, rfl⟩ := Option.map_eq_some_iff.mp hy
  obtain ⟨x', hx', hR⟩ := h x hx
  exact ⟨f' x', by rw [hx', Option.map_some], hf x x' hR⟩

/-- What does not look at the text is the same for both readings. -/
theorem bind_left {o : Option α} {f : α → Option ρ} {f' : α → Option σ}
    (hf : ∀ a, Agrees R (f a) (f' a)) : Agrees R (o >>= f) (o >>= f') :=
  Agrees.bind (R := Eq) (fun x hx => ⟨x, hx, rfl⟩) (fun a _ ha => ha ▸ hf a)

/-- Values that are mapped to related ones agree. -/
theorem map_left {o : Option α} {f : α → ρ} {f' : α → σ} (hf : ∀ a, R (f a) (f' a)) :
    Agrees R (o.map f) (o.map f') :=
  Agrees.map (R := Eq) (fun x hx => ⟨x, hx, rfl⟩) (fun a _ ha => ha ▸ hf a)

end Agrees

/-! ### Layout -/

private theorem dropWhile_append_parenthesis {p : Char → Bool} (hp : p ')' = false)
    (text : List Char) : (text ++ [')']).dropWhile p = text.dropWhile p ++ [')'] := by
  rw [List.dropWhile_append]
  split
  next hnone => rw [List.isEmpty_iff.mp hnone, List.dropWhile_cons_of_neg (by simp [hp])]; rfl
  next => rfl

namespace Wrapped

/-- To drop characters other than the parenthesis keeps a text wrapped. -/
theorem dropWhile {p : Char → Bool} (hp : p ')' = false) (h : Wrapped signs rest rest') :
    Wrapped signs (rest.dropWhile p) (rest'.dropWhile p) := by
  obtain ⟨hsign, rfl | ⟨hsigns, rfl, rfl⟩⟩ := h
  · exact ⟨fun hmem => hsign ((List.dropWhile_suffix p).subset hmem),
      .inl (dropWhile_append_parenthesis hp rest)⟩
  · exact ⟨hsign, .inr ⟨hsigns, rfl, rfl⟩⟩

/-- A wrapped text begins with the character of the text inside. -/
theorem cons {c : Char} (h : Wrapped signs (c :: rest) rest') :
    ∃ more, rest' = c :: more ∧ Wrapped signs rest more := by
  obtain ⟨hsign, rfl | ⟨-, h, -⟩⟩ := h
  · exact ⟨_, rfl, fun hmem => hsign (List.mem_cons_of_mem c hmem), .inl rfl⟩
  · cases h

/-- At the end of the first text at most the parenthesis is left of the second one. -/
theorem of_nil (h : Wrapped signs [] rest') : rest' = [')'] ∨ rest' = [] :=
  h.2.imp id fun h => h.2.2

/-- The first text is at its end, or both go on with the same character. -/
theorem uncons (h : Wrapped signs rest rest') :
    rest = [] ∨ ∃ c r r', rest = c :: r ∧ rest' = c :: r' ∧ Wrapped signs r r' := by
  cases rest with
  | nil => exact .inl rfl
  | cons c r =>
    obtain ⟨r', hr', hr⟩ := h.cons
    exact .inr ⟨c, r, r', rfl, hr', hr⟩

/-- Where the second text goes on with another character than the parenthesis, so does the first. -/
theorem uncons_right {d : Char} {r' : List Char} (h : Wrapped signs rest (d :: r')) (hd : d ≠ ')') :
    ∃ r, rest = d :: r ∧ Wrapped signs r r' := by
  rcases h.uncons with rfl | ⟨c, r, _, rfl, hcons, hr⟩
  · rcases h.of_nil with h | h
    · exact absurd (List.cons.inj h).1 hd
    · cases h
  · obtain ⟨rfl, rfl⟩ := List.cons.inj hcons
    exact ⟨r, rfl, hr⟩

/-- A beginning without the parenthesis is one of both texts or of none. -/
theorem isPrefixOf_eq {front : List Char} (hfront : ')' ∉ front) (h : Wrapped signs rest rest') :
    front.isPrefixOf rest' = front.isPrefixOf rest := by
  induction front generalizing rest rest' with
  | nil => simp
  | cons d front ih =>
    rw [List.mem_cons, not_or] at hfront
    rcases h.uncons with rfl | ⟨c, r, r', rfl, rfl, hr⟩
    · rcases h.of_nil with rfl | rfl
      · simp [List.isPrefixOf, Ne.symm hfront.1]
      · rfl
    · rw [List.isPrefixOf_cons_cons, List.isPrefixOf_cons_cons, ih hfront.2 hr]

/-- To drop characters of the text inside keeps a text wrapped. -/
theorem drop {n : Nat} (hn : n ≤ rest.length) (h : Wrapped signs rest rest') :
    Wrapped signs (rest.drop n) (rest'.drop n) := by
  obtain ⟨hsign, rfl | ⟨hsigns, rfl, rfl⟩⟩ := h
  · exact ⟨fun hmem => hsign (List.mem_of_mem_drop hmem), .inl (List.drop_append_of_le_length hn)⟩
  · exact ⟨fun hmem => hsign (List.mem_of_mem_drop hmem),
      .inr ⟨hsigns, List.drop_nil, List.drop_nil⟩⟩

/-- A wrapped text is not shorter than the text inside. -/
theorem length_le (h : Wrapped signs rest rest') : rest.length ≤ rest'.length := by
  rcases h.2 with rfl | ⟨-, rfl, rfl⟩
  · rw [List.length_append]; exact Nat.le_add_right _ _
  · exact Nat.le_refl _

/-- To drop layout keeps a text wrapped, where a comment may be open. -/
theorem dropLayout {inComment : Bool} (hcomment : inComment = true → signs)
    (h : Wrapped signs rest rest') :
    Wrapped signs (dropLayout inComment rest) (dropLayout inComment rest') := by
  obtain ⟨hsign, rfl | ⟨hsigns, rfl, rfl⟩⟩ := h
  · induction rest generalizing inComment with
    | nil =>
      cases inComment with
      | false => exact ⟨hsign, .inl rfl⟩
      | true => exact ⟨hsign, .inr ⟨hcomment rfl, rfl, rfl⟩⟩
    | cons c rest ih =>
      have hrest : '#' ∈ rest → signs := fun hmem => hsign (List.mem_cons_of_mem c hmem)
      rw [List.cons_append, Pattern.dropLayout, Pattern.dropLayout]
      split
      next hin => exact ih (fun _ => hcomment hin) hrest
      split
      next => exact ih (fun h => nomatch h) hrest
      split
      next hc =>
        have hmem : '#' ∈ c :: rest := beq_iff_eq.mp hc ▸ List.mem_cons_self
        exact ih (fun _ => hsign hmem) hrest
      next => exact ⟨hsign, .inl rfl⟩
  · exact ⟨hsign, .inr ⟨hsigns, rfl, rfl⟩⟩

/-- To skip layout keeps a text wrapped. -/
theorem skipLayout (verbose : Bool) (h : Wrapped signs rest rest') :
    Wrapped signs (skipLayout verbose rest) (skipLayout verbose rest') := by
  rw [Pattern.skipLayout, Pattern.skipLayout]
  split
  · exact h.dropLayout fun h => nomatch h
  · exact h

end Wrapped

private theorem length_dropLayout_le (inComment : Bool) (text : List Char) :
    (dropLayout inComment text).length ≤ text.length := by
  induction text generalizing inComment with
  | nil => exact Nat.le_refl _
  | cons c rest ih =>
    rw [dropLayout, List.length_cons]
    split
    · exact Nat.le_succ_of_le (ih _)
    split
    · exact Nat.le_succ_of_le (ih _)
    split
    · exact Nat.le_succ_of_le (ih _)
    · exact Nat.le_refl _

private theorem length_skipLayout_le (verbose : Bool) (text : List Char) :
    (skipLayout verbose text).length ≤ text.length := by
  rw [skipLayout]
  split
  · exact length_dropLayout_le false text
  · exact Nat.le_refl _

/-- Takes characters of a kind, with the layout behind each; at most `fuel` of them. -/
def layoutRun (p : Char → Bool) (verbose : Bool) : Nat → List Char → List Char × List Char
  | fuel + 1, c :: rest =>
    if p c then
      let (cs, rest) := layoutRun p verbose fuel (skipLayout verbose rest)
      (c :: cs, rest)
    else ([], c :: rest)
  | _, rest => ([], rest)

private theorem layoutRun_of_head {p : Char → Bool} {verbose : Bool} {fuel : Nat} (text : List Char)
    (h : ∀ c ∈ text.head?, p c = false) : layoutRun p verbose fuel text = ([], text) := by
  cases fuel with
  | zero => rfl
  | succ fuel =>
    cases text with
    | nil => rfl
    | cons c rest => rw [layoutRun, h c rfl]; rfl

/-- A run of characters other than the parenthesis ends at the same place, if there is fuel for all
characters. -/
theorem beside_layoutRun {p : Char → Bool} (verbose : Bool) (hp : p ')' = false) {fuel fuel' : Nat}
    (hfuel : rest.length ≤ fuel) (hfuel' : rest'.length ≤ fuel') (h : Wrapped signs rest rest') :
    Beside (Wrapped signs) (layoutRun p verbose fuel rest) (layoutRun p verbose fuel' rest') := by
  induction fuel generalizing fuel' rest rest' with
  | zero =>
    obtain rfl := List.length_eq_zero_iff.mp (Nat.le_zero.mp hfuel)
    rw [layoutRun_of_head rest' (by rcases h.of_nil with rfl | rfl <;> simp [hp])]
    exact ⟨rfl, h⟩
  | succ fuel ih =>
    cases rest with
    | nil =>
      rw [layoutRun_of_head rest' (by rcases h.of_nil with rfl | rfl <;> simp [hp])]
      exact ⟨rfl, h⟩
    | cons c rest =>
      obtain ⟨more, rfl, hrest⟩ := h.cons
      obtain _ | fuel' := fuel'
      · cases hfuel'
      rw [layoutRun, layoutRun]
      split
      · have hlength :=
          Nat.le_trans (length_skipLayout_le verbose rest) (Nat.le_of_succ_le_succ hfuel)
        have hlength' :=
          Nat.le_trans (length_skipLayout_le verbose more) (Nat.le_of_succ_le_succ hfuel')
        obtain ⟨hfirst, hend⟩ := ih hlength hlength' (hrest.skipLayout verbose)
        exact ⟨congrArg (c :: ·) hfirst, hend⟩
      · exact ⟨rfl, h⟩

/-- Both texts have the same beginning up to a character that stops it, or no such character. -/
theorem Wrapped.stop {p : Char → Bool} (hp : p ')' = true) (h : Wrapped signs rest rest') :
    (rest.dropWhile p = [] ∧ rest'.dropWhile p = []) ∨ ∃ d back back',
      rest.dropWhile p = d :: back ∧ rest'.dropWhile p = d :: back' ∧
        rest'.takeWhile p = rest.takeWhile p ∧ Wrapped signs back back' := by
  induction rest generalizing rest' with
  | nil =>
    left
    rcases h.of_nil with rfl | rfl <;> simp [hp]
  | cons c rest ih =>
    obtain ⟨more, rfl, hrest⟩ := h.cons
    rw [List.dropWhile_cons, List.dropWhile_cons, List.takeWhile_cons, List.takeWhile_cons]
    split
    · rcases ih hrest with hnone | ⟨d, back, back', hback, hback', htake, hw⟩
      · exact .inl hnone
      · exact .inr ⟨d, back, back', hback, hback', congrArg (c :: ·) htake, hw⟩
    · exact .inr ⟨c, rest, more, rfl, rfl, rfl, hrest⟩

/-! ### Escapes -/

private theorem agrees_hexDigits? (verbose : Bool) (count : Nat) (h : Wrapped signs rest rest') :
    Agrees (Beside (Wrapped signs)) (hexDigits? verbose count rest)
      (hexDigits? verbose count rest') := by
  induction count generalizing rest rest' with
  | zero => exact .some ⟨rfl, h⟩
  | succ count ih =>
    rcases h.uncons with rfl | ⟨c, r, r', rfl, rfl, hr⟩
    · exact .none
    rw [hexDigits?, hexDigits?]
    split
    · exact (ih (hr.skipLayout verbose)).map fun x x' hx => ⟨congrArg (c :: ·) hx.1, hx.2⟩
    · exact .none

private theorem agrees_bracedText? (verbose : Bool) {fuel fuel' : Nat} (hfuel : fuel ≤ fuel')
    (h : Wrapped signs rest rest') :
    Agrees (Beside (Wrapped signs)) (bracedText? verbose fuel rest)
      (bracedText? verbose fuel' rest') := by
  induction fuel generalizing fuel' rest rest' with
  | zero => exact .none
  | succ fuel ih =>
    obtain _ | fuel' := fuel'
    · exact absurd hfuel (Nat.not_succ_le_zero fuel)
    rw [bracedText?, bracedText?]
    rcases (h.skipLayout verbose).uncons with hnil | ⟨c, r, r', hcons, hcons', hr⟩
    · rw [hnil]
      exact .none
    rw [hcons, hcons']
    dsimp only
    split
    · exact .some ⟨rfl, hr⟩
    · refine (ih (Nat.le_of_succ_le_succ hfuel) hr).map fun x x' hx => ?_
      exact ⟨congrArg (c :: ·) hx.1, hx.2⟩

private theorem agrees_hexChar? (verbose : Bool) (count : Nat) (h : Wrapped signs rest rest') :
    Agrees (Beside (Wrapped signs)) (hexChar? verbose count rest)
      (hexChar? verbose count rest') := by
  have hskip := h.skipLayout verbose
  rw [hexChar?, hexChar?]
  rcases hskip.uncons with hnil | ⟨c, r, r', hcons, hcons', hr⟩
  · rw [hnil]
    exact .none
  rw [hcons, hcons'] at hskip ⊢
  dsimp only
  split
  · refine (agrees_bracedText? verbose (Nat.succ_le_succ hr.length_le) hr).bind ?_
    rintro ⟨digits, rest⟩ ⟨_, rest'⟩ ⟨rfl, h⟩
    dsimp only
    split
    · exact .none
    · exact .bind_left fun c => .some ⟨rfl, h.skipLayout verbose⟩
  · refine (agrees_hexDigits? verbose count hskip).bind ?_
    rintro ⟨digits, rest⟩ ⟨_, rest'⟩ ⟨rfl, h⟩
    exact .bind_left fun c => .some ⟨rfl, h⟩

private theorem agrees_propertyName? (verbose negated : Bool) (h : Wrapped signs rest rest') :
    Agrees (Beside (Wrapped signs)) (propertyName? verbose negated rest)
      (propertyName? verbose negated rest') := by
  rw [propertyName?, propertyName?]
  rcases (h.skipLayout verbose).uncons with hnil | ⟨c, r, r', hcons, hcons', hr⟩
  · rw [hnil]
    exact .none
  rw [hcons, hcons']
  dsimp only
  split
  · refine (agrees_bracedText? verbose (Nat.succ_le_succ hr.length_le) hr).bind ?_
    rintro ⟨name, rest⟩ ⟨_, rest'⟩ ⟨rfl, h⟩
    exact .some ⟨rfl, h⟩
  split
  · exact .none
  · exact .some ⟨rfl, hr.skipLayout verbose⟩

private theorem boundaryName_eq_layoutRun (verbose : Bool) (fuel : Nat) (text : List Char) :
    boundaryName verbose fuel text = layoutRun isBoundaryLetter verbose fuel text := by
  induction fuel generalizing text with
  | zero => rfl
  | succ fuel ih =>
    cases text with
    | nil => rfl
    | cons c rest => rw [boundaryName, layoutRun, ih]

private theorem agrees_wordBoundary? (verbose : Bool) (h : Wrapped signs rest rest') :
    Agrees (Beside (Wrapped signs)) (wordBoundary? verbose rest) (wordBoundary? verbose rest') := by
  rcases h.uncons with rfl | ⟨c, r, r', rfl, rfl, hr⟩
  · have hplain : wordBoundary? verbose rest' = some (.look Look.wordBoundary, rest') := by
      rcases h.of_nil with rfl | rfl <;> rfl
    rw [hplain]
    exact .some ⟨rfl, h⟩
  rw [wordBoundary?, wordBoundary?]
  dsimp only
  split
  · exact .some ⟨rfl, h⟩
  have hskip := hr.skipLayout verbose
  rcases hskip.uncons with hnil | ⟨d, body, body', hcons, hcons', -⟩
  · rw [hnil]
    exact .none
  rw [hcons, hcons'] at hskip ⊢
  dsimp only
  split
  · exact .some ⟨rfl, h⟩
  have hname := beside_layoutRun (p := isBoundaryLetter) verbose (by decide)
    (Nat.le_refl _) (Nat.le_refl _) hskip
  obtain ⟨name, after, after', hrun, hrun', hafter⟩ := hname.exists_eq
  rw [boundaryName_eq_layoutRun, boundaryName_eq_layoutRun]
  rw [List.length_cons] at hrun hrun'
  rw [hrun, hrun']
  dsimp only
  rcases hafter.uncons with rfl | ⟨e, back, back', rfl, rfl, hback⟩
  · exact .none
  dsimp only
  split
  · exact .none
  split
  · exact .some ⟨rfl, hback⟩
  · exact .some ⟨rfl, hback⟩
  · exact .some ⟨rfl, hback⟩
  · exact .some ⟨rfl, hback⟩
  · exact .none

/-- An escape is read alike in a text and in the wrapped text. -/
theorem agrees_escape? (verbose : Bool) (h : Wrapped signs rest rest') :
    Agrees (Beside (Wrapped signs)) (escape? verbose rest) (escape? verbose rest') := by
  rcases h.uncons with rfl | ⟨c, r, r', rfl, rfl, hr⟩
  · exact .none
  unfold escape?
  dsimp only
  split
  -- the letters with something behind them, and those that stand for a fixed escape
  all_goals first
    | exact agrees_hexChar? verbose _ hr
    | exact agrees_propertyName? verbose _ hr
    | exact agrees_wordBoundary? verbose hr
    | exact .some ⟨rfl, hr⟩
    | skip
  split
  · exact .some ⟨rfl, hr⟩
  · exact .none

/-! ### Bracketed classes -/

private theorem leadingHyphens_eq_layoutRun (verbose : Bool) (fuel : Nat) (u : ItemUnion)
    (text : List Char) :
    leadingHyphens verbose fuel u text =
      ((layoutRun (· == '-') verbose fuel text).1.foldl (fun u _ => u.add (.singleton '-') 0) u,
        (layoutRun (· == '-') verbose fuel text).2) := by
  induction fuel generalizing u text with
  | zero => rfl
  | succ fuel ih =>
    cases text with
    | nil => rfl
    | cons c rest =>
      rw [layoutRun]
      by_cases hc : c = '-'
      · subst hc
        rw [leadingHyphens, ih]
        rfl
      · rw [if_neg (by simpa using hc), leadingHyphens]
        · rfl
        · simp [hc]

/-- Takes the sign of a negation, with the layout behind it. -/
def takeNegation (verbose : Bool) : List Char → Bool × List Char
  | '^' :: rest => (true, skipLayout verbose rest)
  | rest => (false, rest)

/-- Takes a closing bracket that is the first item of a class. -/
def takeClosing (verbose : Bool) (u : ItemUnion) (rest : List Char) : ItemUnion × List Char :=
  match u.count, rest with
  | 0, ']' :: rest => (u.add (.singleton ']') 0, skipLayout verbose rest)
  | _, rest => (u, rest)

private theorem bracketOpening?_eq (verbose : Bool) (text : List Char) :
    bracketOpening? verbose text =
      let (negated, start) := takeNegation verbose (skipLayout verbose text)
      let (u, start) := leadingHyphens verbose start.length {} start
      let (u, start) := takeClosing verbose u start
      if start.isEmpty then none else some (negated, u, start) := rfl

private theorem takeNegation_of_ne {verbose : Bool} {c : Char} (hc : c ≠ '^') (text : List Char) :
    takeNegation verbose (c :: text) = (false, c :: text) := by
  unfold takeNegation
  split
  next heq => exact absurd (List.cons.inj heq).1 hc
  next => rfl

private theorem beside_takeNegation (verbose : Bool) (h : Wrapped signs rest rest') :
    Beside (Wrapped signs) (takeNegation verbose rest) (takeNegation verbose rest') := by
  rcases h.uncons with rfl | ⟨c, r, r', rfl, rfl, hr⟩
  · have hplain : takeNegation verbose rest' = (false, rest') := by
      rcases h.of_nil with rfl | rfl <;> rfl
    rw [hplain]
    exact ⟨rfl, h⟩
  by_cases hc : c = '^'
  · subst hc
    exact ⟨rfl, hr.skipLayout verbose⟩
  · rw [takeNegation_of_ne hc, takeNegation_of_ne hc]
    exact ⟨rfl, h⟩

private theorem beside_takeClosing (verbose : Bool) (u : ItemUnion) (h : Wrapped signs rest rest') :
    Beside (Wrapped signs) (takeClosing verbose u rest) (takeClosing verbose u rest') := by
  have hother : ∀ {text : List Char}, (∀ r, text = ']' :: r → u.count ≠ 0) →
      takeClosing verbose u text = (u, text) := by
    intro text htext
    unfold takeClosing
    split
    next r hzero => exact absurd hzero (htext r rfl)
    next => rfl
  by_cases hclosing : u.count = 0 ∧ ∃ r, rest = ']' :: r
  · obtain ⟨hzero, r, rfl⟩ := hclosing
    obtain ⟨r', rfl, hr⟩ := h.cons
    unfold takeClosing
    rw [hzero]
    exact ⟨rfl, hr.skipLayout verbose⟩
  · rw [hother fun r hr hzero => hclosing ⟨hzero, r, hr⟩, hother fun r' hr' hzero => ?_]
    · exact ⟨rfl, h⟩
    · subst hr'
      obtain ⟨r, hr, -⟩ := h.uncons_right (by decide)
      exact hclosing ⟨hzero, r, hr⟩

private theorem agrees_bracketOpening? (verbose : Bool) (h : Wrapped signs rest rest') :
    Agrees (Beside (Beside (Wrapped signs))) (bracketOpening? verbose rest)
      (bracketOpening? verbose rest') := by
  obtain ⟨negated, start, start', hstart, hstart', h⟩ :=
    (beside_takeNegation verbose (h.skipLayout verbose)).exists_eq
  obtain ⟨hyphens, r, r', hrun, hrun', h⟩ := (beside_layoutRun (p := (· == '-')) verbose
    (by decide) (Nat.le_refl _) (Nat.le_refl _) h).exists_eq
  rw [bracketOpening?_eq, bracketOpening?_eq, hstart, hstart']
  dsimp only
  rw [leadingHyphens_eq_layoutRun, leadingHyphens_eq_layoutRun, hrun, hrun']
  dsimp only
  obtain ⟨u, back, back', hclosing, hclosing', h⟩ := (beside_takeClosing verbose
    (hyphens.foldl (fun u _ => u.add (.singleton '-') 0) {}) h).exists_eq
  rw [hclosing, hclosing']
  dsimp only
  rcases h.uncons with rfl | ⟨c, more, more', rfl, rfl, -⟩
  · exact .none
  · exact .some ⟨rfl, rfl, h⟩

private theorem asciiItem?_of_ne {f : Flags} (h : ∀ r, rest ≠ ':' :: r) :
    asciiItem? f rest = none := by
  unfold asciiItem?
  split
  next r => exact absurd rfl (h r)
  next => rfl

private theorem asciiItem?_colon (f : Flags) (text : List Char) : asciiItem? f (':' :: text) =
    match (takeNegation false text).2.dropWhile (· != ':') with
    | ':' :: ']' :: back =>
      (asciiClass? (String.ofList ((takeNegation false text).2.takeWhile (· != ':')))).map fun s =>
        (f.finish? (takeNegation false text).1 s, back)
    | _ => none := by
  rw [← drop_length_takeWhile]
  rfl

/-- A class named between colons ends at the same place, and there is none if there was none. -/
theorem asciiItem?_wrapped (f : Flags) (h : Wrapped signs rest rest') :
    (asciiItem? f rest = none ∧ asciiItem? f rest' = none) ∨ ∃ s back back',
      asciiItem? f rest = some (s, back) ∧ asciiItem? f rest' = some (s, back') ∧
        Wrapped signs back back' := by
  by_cases hcolon : ∃ r, rest = ':' :: r
  · obtain ⟨r, rfl⟩ := hcolon
    obtain ⟨r', rfl, hr⟩ := h.cons
    obtain ⟨negated, name, name', hneg, hneg', hname⟩ := (beside_takeNegation false hr).exists_eq
    rw [asciiItem?_colon, asciiItem?_colon, hneg, hneg']
    dsimp only
    rcases hname.stop (p := (· != ':')) (by decide) with
      ⟨hnone, hnone'⟩ | ⟨d, back, back', hback, hback', htake, hw⟩
    · rw [hnone, hnone']
      exact .inl ⟨rfl, rfl⟩
    rw [hback, hback', htake]
    by_cases hend : d = ':' ∧ ∃ more, back = ']' :: more
    · obtain ⟨rfl, more, rfl⟩ := hend
      obtain ⟨more', rfl, hmore⟩ := hw.cons
      cases asciiClass? (String.ofList (name.takeWhile (· != ':'))) with
      | none => exact .inl ⟨rfl, rfl⟩
      | some s => exact .inr ⟨_, more, more', rfl, rfl, hmore⟩
    · left
      constructor
      · split
        next heq =>
          obtain ⟨rfl, rfl⟩ := List.cons.inj heq
          exact absurd ⟨rfl, _, rfl⟩ hend
        next => rfl
      · split
        next heq =>
          obtain ⟨rfl, rfl⟩ := List.cons.inj heq
          obtain ⟨more, rfl, -⟩ := hw.uncons_right (by decide)
          exact absurd ⟨rfl, _, rfl⟩ hend
        next => rfl
  · left
    refine ⟨asciiItem?_of_ne fun r hr => hcolon ⟨r, hr⟩, asciiItem?_of_ne fun r' hr' => ?_⟩
    subst hr'
    obtain ⟨r, rfl, -⟩ := h.uncons_right (by decide)
    exact hcolon ⟨r, rfl⟩

private theorem agrees_setItem? (f : Flags) (h : Wrapped signs rest rest') :
    Agrees (Beside (Wrapped signs)) (setItem? f rest) (setItem? f rest') := by
  rcases h.uncons with rfl | ⟨c, r, r', rfl, rfl, hr⟩
  · exact .none
  unfold setItem?
  split
  next heq => cases heq
  next rest heq =>
    obtain ⟨rfl, rfl⟩ := List.cons.inj heq
    refine (agrees_escape? f.verbose hr).bind ?_
    rintro ⟨e, rest⟩ ⟨_, rest'⟩ ⟨rfl, h⟩
    dsimp only
    split
    · exact .some ⟨rfl, h⟩
    · exact .map_left fun s => ⟨rfl, h⟩
    · exact .map_left fun s => ⟨rfl, h⟩
    · exact .none
  next d rest hne heq =>
    obtain ⟨rfl, rfl⟩ := List.cons.inj heq
    split
    next heq' => cases heq'
    next heq' => exact absurd (List.cons.inj heq').1 (fun h => hne h)
    next heq' =>
      obtain ⟨rfl, rfl⟩ := List.cons.inj heq'
      exact .some ⟨rfl, hr⟩

/-- What is seen through the layout is the same, unless it is layout or the parenthesis. -/
theorem peekPastLayout_eq_iff (verbose : Bool) {c : Char} (hc : c ≠ ')') (hsign : c ≠ '#')
    (hblank : isBlank c = false) (h : Wrapped signs rest rest') :
    peekPastLayout verbose rest' = some c ↔ peekPastLayout verbose rest = some c := by
  rcases h.2 with rfl | ⟨-, rfl, rfl⟩
  · cases verbose with
    | false => cases rest <;> simp [peekPastLayout, Ne.symm hc]
    | true =>
      -- the character is no layout, so it is not in front of layout that is dropped
      have hfront : (rest.dropWhile isBlank).head? ≠ some c → rest.head? ≠ some c := by
        intro hne heq
        obtain ⟨r, rfl⟩ := List.head?_eq_some_iff.mp heq
        rw [List.dropWhile_cons_of_neg (by simp [hblank])] at hne
        exact hne rfl
      rw [peekPastLayout, peekPastLayout, if_pos rfl, if_pos rfl,
        dropWhile_append_parenthesis (by decide)]
      cases hdrop : rest.dropWhile isBlank with
      | nil =>
        have hnone := hfront (by simp [hdrop])
        simp [Ne.symm hc, hnone]
      | cons d r =>
        by_cases hd : d = '#'
        · subst hd
          have hnone := hfront (by simp [hdrop, Ne.symm hsign])
          change (((r ++ [')']).dropWhile isBlank).head? <|> (rest ++ [')']).head?) = some c ↔
            ((r.dropWhile isBlank).head? <|> rest.head?) = some c
          rw [dropWhile_append_parenthesis (by decide)]
          cases r.dropWhile isBlank with
          | nil => simp [Ne.symm hc, hnone]
          | cons e back => simp
        · simp [hd]
  · rfl

private theorem peekPastLayout_beq (verbose : Bool) {c : Char} (hc : c ≠ ')') (hsign : c ≠ '#')
    (hblank : isBlank c = false) (h : Wrapped signs rest rest') :
    (peekPastLayout verbose rest' == some c) = (peekPastLayout verbose rest == some c) := by
  rw [Bool.eq_iff_iff, beq_iff_eq, beq_iff_eq]
  exact peekPastLayout_eq_iff verbose hc hsign hblank h

private theorem agrees_setRange? (f : Flags) (h : Wrapped signs rest rest') :
    Agrees (Beside (Wrapped signs)) (setRange? f rest) (setRange? f rest') := by
  rw [setRange?, setRange?]
  refine (agrees_setItem? f h).bind ?_
  rintro ⟨item, rest⟩ ⟨_, rest'⟩ ⟨rfl, h⟩
  dsimp only
  have hskip := h.skipLayout f.verbose
  rcases hskip.uncons with hnil | ⟨c, after, after', hcons, hcons', hafter⟩
  · rw [hnil]
    exact .none
  rw [hcons, hcons'] at hskip ⊢
  dsimp only
  rw [peekPastLayout_beq f.verbose (by decide) (by decide) (by decide) hafter,
    peekPastLayout_beq f.verbose (by decide) (by decide) (by decide) hafter]
  split
  · split
    · exact .map_left fun a => ⟨rfl, hskip⟩
    · exact .some ⟨rfl, hskip⟩
  · refine (agrees_setItem? f (hafter.skipLayout f.verbose)).bind ?_
    rintro ⟨last, rest⟩ ⟨_, rest'⟩ ⟨rfl, h⟩
    dsimp only
    split
    · split
      · exact .bind_left fun a => .bind_left fun b => .some ⟨rfl, h⟩
      · exact .none
    · exact .none

/-- A class in brackets is read alike in a text and in the wrapped text. -/
theorem agrees_bracketLoop (f : Flags) {fuel fuel' : Nat} (hfuel : fuel ≤ fuel')
    (stack : List OpenBracket) (u : ItemUnion) (h : Wrapped signs rest rest') :
    Agrees (Beside (Beside (Wrapped signs))) (bracketLoop f fuel stack u rest)
      (bracketLoop f fuel' stack u rest') := by
  induction fuel generalizing fuel' stack u rest rest' with
  | zero => exact .none
  | succ fuel ih =>
    obtain _ | fuel' := fuel'
    · exact absurd hfuel (Nat.not_succ_le_zero fuel)
    replace ih := fun stack u {r r'} (hr : Wrapped signs r r') =>
      ih (Nat.le_of_succ_le_succ hfuel) stack u hr
    have hskip := h.skipLayout f.verbose
    unfold bracketLoop
    dsimp only
    generalize skipLayout f.verbose rest = text at hskip ⊢
    generalize skipLayout f.verbose rest' = text' at hskip ⊢
    split
    next r =>
      obtain ⟨r', rfl, hr⟩ := hskip.cons
      simp only
      have hascii : (if stack.isEmpty then none else asciiItem? f r) = none ∧
            (if stack.isEmpty then none else asciiItem? f r') = none ∨
          ∃ s back back', (if stack.isEmpty then none else asciiItem? f r) = some (s, back) ∧
            (if stack.isEmpty then none else asciiItem? f r') = some (s, back') ∧
              Wrapped signs back back' := by
        split
        · exact .inl ⟨rfl, rfl⟩
        · exact asciiItem?_wrapped f hr
      rcases hascii with ⟨hnone, hnone'⟩ | ⟨s, back, back', hsome, hsome', hback⟩
      · rw [hnone, hnone']
        dsimp only
        refine (agrees_bracketOpening? f.verbose hr).bind ?_
        rintro ⟨negated, inner, r⟩ ⟨_, _, r'⟩ ⟨rfl, rfl, hr⟩
        exact ih _ _ hr
      · rw [hsome, hsome']
        cases s with
        | none => exact .none
        | some s => exact ih _ _ hback
    next r b below =>
      obtain ⟨r', rfl, hr⟩ := hskip.cons
      refine .bind_left fun set => ?_
      split
      · exact .some ⟨rfl, rfl, hr⟩
      · exact ih _ _ hr
    next r b below =>
      obtain ⟨_, rfl, hback⟩ := hskip.cons
      obtain ⟨r', rfl, hr⟩ := hback.cons
      exact ih _ _ hr
    next r b below =>
      obtain ⟨_, rfl, hback⟩ := hskip.cons
      obtain ⟨r', rfl, hr⟩ := hback.cons
      exact ih _ _ hr
    next r b below =>
      obtain ⟨_, rfl, hback⟩ := hskip.cons
      obtain ⟨r', rfl, hr⟩ := hback.cons
      exact ih _ _ hr
    next hopen hclose hand hminus htilde =>
      have hrange : Agrees (Beside (Beside (Wrapped signs)))
          (setRange? f text >>= fun x => bracketLoop f fuel stack (u.add x.1 0) x.2)
          (setRange? f text' >>= fun x => bracketLoop f fuel' stack (u.add x.1 0) x.2) := by
        refine (agrees_setRange? f hskip).bind ?_
        rintro ⟨set, r⟩ ⟨_, r'⟩ ⟨rfl, hr⟩
        exact ih _ _ hr
      split
      next r' =>
        obtain ⟨r, rfl, -⟩ := hskip.uncons_right (by decide)
        exact (hopen r rfl).elim
      next r' b below =>
        obtain ⟨r, rfl, -⟩ := hskip.uncons_right (by decide)
        exact (hclose r b below rfl rfl).elim
      next r' b below =>
        obtain ⟨back, rfl, hback⟩ := hskip.uncons_right (by decide)
        obtain ⟨r, rfl, -⟩ := hback.uncons_right (by decide)
        exact (hand r b below rfl rfl).elim
      next r' b below =>
        obtain ⟨back, rfl, hback⟩ := hskip.uncons_right (by decide)
        obtain ⟨r, rfl, -⟩ := hback.uncons_right (by decide)
        exact (hminus r b below rfl rfl).elim
      next r' b below =>
        obtain ⟨back, rfl, hback⟩ := hskip.uncons_right (by decide)
        obtain ⟨r, rfl, -⟩ := hback.uncons_right (by decide)
        exact (htilde r b below rfl rfl).elim
      next => exact hrange

end Descent.Pattern
