import Descent.Proofs.Pattern.Matching
import Descent.Proofs.Pattern.Seam

/-!
# Patterns behind the start of the text

A pattern that is a regular expression by itself is read in the same way when it is put
in the group of an anchored pattern. If the anchored pattern is a regular expression at
all, it stands for the expression of the pattern behind the start of the text.
-/

namespace Descent.Pattern

open Descent.Text

variable {signs : Prop} {rest rest' : List Char} {g : OpenGroup}

/-! ### Groups -/

private theorem agrees_flagList? (seen : List Char) (change : Flags → Flags)
    (h : Wrapped signs rest rest') :
    Agrees (Beside (Beside (Beside (Wrapped signs)))) (flagList? seen change rest)
      (flagList? seen change rest') := by
  induction rest generalizing seen change rest' with
  | nil => exact .none
  | cons c rest ih =>
    obtain ⟨more, rfl, hrest⟩ := h.cons
    rw [flagList?, flagList?]
    split
    · split
      · exact .none
      · exact .some ⟨rfl, rfl, rfl, hrest⟩
    split
    · exact .none
    split
    · exact ih _ _ hrest
    split
    · exact .none
    · exact ih _ _ hrest

private theorem agrees_groupName? (h : Wrapped signs rest rest') :
    Agrees (Beside (Wrapped signs)) (groupName? rest) (groupName? rest') := by
  unfold groupName?
  dsimp only
  rw [drop_length_takeWhile, drop_length_takeWhile]
  rcases h.stop (p := (· != '>')) (by decide) with
    ⟨hnone, -⟩ | ⟨d, back, back', hback, hback', htake, hw⟩
  · rw [hnone]
    cases rest.takeWhile (· != '>') <;> exact .none
  · rw [hback, hback', htake]
    cases rest.takeWhile (· != '>') with
    | nil => exact .none
    | cons first others =>
      dsimp only
      split
      · exact .some ⟨rfl, hw⟩
      · exact .none

/-- The same reading inside one more group, which is the outermost one. -/
def Progress.within (p : Progress) (g : OpenGroup) : Progress := { p with outer := p.outer ++ [g] }

/-- The second reading is where the first one is, inside the group. -/
def InStep (signs : Prop) (g : OpenGroup) (x x' : Progress × List Char) : Prop :=
  x'.1 = x.1.within g ∧ Wrapped signs x.2 x'.2

/-- Reads the name of a group and opens the group. -/
def openNamed? (p : Progress) (rest : List Char) : Option (Progress × List Char) := do
  let (name, rest) ← groupName? rest
  if p.names.contains name then none
  else some ({ p with names := name :: p.names }.openGroup p.flags true, rest)

/-- Reads flags, and opens a group with them or sets them. -/
def openFlagged? (p : Progress) (rest : List Char) : Option (Progress × List Char) := do
  let (change, any, stop, rest) ← flagList? [] id rest
  if stop == ':' then some (p.openGroup (change p.flags) false, rest)
  else if any then
    some ({ p with flags := change p.flags, pieces := .directive :: p.pieces }, rest)
  else none

private theorem groupOpening?_eq (p : Progress) (text : List Char) : groupOpening? p text =
    let rest := skipLayout p.flags.verbose text
    if ['?', 'P', '<'].isPrefixOf rest then openNamed? p (rest.drop 3)
    else if ['?', '<', '='].isPrefixOf rest || ['?', '<', '!'].isPrefixOf rest then none
    else if ['?', '<'].isPrefixOf rest then openNamed? p (rest.drop 2)
    else if ['?'].isPrefixOf rest then openFlagged? p (rest.drop 1)
    else some (p.openGroup p.flags true, rest) := by
  unfold groupOpening?
  dsimp only
  generalize skipLayout p.flags.verbose text = rest
  split
  next => rfl
  next => rfl
  next => rfl
  next r hequals hbang =>
    change openNamed? p r = _
    cases r with
    | nil => rfl
    | cons c r =>
      have h₁ : '=' ≠ c := fun h => hequals r (h ▸ rfl)
      have h₂ : '!' ≠ c := fun h => hbang r (h ▸ rfl)
      simp [List.isPrefixOf, h₁, h₂]
  next r hP _ _ hname =>
    change openFlagged? p r = _
    rcases r with _ | ⟨c, r⟩
    · rfl
    have h₁ : '<' ≠ c := fun h => hname r (h ▸ rfl)
    rcases r with _ | ⟨d, r⟩
    · simp [List.isPrefixOf, h₁]
    · have h₂ : ¬('P' = c ∧ '<' = d) := by
        rintro ⟨rfl, rfl⟩
        exact hP r rfl
      simp [List.isPrefixOf, h₁, h₂]
  next hflags =>
    cases rest with
    | nil => rfl
    | cons c r =>
      have h₁ : '?' ≠ c := fun h => hflags r (h ▸ rfl)
      simp [List.isPrefixOf, h₁]

private theorem inStep_openNamed? (p : Progress) (h : Wrapped signs rest rest') :
    Agrees (InStep signs g) (openNamed? p rest) (openNamed? (p.within g) rest') := by
  refine (agrees_groupName? h).bind ?_
  rintro ⟨name, rest⟩ ⟨_, rest'⟩ ⟨rfl, h⟩
  dsimp only
  by_cases hseen : p.names.contains name = true
  · rw [if_pos hseen]
    exact .none
  · rw [if_neg hseen, if_neg (show ¬(p.within g).names.contains name = true from hseen)]
    exact .some ⟨rfl, h⟩

private theorem inStep_openFlagged? (p : Progress) (h : Wrapped signs rest rest') :
    Agrees (InStep signs g) (openFlagged? p rest) (openFlagged? (p.within g) rest') := by
  refine (agrees_flagList? [] id h).bind ?_
  rintro ⟨change, any, stop, rest⟩ ⟨_, _, _, rest'⟩ ⟨rfl, rfl, rfl, h⟩
  dsimp only
  split
  · exact .some ⟨rfl, h⟩
  split
  · exact .some ⟨rfl, h⟩
  · exact .none

/-- The opening of a group is read in step inside of a further group. -/
theorem inStep_groupOpening? (p : Progress) (h : Wrapped signs rest rest') :
    Agrees (InStep signs g) (groupOpening? p rest) (groupOpening? (p.within g) rest') := by
  have hskip := h.skipLayout p.flags.verbose
  have hdrop : ∀ {front : List Char}, front.isPrefixOf (skipLayout p.flags.verbose rest) = true →
      Wrapped signs ((skipLayout p.flags.verbose rest).drop front.length)
        ((skipLayout p.flags.verbose rest').drop front.length) := fun hfront =>
    hskip.drop (List.isPrefixOf_iff_prefix.mp hfront).length_le
  have hsame : ∀ {front : List Char}, ')' ∉ front →
      front.isPrefixOf (skipLayout (p.within g).flags.verbose rest') =
        front.isPrefixOf (skipLayout p.flags.verbose rest) := fun hfront =>
    hskip.isPrefixOf_eq hfront
  rw [groupOpening?_eq, groupOpening?_eq]
  dsimp only
  rw [hsame (by decide), hsame (by decide), hsame (by decide), hsame (by decide),
    hsame (by decide)]
  split
  next hfront => exact inStep_openNamed? p (hdrop hfront)
  split
  next => exact .none
  split
  next hfront => exact inStep_openNamed? p (hdrop hfront)
  split
  next hfront => exact inStep_openFlagged? p (hdrop hfront)
  next => exact .some ⟨rfl, hskip⟩

/-! ### Repetitions -/

private theorem digitRun_eq_layoutRun (verbose : Bool) (fuel : Nat) (text : List Char) :
    digitRun verbose fuel text = layoutRun isAsciiDigit verbose fuel text := by
  induction fuel generalizing text with
  | zero => rfl
  | succ fuel ih =>
    cases text with
    | nil => rfl
    | cons c rest => rw [digitRun, layoutRun, ih]

private theorem blankRun_eq_layoutRun (verbose : Bool) (fuel : Nat) (text : List Char) :
    blankRun verbose fuel text = (layoutRun isBlank verbose fuel text).2 := by
  induction fuel generalizing text with
  | zero => rfl
  | succ fuel ih =>
    cases text with
    | nil => rfl
    | cons c rest =>
      rw [blankRun, layoutRun, ih]
      split <;> rfl

private theorem agrees_bound? (verbose : Bool) (h : Wrapped signs rest rest') :
    Agrees (Beside (Wrapped signs)) (bound? verbose rest) (bound? verbose rest') := by
  have hblank : Wrapped signs (rest.dropWhile isBlank) (rest'.dropWhile isBlank) :=
    h.dropWhile (by decide)
  obtain ⟨digits, r, r', hrun, hrun', hr⟩ := (beside_layoutRun (p := isAsciiDigit) verbose
    (by decide) (List.dropWhile_suffix isBlank).length_le
    (List.dropWhile_suffix isBlank).length_le hblank).exists_eq
  have hback := (beside_layoutRun (p := isBlank) verbose (by decide) (Nat.le_refl _)
    (Nat.le_refl _) hr).2
  rw [bound?, bound?, digitRun_eq_layoutRun, digitRun_eq_layoutRun, hrun, hrun']
  dsimp only
  rw [blankRun_eq_layoutRun, blankRun_eq_layoutRun]
  split
  · exact .some ⟨rfl, hback⟩
  split
  · exact .some ⟨rfl, hback⟩
  · exact .none

private theorem agrees_bounds? (verbose : Bool) (h : Wrapped signs rest rest') :
    Agrees (Beside (Beside (Wrapped signs))) (bounds? verbose rest) (bounds? verbose rest') := by
  rw [bounds?, bounds?]
  refine (agrees_bound? verbose (h.skipLayout verbose)).bind ?_
  rintro ⟨low, rest⟩ ⟨_, rest'⟩ ⟨rfl, h⟩
  refine .bind_left fun low => ?_
  dsimp only
  split
  next r =>
    obtain ⟨r', rfl, hr⟩ := h.cons
    have hskip := hr.skipLayout verbose
    simp only
    generalize skipLayout verbose r = text at hskip ⊢
    generalize skipLayout verbose r' = text' at hskip ⊢
    split
    next back =>
      obtain ⟨back', rfl, hback⟩ := hskip.cons
      exact .some ⟨rfl, rfl, hback⟩
    next => exact .none
    next hclose hnil =>
      split
      next =>
        obtain ⟨back, rfl, -⟩ := hskip.uncons_right (by decide)
        exact (hclose back rfl).elim
      next =>
        rcases hskip.uncons with rfl | ⟨_, _, _, -, hcons, -⟩
        · exact (hnil rfl).elim
        · cases hcons
      next =>
        refine (agrees_bound? verbose hskip).bind ?_
        rintro ⟨high, rest⟩ ⟨_, rest'⟩ ⟨rfl, h⟩
        refine .bind_left fun high => ?_
        dsimp only
        split
        next back =>
          obtain ⟨back', rfl, hback⟩ := h.cons
          split
          · exact .some ⟨rfl, rfl, hback⟩
          · exact .none
        next => exact .none
  next r =>
    obtain ⟨r', rfl, hr⟩ := h.cons
    exact .some ⟨rfl, rfl, hr⟩
  next => exact .none

private theorem beside_greedyMark (h : Wrapped signs rest rest') :
    Beside (Wrapped signs) (greedyMark rest) (greedyMark rest') := by
  by_cases hmark : ∃ r, rest = '?' :: r
  · obtain ⟨r, rfl⟩ := hmark
    obtain ⟨r', rfl, hr⟩ := h.cons
    exact ⟨rfl, hr⟩
  · have hplain : ∀ {text : List Char}, (∀ r, text ≠ '?' :: r) →
        greedyMark text = (true, text) := by
      intro text htext
      unfold greedyMark
      split
      next r => exact absurd rfl (htext r)
      next => rfl
    rw [hplain fun r hr => hmark ⟨r, hr⟩, hplain fun r' hr' => ?_]
    · exact ⟨rfl, h⟩
    · subst hr'
      obtain ⟨r, rfl, -⟩ := h.uncons_right (by decide)
      exact hmark ⟨r, rfl⟩

/-! ### Steps -/

private theorem inStep_map {o o' : Option Progress} (ho : o' = o.map (·.within g))
    (h : Wrapped signs rest rest') :
    Agrees (InStep signs g) (o.map (·, rest)) (o'.map (·, rest')) := by
  subst ho
  rw [Option.map_map]
  exact .map_left fun p => ⟨rfl, h⟩

private theorem closeGroup?_within {p closed : Progress} (hclosed : p.closeGroup? = some closed) :
    (p.within g).closeGroup? = some (closed.within g) := by
  rw [Progress.closeGroup?] at hclosed
  split at hclosed
  next => cases hclosed
  next inner outer houter =>
    cases hclosed
    rw [Progress.closeGroup?, Progress.within, houter]
    rfl

private theorem repeatLast?_within (p : Progress) (min : Nat) (max : Option Nat) (greedy : Bool) :
    (p.within g).repeatLast? min max greedy = (p.repeatLast? min max greedy).map (·.within g) := by
  obtain ⟨flags, branches, pieces, outer, names⟩ := p
  unfold Progress.repeatLast?
  dsimp only [Progress.within]
  split <;> rfl

/-- One step of the reader is in step inside of a further group. -/
theorem inStep_readStep? (p : Progress) (h : Wrapped signs rest rest') :
    Agrees (InStep signs g) (readStep? p rest) (readStep? (p.within g) rest') := by
  rcases h.uncons with rfl | ⟨c, r, r', rfl, rfl, hr⟩
  · exact .none
  have hrepeat : ∀ (min : Nat) (max : Option Nat) {r r' : List Char}, Wrapped signs r r' →
      Agrees (InStep signs g) ((p.repeatLast? min max (greedyMark r).1).map (·, (greedyMark r).2))
        (((p.within g).repeatLast? min max (greedyMark r').1).map (·, (greedyMark r').2)) := by
    intro min max r r' hr
    obtain ⟨hgreedy, hback⟩ := beside_greedyMark hr
    rw [hgreedy]
    exact inStep_map (repeatLast?_within p min max _) hback
  unfold readStep?
  dsimp only
  split
  · exact inStep_groupOpening? p hr
  · intro x hx
    obtain ⟨closed, hclosed, rfl⟩ := Option.map_eq_some_iff.mp hx
    exact ⟨(closed.within g, r'), by rw [closeGroup?_within hclosed]; rfl, rfl, hr⟩
  · exact .some ⟨rfl, hr⟩
  · refine (agrees_bracketLoop p.flags ?_ [] {} h).bind ?_
    · exact Nat.add_le_add_right hr.length_le 2
    rintro ⟨set, height, r⟩ ⟨_, _, r'⟩ ⟨rfl, rfl, hr⟩
    exact .some ⟨rfl, hr⟩
  · exact hrepeat _ _ hr
  · exact hrepeat _ _ hr
  · exact hrepeat _ _ hr
  · refine (agrees_bounds? p.flags.verbose hr).bind ?_
    rintro ⟨min, max, r⟩ ⟨_, _, r'⟩ ⟨rfl, rfl, hr⟩
    exact hrepeat _ _ (hr.skipLayout p.flags.verbose)
  · refine (agrees_escape? p.flags.verbose hr).bind ?_
    rintro ⟨e, r⟩ ⟨_, r'⟩ ⟨rfl, hr⟩
    exact .bind_left fun regex => .some ⟨rfl, hr⟩
  · exact .map_left fun regex => ⟨rfl, hr⟩
  · exact .some ⟨rfl, hr⟩
  · exact .some ⟨rfl, hr⟩
  · exact .map_left fun regex => ⟨rfl, hr⟩

/-! ### The whole pattern -/

private theorem readLoop_end {p : Progress} {fuel : Nat}
    (hskip : skipLayout p.flags.verbose rest = []) :
    readLoop (fuel + 1) p rest = if p.outer.isEmpty then some p.tree else none := by
  rw [readLoop, hskip]

private theorem readLoop_step {p : Progress} {fuel : Nat} {c : Char} {more : List Char}
    (hskip : skipLayout p.flags.verbose rest = c :: more) :
    readLoop (fuel + 1) p rest =
      (readStep? p (c :: more)).bind fun x => readLoop fuel x.1 x.2 := by
  rw [readLoop, hskip]
  rfl

/-- The group of an anchored pattern, behind the start of the text. -/
def anchorGroup : OpenGroup := ⟨[], [.expression (.look .textStart) 0], {}, false⟩

/-- What is read of an anchored pattern, given what is read of the pattern by itself. -/
def Draft.anchored (d : Draft) : Draft := ⟨.cat (.look .textStart) d.regex, d.height + 2⟩

/-- The parenthesis closes the group of an anchored pattern. -/
theorem closeGroup?_anchorGroup {p : Progress} (houter : p.outer = []) :
    ∃ closed, (p.within anchorGroup).closeGroup? = some closed ∧ closed.flags = {} ∧
      closed.outer = [] ∧ closed.tree = p.tree.anchored := by
  obtain ⟨flags, branches, pieces, outer, names⟩ := p
  obtain rfl : outer = [] := houter
  refine ⟨_, rfl, rfl, rfl, ?_⟩
  have hheight : ∀ height : Nat, max (max 0 (height + 1)) 0 + 1 = height + 2 := by omega
  exact congrArg (Draft.mk _) (hheight _)

private theorem readLoop_close {p : Progress} (houter : p.outer = []) (fuel : Nat)
    (hskip : skipLayout p.flags.verbose rest = [')']) :
    readLoop (fuel + 2) (p.within anchorGroup) rest = some p.tree.anchored := by
  obtain ⟨closed, hclosed, hflags, hclosedOuter, htree⟩ := closeGroup?_anchorGroup houter
  have hstep : readStep? (p.within anchorGroup) [')'] = some (closed, []) := by
    change (p.within anchorGroup).closeGroup?.map (·, []) = _
    rw [hclosed]
    rfl
  rw [readLoop_step (p := p.within anchorGroup) hskip, hstep]
  change readLoop (fuel + 1) closed [] = _
  rw [readLoop_end (by rw [hflags]; rfl), hclosedOuter, htree]
  rfl

/-- Inside the group a pattern is read as it is by itself, unless a comment at its end takes the
parenthesis and the group stays open. -/
theorem readLoop_within {fuel : Nat} {p : Progress} {d : Draft} (h : Wrapped signs rest rest')
    (hown : readLoop fuel p rest = some d) :
    readLoop (fuel + 3) (p.within anchorGroup) rest' = some d.anchored ∨
      signs ∧ readLoop (fuel + 3) (p.within anchorGroup) rest' = none := by
  induction fuel generalizing p rest rest' with
  | zero => cases hown
  | succ fuel ih =>
    have hskip := h.skipLayout p.flags.verbose
    rcases hskip.uncons with hnil | ⟨c, r, r', hcons, hcons', -⟩
    · rw [readLoop_end hnil] at hown
      split at hown
      next houter =>
        obtain rfl := Option.some.inj hown
        rcases hskip.2 with hclose | ⟨hsigns, -, hnil'⟩
        · rw [hnil] at hclose
          exact .inl (readLoop_close (List.isEmpty_iff.mp houter) _ hclose)
        · rw [readLoop_end (p := p.within anchorGroup) hnil']
          exact .inr ⟨hsigns, if_neg (by simp [Progress.within])⟩
      next => cases hown
    · rw [hcons, hcons'] at hskip
      rw [readLoop_step hcons] at hown
      obtain ⟨⟨q, back⟩, hstep, hown⟩ := Option.bind_eq_some_iff.mp hown
      obtain ⟨⟨_, back'⟩, hstep', rfl, hback⟩ :=
        inStep_readStep? (g := anchorGroup) p hskip _ hstep
      rw [readLoop_step (p := p.within anchorGroup) hcons', hstep']
      exact ih hback hown

private theorem readLoop_anchoredText (pattern : String) (fuel : Nat) :
    readLoop (fuel + 2) {} (anchoredText pattern) =
      readLoop fuel (Progress.within {} anchorGroup) (pattern.toList ++ [')']) := rfl

/-- A pattern that is read by itself is read in the same way behind the start of the text. Only a
pattern with the sign of a comment may not be read there. -/
theorem readLoop_anchoredText_of_readLoop {pattern : String} {d : Draft}
    (hown : readLoop (pattern.toList.length + 1) {} pattern.toList = some d) :
    readLoop ((anchoredText pattern).length + 1) {} (anchoredText pattern) = some d.anchored ∨
      '#' ∈ pattern.toList ∧
        readLoop ((anchoredText pattern).length + 1) {} (anchoredText pattern) = none := by
  have hlength : (anchoredText pattern).length + 1 = pattern.toList.length + 1 + 3 + 2 := by
    rw [anchoredText, List.length_append, List.length_append]
    change 4 + pattern.toList.length + 1 + 1 = _
    omega
  rw [hlength, readLoop_anchoredText]
  exact readLoop_within ⟨id, .inl rfl⟩ hown

/-- A pattern that is a regular expression by itself stands for that expression, behind the start
of the text, if it is accepted there. -/
theorem ofText?_anchoredText {pattern : String} {r r' : Regex}
    (hown : Regex.ofText? pattern.toList = some r)
    (hanchored : Regex.ofText? (anchoredText pattern) = some r') :
    r' = .cat (.look .textStart) r := by
  have hregex : ∀ {d : Draft} {r : Regex},
      (if d.height ≤ maxHeight then some d.regex else none) = some r → d.regex = r := by
    intro d r h
    split at h
    · exact Option.some.inj h
    · cases h
  obtain ⟨d, hd, hr⟩ := Option.bind_eq_some_iff.mp hown
  obtain ⟨d', hd', hr'⟩ := Option.bind_eq_some_iff.mp hanchored
  rcases readLoop_anchoredText_of_readLoop hd with h | ⟨-, h⟩
  · obtain rfl := Option.some.inj (hd'.symm.trans h)
    rw [← hregex hr, ← hregex hr']
    rfl
  · rw [h] at hd'
    cases hd'

/-- As an expression of its own the pattern is so far below the limits of height and size that the
wrapper fits in too. -/
def leavesRoom (pattern : String) : Bool :=
  (readLoop (pattern.toList.length + 1) {} pattern.toList).any fun d =>
    d.height + 2 ≤ maxHeight && 32 + d.regex.footprint ≤ footprintLimit

/-- A pattern that is a regular expression by itself, with room for the wrapper and no sign of a
comment, is accepted. -/
theorem compileAnchored?_isSome {pattern : String} (hroom : leavesRoom pattern = true)
    (hsigns : '#' ∉ pattern.toList) : (compileAnchored? pattern).isSome = true := by
  obtain ⟨d, hd, hlimits⟩ := (Option.any_eq_true _ _).mp hroom
  obtain ⟨hheight, hsize⟩ : d.height + 2 ≤ maxHeight ∧ 32 + d.regex.footprint ≤ footprintLimit := by
    simpa using hlimits
  have hanchored := (readLoop_anchoredText_of_readLoop hd).resolve_right fun h => hsigns h.1
  have htext : Regex.ofText? (anchoredText pattern) = some (.cat (.look .textStart) d.regex) := by
    rw [Regex.ofText?, hanchored]
    exact if_pos hheight
  have hfits : (Regex.cat (.look .textStart) d.regex).footprint ≤ footprintLimit := hsize
  rw [compileAnchored?, htext, Option.bind_some, Compiled.ofRegex?, if_pos hfits]
  rfl

end Descent.Pattern
