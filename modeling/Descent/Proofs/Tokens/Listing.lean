import Descent.Proofs.Tokens.Compiling
import Descent.Proofs.Tokens.Movement

/-!
# The tokens ahead

The tokens of a stream up to its end are a list, unless no token begins somewhere. Where
the kind of the end is that of no token, a parser that fetches a token moves one element
along the list of those ahead.
-/

namespace Descent

variable {κ : Type}

/-- The tokens up to the end, each with its kind; none if the lexer fails before. -/
def Stream.tokens? : Stream κ → Option (List (κ × Token))
  | .token kind t rest => rest.tokens?.map fun ts => (kind, t) :: ts
  | .finished _ _ => some []
  | .stuck _ => none

/-- The kind of the end stands at the end of the stream only. -/
def Stream.Proper (endKind : κ) : Stream κ → Prop
  | .token kind _ rest => kind ≠ endKind ∧ rest.Proper endKind
  | .finished kind _ => kind = endKind
  | .stuck _ => True

/-- The tokens from the current one up to the end; none if the lexer fails before. -/
def Standing.tokens? [DecidableEq κ] (endKind : κ) (s : Standing κ) :
    Option (List (κ × Token)) :=
  if s.kind = endKind then some []
  else s.upcoming.tokens?.map fun ts => (s.kind, s.token) :: ts

namespace Standing

variable {endKind : κ} {s u : Standing κ}

/-- What is ahead of the next place ends properly if what is ahead of this one does. -/
theorem proper_next (h : s.upcoming.Proper endKind) (hnext : s.next = .ok u) :
    u.upcoming.Proper endKind := by
  obtain ⟨kind, token, upcoming⟩ := s
  cases upcoming with
  | token kind token rest =>
      obtain rfl := Except.ok.inj hnext
      exact h.2
  | finished kind token =>
      obtain rfl := Except.ok.inj hnext
      exact h
  | stuck e => cases hnext

variable [DecidableEq κ]

/-- Behind a fetched token stand the tokens that were upcoming. -/
theorem tokens?_next (h : s.upcoming.Proper endKind) (hnext : s.next = .ok u) :
    u.tokens? endKind = s.upcoming.tokens? := by
  obtain ⟨kind, token, upcoming⟩ := s
  cases upcoming with
  | token kind token rest =>
      obtain rfl := Except.ok.inj hnext
      exact if_neg h.1
  | finished kind token =>
      obtain rfl := Except.ok.inj hnext
      exact if_pos h
  | stuck e => cases hnext

/-- Taking a token leaves the others. -/
theorem tokens?_eq_map (h : s.upcoming.Proper endKind) (hkind : s.kind ≠ endKind)
    (hnext : s.next = .ok u) :
    s.tokens? endKind = (u.tokens? endKind).map fun ts => (s.kind, s.token) :: ts := by
  rw [tokens?_next h hnext]
  exact if_neg hkind

/-- At the end no tokens are ahead. -/
theorem tokens?_of_end (hkind : s.kind = endKind) : s.tokens? endKind = some [] := if_pos hkind

end Standing

/-- The parser stands in front of the tokens, behind which the end comes. -/
structure Standing.Holds [DecidableEq κ] (endKind : κ) (s : Standing κ) (ts : List (κ × Token)) :
    Prop where
  proper : s.upcoming.Proper endKind
  tokens : s.tokens? endKind = some ts

/-- Where the lexer gets to the end, the next token can be fetched and the others stand behind it. -/
theorem Standing.next_of_tokens? [DecidableEq κ] {endKind : κ} {s : Standing κ}
    {ts : List (κ × Token)} (hproper : s.upcoming.Proper endKind)
    (htokens : s.upcoming.tokens? = some ts) : ∃ u, s.next = .ok u ∧ u.Holds endKind ts := by
  have hnext : ∃ u, s.next = .ok u := by
    obtain ⟨kind, token, upcoming⟩ := s
    cases upcoming with
    | token kind token rest => exact ⟨_, rfl⟩
    | finished kind token => exact ⟨_, rfl⟩
    | stuck e => cases htokens
  obtain ⟨u, hnext⟩ := hnext
  exact ⟨u, hnext, proper_next hproper hnext, (tokens?_next hproper hnext).trans htokens⟩

namespace Standing.Holds

variable {endKind : κ} {s : Standing κ} {k : κ} {t : Token} {ts : List (κ × Token)}
  [DecidableEq κ]

/-- Where no tokens are ahead the parser stands at the end. -/
theorem kind_of_nil (h : s.Holds endKind []) : s.kind = endKind := by
  have htokens := h.tokens
  by_cases hkind : s.kind = endKind
  · exact hkind
  · rw [tokens?, if_neg hkind] at htokens
    obtain ⟨ts, -, hts⟩ := Option.map_eq_some_iff.mp htokens
    cases hts

/-- The first of the tokens ahead is the current one, and the parser can go on to the others. -/
theorem next_of_cons (h : s.Holds endKind ((k, t) :: ts)) :
    s.kind = k ∧ s.token = t ∧ ∃ u, s.next = .ok u ∧ u.Holds endKind ts := by
  have htokens := h.tokens
  by_cases hkind : s.kind = endKind
  · rw [tokens?_of_end hkind] at htokens
    cases htokens
  · rw [tokens?, if_neg hkind] at htokens
    obtain ⟨rest, hrest, hts⟩ := Option.map_eq_some_iff.mp htokens
    obtain ⟨⟨rfl, rfl⟩, rfl⟩ : (s.kind = k ∧ s.token = t) ∧ rest = ts := by simpa using hts
    exact ⟨rfl, rfl, next_of_tokens? h.proper hrest⟩

/-- The kind of the current token is that of the first one ahead, or of the end. -/
theorem kind_eq (h : s.Holds endKind ts) : s.kind = (ts.head?.map Prod.fst).getD endKind := by
  cases ts with
  | nil => exact h.kind_of_nil
  | cons x rest => exact (h.next_of_cons (k := x.1) (t := x.2)).1

end Standing.Holds

/-- The tokens are those that are taken on the way from the first place to the second one. -/
inductive Standing.Takes (endKind : κ) :
    Standing κ → List (κ × Token) → Standing κ → Prop where
  | refl (s : Standing κ) : Takes endKind s [] s
  | head {s t u : Standing κ} {ts : List (κ × Token)} (hkind : s.kind ≠ endKind)
      (hnext : s.next = .ok t) (h : Takes endKind t ts u) :
      Takes endKind s ((s.kind, s.token) :: ts) u

namespace Standing.Takes

variable {endKind : κ} {s t u : Standing κ} {ts us : List (κ × Token)}

/-- To fetch the next token takes the current one. -/
theorem single (hkind : s.kind ≠ endKind) (hnext : s.next = .ok u) :
    s.Takes endKind [(s.kind, s.token)] u :=
  .head hkind hnext (.refl u)

/-- What is taken on two ways, one behind the other, is taken on both together. -/
theorem trans (h : s.Takes endKind ts t) (h' : t.Takes endKind us u) :
    s.Takes endKind (ts ++ us) u := by
  induction h with
  | refl => exact h'
  | head hkind hnext _ ih => exact .head hkind hnext (ih h')

/-- The tokens up to the end are those that are taken and those behind them. -/
theorem tokens?_eq [DecidableEq κ] (h : s.Takes endKind ts u)
    (hproper : s.upcoming.Proper endKind) :
    s.tokens? endKind = (u.tokens? endKind).map (ts ++ ·) := by
  induction h with
  | refl => simp
  | head hkind hnext _ ih =>
      rw [tokens?_eq_map hproper hkind hnext, ih (proper_next hproper hnext), Option.map_map]
      rfl

end Standing.Takes

/-- The tokens of a stream are as many as there are in front of its end. -/
theorem Stream.length_of_tokens? {stream : Stream κ} {ts : List (κ × Token)}
    (h : stream.tokens? = some ts) : ts.length = stream.length := by
  induction stream generalizing ts with
  | token kind t rest ih =>
      obtain ⟨us, hus, rfl⟩ := Option.map_eq_some_iff.mp h
      rw [List.length_cons, ih hus, length]
  | finished kind t =>
      obtain rfl := Option.some.inj h
      rfl
  | stuck e => cases h

namespace Lexicon

variable {lexicon : Lexicon κ}

/-- A token that is fetched in front of the end has the kind of a rule. -/
theorem kind_of_next {cursor after : Cursor} {kind : κ} {t : Token}
    (h : lexicon.next cursor = (.ok (kind, t), after))
    (hrest : (lexicon.skipAll cursor).rest.isEmpty = false) :
    ∃ r ∈ lexicon.rules, r.kind = kind := by
  simp only [next, hrest, Bool.false_eq_true, if_false] at h
  split at h
  · next r n hfirst =>
      obtain ⟨r', hr', hmatch⟩ := List.exists_of_findSome?_eq_some hfirst
      obtain ⟨m, -, hm⟩ := Option.bind_eq_some_iff.mp hmatch
      split at hm
      · obtain ⟨rfl, rfl⟩ := Prod.mk.inj (Option.some.inj hm)
        exact ⟨_, hr', (Prod.mk.inj (Except.ok.inj (Prod.mk.inj h).1)).1⟩
      · cases hm
  · cases h

/-- Where no rule has the kind of the end, only the end of a stream has it. -/
theorem proper_stream (h : ∀ r ∈ lexicon.rules, r.kind ≠ lexicon.endKind) (input : String) :
    (lexicon.stream input).Proper lexicon.endKind := by
  suffices hfrom : ∀ fuel cursor,
      (lexicon.streamFrom fuel cursor).Proper lexicon.endKind from hfrom _ _
  intro fuel
  induction fuel with
  | zero => exact fun _ => rfl
  | succ fuel ih =>
      intro cursor
      rw [streamFrom]
      split
      · trivial
      · next kind token after hnext =>
          split
          · next hend =>
              have hfirst := next_of_end hend
              rw [hnext] at hfirst
              exact (Prod.mk.inj (Except.ok.inj hfirst)).1
          · next hrest =>
              obtain ⟨r, hr, rfl⟩ := kind_of_next hnext (Bool.eq_false_iff.mpr hrest)
              exact ⟨h r hr, ih after⟩

/-- The stream of a lexicon that is made of patterns ends properly if none of them is that of the
end. -/
theorem proper_stream_of_ofPatterns? {skips : List String} {rules : List (κ × String × String)}
    {endKind : κ} (h : ofPatterns? skips rules endKind = some lexicon)
    (hrules : ∀ k ∈ rules.map (·.1), k ≠ endKind) (input : String) :
    (lexicon.stream input).Proper endKind := by
  obtain rfl := endKind_of_ofPatterns? h
  exact proper_stream (fun _ => kind_ne_of_ofPatterns? h hrules) input

end Lexicon
end Descent
