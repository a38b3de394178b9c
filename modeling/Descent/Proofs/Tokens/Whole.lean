import Descent.Proofs.Tokens.Listing

/-!
# Parsing the tokens of a whole text

A parse of a whole text succeeds where the start rule takes all tokens up to the end. So
what a language is can be said of lists of tokens, apart from the stream and from where
the parser stands.
-/

namespace Descent

variable {κ α β : Type} [DecidableEq κ]

namespace Parser

variable {s s' : Standing κ} {endKind : κ} {b : β} {start : Parser κ α β}

/-- A terminal takes one token, of which something can be made. -/
theorem takes_of_terminal {kind : κ} {name : String} {f : Token → Except α β}
    (hkind : kind ≠ endKind) (h : (terminal kind name f).Gives s (.ok b) s') :
    ∃ t, f t = .ok b ∧ s.Takes endKind [(kind, t)] s' := by
  obtain ⟨rfl, hf, hnext⟩ := gives_terminal_token.mp h
  exact ⟨s.token, hf, .single hkind hnext⟩

/-- A terminal in front of a token of its kind takes it, if something can be made of it. -/
theorem terminal_of_holds {kind : κ} {name : String} {f : Token → Except α β} {t : Token}
    {ts : List (κ × Token)} (hs : s.Holds endKind ((kind, t) :: ts)) (hf : f t = .ok b) :
    ∃ u, (terminal kind name f).Gives s (.ok b) u ∧ u.Holds endKind ts := by
  obtain ⟨hkind, rfl, u, hnext, hu⟩ := hs.next_of_cons
  exact ⟨u, gives_terminal_token.mpr ⟨hkind, hf, hnext⟩, hu⟩

/-- The whole is parsed where the start rule takes all tokens. -/
theorem whole_of_tokens? {ts : List (κ × Token)} (hproper : s.upcoming.Proper endKind)
    (htokens : s.upcoming.tokens? = some ts)
    (hstart : ∀ u, u.Holds endKind ts → ∃ v, start.Gives u (.ok b) v ∧ v.Holds endKind []) :
    ∃ v, (whole endKind start).Gives s (.ok b) v := by
  obtain ⟨u, hnext, hu⟩ := Standing.next_of_tokens? hproper htokens
  obtain ⟨v, hrun, hv⟩ := hstart u hu
  exact ⟨v, gives_whole_ok.mpr ⟨u, gives_advance_ok.mpr hnext, hrun, hv.kind_of_nil⟩⟩

/-- Where the whole is parsed, the tokens up to the end are those that the start rule has taken. -/
theorem tokens?_of_whole (hproper : s.upcoming.Proper endKind)
    (h : (whole endKind start).Gives s (.ok b) s') : ∃ u, start.Gives u (.ok b) s' ∧
      s'.kind = endKind ∧ ∀ ts, u.Takes endKind ts s' → s.upcoming.tokens? = some ts := by
  obtain ⟨u, hadvance, hrun, hend⟩ := gives_whole_ok.mp h
  have hnext := gives_advance_ok.mp hadvance
  refine ⟨u, hrun, hend, fun ts htakes => ?_⟩
  calc s.upcoming.tokens?
      = u.tokens? endKind := (Standing.tokens?_next hproper hnext).symm
    _ = (s'.tokens? endKind).map (ts ++ ·) :=
        htakes.tokens?_eq (Standing.proper_next hproper hnext)
    _ = some ts := by rw [Standing.tokens?_of_end hend, Option.map_some, List.append_nil]

end Parser
end Descent
