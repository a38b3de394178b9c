import Descent.Proofs.Driver.Erasure
import Descent.Proofs.Driver.Selection

/-!
# How deep calls are nested

Rules that are called one inside the other without a token between them go down in a
rank, if the rules have one; a token that is taken lets them begin at the top again. So
the number of tokens ahead bounds the depth of the calls, whatever the tokens are.
-/

namespace Descent

open Descent.Parser

/-- The run from the place stays below the limit of calls. -/
def Parser.BelowLimit {β : Type} (p : Parser String CallLimit β) (s : Standing String) : Prop :=
  ∀ ⦃r s'⦄, p.Gives s r s' → r ≠ .error (.action .reached)

section

variable {β γ : Type} {p : Parser String CallLimit β} {f : β → Parser String CallLimit γ}
  {s : Standing String}

/-- Two parsers one behind the other stay below the limit if both do. -/
theorem Parser.BelowLimit.bind (hp : p.BelowLimit s)
    (hf : ∀ b u, p.Gives s (.ok b) u → (f b).BelowLimit u) : (p >>= f).BelowLimit s := by
  intro r s' hrun
  rcases gives_bind.mp hrun with ⟨b, u, hb, hrest⟩ | ⟨e, rfl, he⟩
  · exact hf b u hb hrest
  · exact error_ne_limit (hp he)

/-- A parser that does nothing stays below the limit. -/
theorem Parser.belowLimit_pure (b : β) : (pure b : Parser String CallLimit β).BelowLimit s := by
  intro r s' hrun
  obtain ⟨rfl, -⟩ := gives_pure.mp hrun
  exact ok_ne_limit

/-- A failure at the current token is not the one at the limit. -/
theorem Parser.belowLimit_failure (e : Token → SyntaxError) :
    (do throw (.unfit (e (← current))) : Parser String CallLimit β).BelowLimit s := by
  intro r s' hrun
  obtain ⟨rfl, -⟩ := hrun.unique rfl
  exact unfit_ne_limit

/-- To take a token stays below the limit. -/
theorem Parser.belowLimit_advance : (advance : Parser String CallLimit Unit).BelowLimit s := by
  intro r s' hrun
  cases r with
  | ok _ => exact ok_ne_limit
  | error e =>
      obtain ⟨cause, -, rfl, -⟩ := gives_advance_error.mp hrun
      simp

/-- To wait for a token stays below the limit. -/
theorem Parser.belowLimit_terminal {expected name : String} {value : Token → β} :
    (terminal expected name fun t => .ok (value t)).BelowLimit s := by
  intro r s' hrun
  cases r with
  | ok b => exact ok_ne_limit
  | error e =>
      rcases gives_terminal_error hrun with ⟨-, rfl, -⟩ | ⟨-, hnext⟩
      · exact unfit_ne_limit
      · exact error_ne_limit (belowLimit_advance hnext)

end

namespace Grammar

variable {g : Grammar} {a : Analysis} {rank : String → Nat} {takes : String → Bool} {top : Nat}
  {atoms : List Atom} {name : String} {s s' : Standing String} {depth : Nat}

/-- The rules that are called in front of the first atom that takes a token for certain. The rules
that take one for certain are marked. -/
def frontCalls (takes : String → Bool) : List Atom → List String
  | [] => []
  | x :: rest =>
    if x.isTerminal then []
    else x.name :: if takes x.name then [] else frontCalls takes rest

/-- The rules have ranks up to `top` that go down along calls without a token between them, and the
rules that are marked take a token in each of their alternatives. -/
structure Ranked (g : Grammar) (rank : String → Nat) (takes : String → Bool) (top : Nat) : Prop where
  le_top : ∀ name, rank name ≤ top
  taking : ∀ r ∈ g.parserRules, takes r.name = true → ∀ alt ∈ r.alternatives,
    ∃ x ∈ alt.atoms, x.isTerminal = true ∨ takes x.name = true
  descends : ∀ r ∈ g.parserRules, ∀ alt ∈ r.alternatives,
    ∀ y ∈ frontCalls takes alt.atoms, rank y < rank r.name

section

variable {call : String → Parser String CallLimit ParseTree} {x : Atom} {part : ParseTree}

/-- A call of a marked rule that succeeds leaves less ahead. -/
def TakingCalls (takes : String → Bool) (call : String → Parser String CallLimit ParseTree) : Prop :=
  ∀ ⦃name s tree s'⦄, s.upcoming.Closed endName → takes name = true →
    (call name).Gives s (.ok tree) s' → s'.ahead endName < s.ahead endName

/-- An atom that takes a token for certain leaves less ahead. -/
theorem TakingCalls.runAtom (hcall : TakingCalls takes call) (hclosed : s.upcoming.Closed endName)
    (hx : x.isTerminal = true ∨ takes x.name = true)
    (hne : x.isTerminal = true → x.name ≠ endName)
    (hrun : (Grammar.runAtom call x).Gives s (.ok part) s') :
    s'.ahead endName < s.ahead endName := by
  cases hkind : x.isTerminal with
  | true =>
      obtain ⟨hname, -, hnext⟩ := gives_runAtom_terminal hkind hrun
      have hs : s.kind ≠ endName := hname ▸ hne hkind
      exact Standing.ahead_next_lt hclosed hs (gives_advance_ok.mp hnext)
  | false =>
      rw [runAtom_of_nonterminal hkind] at hrun
      have hmark : takes x.name = true := by simpa [hkind] using hx
      exact hcall hclosed hmark hrun

/-- Atoms one of which takes a token for certain leave less ahead. -/
theorem TakingCalls.runAtoms (hcall : TakingCalls takes call)
    (hforward : ∀ name, (call name).Forward) {parts : List ParseTree}
    (hclosed : s.upcoming.Closed endName)
    (hatoms : ∃ x ∈ atoms, x.isTerminal = true ∨ takes x.name = true)
    (hne : ∀ x ∈ atoms, x.isTerminal = true → x.name ≠ endName)
    (hrun : (Grammar.runAtoms call atoms).Gives s (.ok parts) s') :
    s'.ahead endName < s.ahead endName := by
  induction atoms generalizing s parts with
  | nil =>
      obtain ⟨x, hx, -⟩ := hatoms
      exact absurd hx List.not_mem_nil
  | cons x rest ih =>
      obtain ⟨part, inner, u, rfl, hx, hrest⟩ := gives_runAtoms_cons_ok.mp hrun
      have hto := forward_runAtom hforward x hx
      have hu := hclosed.reaches hto
      obtain ⟨y, hy, htakes⟩ := hatoms
      rcases List.mem_cons.mp hy with rfl | hy
      · have hlt := hcall.runAtom hclosed htakes (hne y List.mem_cons_self) hx
        have hle := (forward_runAtoms hforward rest hrest).ahead_le hu
        omega
      · have hle := hto.ahead_le hclosed
        have hlt := ih hu ⟨y, hy, htakes⟩ (fun z hz => hne z (List.mem_cons_of_mem x hz)) hrest
        omega

/-- The depth allows a call of the rule at the place: each token ahead is worth the calls from the
top down, and the rule those from its rank down. -/
def Room (rank : String → Nat) (top depth : Nat) (s : Standing String) (name : String) : Prop :=
  (top + 1) * s.ahead endName + rank name < depth

/-- Where a token has been taken there is room for every rule. -/
theorem Room.of_ahead_lt {u : Standing String} (htop : ∀ name, rank name ≤ top)
    (hdepth : (top + 1) * s.ahead endName ≤ depth) (hlt : u.ahead endName < s.ahead endName)
    (name : String) : Room rank top depth u name := by
  have hmul : (top + 1) * (u.ahead endName + 1) ≤ (top + 1) * s.ahead endName :=
    Nat.mul_le_mul_left _ hlt
  have hrank := htop name
  rw [Nat.mul_add] at hmul
  rw [Room]
  omega

/-- Room for a call at a place is room where fewer tokens are ahead. -/
theorem Room.mono {u : Standing String} (h : Room rank top depth s name)
    (hle : u.ahead endName ≤ s.ahead endName) : Room rank top depth u name := by
  have hmul : (top + 1) * u.ahead endName ≤ (top + 1) * s.ahead endName :=
    Nat.mul_le_mul_left _ hle
  rw [Room] at h ⊢
  omega

/-- Calls for which there is room stay below the limit. -/
def LowCalls (rank : String → Nat) (top depth : Nat)
    (call : String → Parser String CallLimit ParseTree) : Prop :=
  ∀ ⦃name s⦄, s.upcoming.Closed endName → Room rank top depth s name → (call name).BelowLimit s

/-- Atoms stay below the limit if there is room for the rules that are called in front; behind a
token that is taken there is room for all. -/
theorem LowCalls.runAtoms (hlow : LowCalls rank top depth call) (hcall : TakingCalls takes call)
    (hforward : ∀ name, (call name).Forward) (htop : ∀ name, rank name ≤ top)
    (hclosed : s.upcoming.Closed endName)
    (hne : ∀ x ∈ atoms, x.isTerminal = true → x.name ≠ endName)
    (hdepth : (top + 1) * s.ahead endName ≤ depth)
    (hfront : ∀ y ∈ frontCalls takes atoms, Room rank top depth s y) :
    (Grammar.runAtoms call atoms).BelowLimit s := by
  induction atoms generalizing s with
  | nil => exact belowLimit_pure []
  | cons x rest ih =>
      have hx : (Grammar.runAtom call x).BelowLimit s := by
        cases hkind : x.isTerminal with
        | true =>
            rw [runAtom_of_terminal hkind]
            exact belowLimit_terminal
        | false =>
            rw [runAtom_of_nonterminal hkind]
            exact hlow hclosed (hfront _ (by simp [frontCalls, hkind]))
      refine hx.bind fun part u hpart => ?_
      have hto := forward_runAtom hforward x hpart
      have hle := hto.ahead_le hclosed
      have hmul : (top + 1) * u.ahead endName ≤ depth :=
        (Nat.mul_le_mul_left _ hle).trans hdepth
      have hrest := ih (hclosed.reaches hto) (fun y hy => hne y (List.mem_cons_of_mem x hy)) hmul
      refine (hrest fun y hy => ?_).bind fun parts _ _ => belowLimit_pure _
      by_cases htakes : x.isTerminal = true ∨ takes x.name = true
      · have hlt := hcall.runAtom hclosed htakes (hne x List.mem_cons_self) hpart
        exact .of_ahead_lt htop hdepth hlt y
      · obtain ⟨hterm, hmark⟩ := not_or.mp htakes
        have hmem : y ∈ frontCalls takes (x :: rest) := by
          rw [frontCalls, if_neg hterm, if_neg hmark]
          exact List.mem_cons_of_mem _ hy
        exact (hfront y hmem).mono hle

end

namespace Analysed

variable (h : g.Analysed a)
include h

/-- The marked rules take tokens. -/
theorem takingCalls (hrank : g.Ranked rank takes top) (depth : Nat) :
    TakingCalls takes (g.runRule a depth) := by
  induction depth with
  | zero =>
      intro name s tree s' _ _ hrun
      cases (gives_act_error.mp hrun).1
  | succ depth ih =>
      intro name s tree s' hclosed hmark hrun
      obtain ⟨alt, i, parts, harm, hatoms, rfl⟩ := gives_runRule_ok hrun
      obtain ⟨r, hr, rfl, halt, -⟩ := h.exists_rule_of_arm? harm
      have hmem := List.mem_of_getElem? halt
      exact ih.runAtoms (forward_runRule g a depth) hclosed (hrank.taking r hr hmark alt hmem)
        (h.valid.terminal_ne_endName hr hmem) hatoms

/-- A rule stays below the limit of calls if there is room for it. -/
theorem lowCalls (hrank : g.Ranked rank takes top) (depth : Nat) :
    LowCalls rank top depth (g.runRule a depth) := by
  induction depth with
  | zero => exact fun _ _ _ hroom => absurd hroom (Nat.not_lt_zero _)
  | succ depth ih =>
      intro name s hclosed hroom r s' hrun
      cases harm : g.arm? a name s.kind with
      | none =>
          rw [runRule, gives_kind_bind, harm] at hrun
          exact belowLimit_failure (SyntaxError.unexpected _) hrun
      | some arm =>
          obtain ⟨alt, i⟩ := arm
          obtain ⟨r, hr, rfl, halt, -⟩ := h.exists_rule_of_arm? harm
          have hmem := List.mem_of_getElem? halt
          rw [Room] at hroom
          have hatoms := ih.runAtoms (h.takingCalls hrank depth) (forward_runRule g a depth)
            hrank.le_top hclosed (h.valid.terminal_ne_endName hr hmem) (by omega) fun y hy => by
              have hlt := hrank.descends r hr alt hmem y hy
              rw [Room]
              omega
          rw [runRule, gives_kind_bind, harm] at hrun
          exact hatoms.bind (fun parts _ _ => belowLimit_pure _) hrun

/-- On an input the depth of calls that the driver needs is bounded by the number of tokens. -/
theorem drive_belowLimit (hrank : g.Ranked rank takes top) (hclosed : s.upcoming.Closed endName)
    (hdepth : (top + 1) * s.upcoming.length + rank g.startRule.name < depth) :
    (g.drive a depth).BelowLimit s := by
  refine belowLimit_advance.bind fun _ u hnext => ?_
  have hfetch := gives_advance_ok.mp hnext
  have hle : (top + 1) * u.ahead endName ≤ (top + 1) * s.upcoming.length :=
    Nat.mul_le_mul_left _ (Standing.ahead_next_le hclosed hfetch)
  have hroom : Room rank top depth u g.startRule.name := by
    rw [Room]
    omega
  refine (h.lowCalls hrank depth (hclosed.next hfetch) hroom).bind fun tree t _ r s' hend => ?_
  rw [gives_kind_bind] at hend
  split at hend
  · exact belowLimit_pure tree hend
  · exact belowLimit_failure .trailing hend

end Analysed
end Grammar
end Descent
