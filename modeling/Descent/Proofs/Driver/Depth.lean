import Descent.Proofs.Driver.Basic
import Descent.Proofs.Tokens.Runs

/-!
# The depth of calls

A run of the driver comes to an end if some depth of calls is enough for it. More
depth does not change such a run, so runs that come to an end can be put together
although each has a depth of its own.
-/

namespace Descent

open Descent.Parser

variable {β γ : Type} {s s' u : Standing String}

/-- A value is not the failure at the limit of calls. -/
theorem Parser.ok_ne_limit {b : β} :
    (.ok b : Except (ParseError CallLimit) β) ≠ .error (.action .reached) := by
  simp

/-- A token that does not fit is another failure. -/
theorem Parser.unfit_ne_limit {e : SyntaxError} :
    (.error (.unfit e) : Except (ParseError CallLimit) β) ≠ .error (.action .reached) := by
  simp

/-- A failure other than the one at the limit is one for all kinds of values. -/
theorem Parser.error_ne_limit {e : ParseError CallLimit}
    (h : (.error e : Except (ParseError CallLimit) β) ≠ .error (.action .reached)) :
    (.error e : Except (ParseError CallLimit) γ) ≠ .error (.action .reached) :=
  fun hn => h (congrArg _ (Except.error.inj hn))

/-- Whatever the first parser comes to within its limit of calls, the second one does as well. -/
def Parser.Refines (p q : Parser String CallLimit β) : Prop :=
  ∀ s r s', p.Gives s r s' → r ≠ .error (.action .reached) → q.Gives s r s'

/-- Every parser refines itself. -/
theorem Parser.Refines.refl (p : Parser String CallLimit β) : p.Refines p := fun _ _ _ h _ => h

/-- Refinement is kept when parsers are put one behind the other. -/
theorem Parser.Refines.bind {p q : Parser String CallLimit β}
    {f f' : β → Parser String CallLimit γ} (hp : p.Refines q) (hf : ∀ b, (f b).Refines (f' b)) :
    (p >>= f).Refines (q >>= f') := by
  intro s r s' h hr
  rcases gives_bind.mp h with ⟨b, u, hb, hrest⟩ | ⟨e, rfl, he⟩
  · have hb' := hp _ _ _ hb ok_ne_limit
    exact hb'.bind (hf b _ _ _ hrest hr)
  · have he' := hp _ _ _ he (error_ne_limit hr)
    exact he'.bind_error

namespace Grammar

/-- The run of an atom is refined with the calls of rules. -/
theorem runAtom_refines {call call' : String → Parser String CallLimit ParseTree}
    (h : ∀ name, (call name).Refines (call' name)) (x : Atom) :
    (runAtom call x).Refines (runAtom call' x) := by
  rw [runAtom, runAtom]
  split
  · exact Parser.Refines.refl _
  · exact h x.name

/-- The run of atoms is refined with the calls of rules. -/
theorem runAtoms_refines {call call' : String → Parser String CallLimit ParseTree}
    (h : ∀ name, (call name).Refines (call' name)) (atoms : List Atom) :
    (runAtoms call atoms).Refines (runAtoms call' atoms) := by
  induction atoms with
  | nil => exact Parser.Refines.refl _
  | cons x rest ih =>
      exact (runAtom_refines h x).bind fun part => ih.bind fun parts => Parser.Refines.refl _

/-- More depth does not change what a rule comes to. -/
theorem runRule_refines (g : Grammar) (a : Analysis) {depth depth' : Nat} (h : depth ≤ depth')
    (name : String) : (g.runRule a depth name).Refines (g.runRule a depth' name) := by
  induction depth generalizing depth' name with
  | zero =>
      intro s r s' hrun hr
      exact absurd (gives_act_error.mp hrun).1 hr
  | succ depth ih =>
      obtain ⟨depth', rfl⟩ : ∃ d, depth' = d + 1 := ⟨depth' - 1, by omega⟩
      rw [runRule, runRule]
      refine Parser.Refines.bind (Parser.Refines.refl _) fun k => ?_
      split
      · have hcalls : ∀ name, (g.runRule a depth name).Refines (g.runRule a depth' name) :=
          fun name => ih (by omega) name
        exact (runAtoms_refines hcalls _).bind fun parts => Parser.Refines.refl _
      · exact Parser.Refines.refl _

end Grammar

/-- The run comes to the outcome if the depth of calls is great enough. -/
def Parser.Ends (p : Nat → Parser String CallLimit β) (s : Standing String)
    (r : Except (ParseError CallLimit) β) (s' : Standing String) : Prop :=
  r ≠ .error (.action .reached) ∧ ∃ depth, (p depth).Gives s r s'

/-- More depth does not change a run that comes to an end. -/
def Parser.Steady (p : Nat → Parser String CallLimit β) : Prop :=
  ∀ depth depth', depth ≤ depth' → (p depth).Refines (p depth')

variable {p : Nat → Parser String CallLimit β} {f : Nat → β → Parser String CallLimit γ} {b : β}

/-- A run that comes to an end has one outcome. -/
theorem Parser.Steady.unique {r r' : Except (ParseError CallLimit) β} (hp : Steady p)
    (h : Ends p s r s') (h' : Ends p s r' u) : r = r' ∧ s' = u := by
  obtain ⟨hr, d, hd⟩ := h
  obtain ⟨hr', d', hd'⟩ := h'
  have hmax := hp d (max d d') (Nat.le_max_left d d') _ _ _ hd hr
  exact hmax.unique (hp d' (max d d') (Nat.le_max_right d d') _ _ _ hd' hr')

/-- A parser without calls that comes to an outcome comes to it at every depth. -/
theorem Parser.Ends.of_gives {q : Parser String CallLimit β} {r : Except (ParseError CallLimit) β}
    (hr : r ≠ .error (.action .reached)) (h : q.Gives s r s') : Ends (fun _ => q) s r s' :=
  ⟨hr, 0, h⟩

/-- Where the first of two parsers comes to an end with a value, both do if the second does. -/
theorem Parser.Ends.bind {r : Except (ParseError CallLimit) γ} (hp : Steady p)
    (hf : Steady fun d => f d b) (h : Ends p s (.ok b) u) (h' : Ends (fun d => f d b) u r s') :
    Ends (fun d => p d >>= f d) s r s' := by
  obtain ⟨hb, d, hd⟩ := h
  obtain ⟨hr, d', hd'⟩ := h'
  have hmax := hp d (max d d') (Nat.le_max_left d d') _ _ _ hd hb
  exact ⟨hr, max d d', hmax.bind (hf d' (max d d') (Nat.le_max_right d d') _ _ _ hd' hr)⟩

/-- Where the first of two parsers comes to an end with a failure, both do. -/
theorem Parser.Ends.bind_error {e : ParseError CallLimit} (h : Ends p s (.error e) s') :
    Ends (fun d => p d >>= f d) s (.error e) s' := by
  obtain ⟨he, d, hd⟩ := h
  exact ⟨error_ne_limit he, d, hd.bind_error⟩

end Descent
