import Descent.Proofs.Languages.Expression
import Descent.Proofs.Tokens.Listing

/-!
# What the calculator takes is written

Wherever a rule of the calculator succeeds, the tokens that it took write an expression
at the level of the rule. The tail of a sum or a product extends what is written in
front of it.
-/

namespace Descent.Languages.Calculator

open Descent.Parser

/-- The tokens write an expression, at a level of the grammar. -/
def Written (level : Level) (ts : List (Kind × Token)) : Prop := ∃ e, Writes level ts e

namespace Written

variable {ts us : List (Kind × Token)} {op : Operator} {t : Token}

private theorem product (hop : op.isProduct = true) (h : Written .product ts)
    (h' : Written .factor us) : Written .product (ts ++ (op.kind, t) :: us) := by
  obtain ⟨e, he⟩ := h
  obtain ⟨f, hf⟩ := h'
  exact ⟨_, he.product t hop hf⟩

private theorem sum (hop : op.isProduct = false) (h : Written .sum ts) (h' : Written .product us) :
    Written .sum (ts ++ (op.kind, t) :: us) := by
  obtain ⟨e, he⟩ := h
  obtain ⟨f, hf⟩ := h'
  exact ⟨_, he.sum t hop hf⟩

end Written

/-- Where the parser succeeds it has taken tokens that are written at the level. -/
def Finds (level : Level) (p : Parser Kind ActionError Int64) : Prop :=
  ∀ ⦃s v s'⦄, p.Gives s (.ok v) s' → ∃ us, Written level us ∧ s.Takes .finish us s'

/-- Where the parser succeeds it has taken tokens that go on with what is written at the level. -/
def Extends (level : Level) (p : Parser Kind ActionError Int64) : Prop :=
  ∀ ⦃s v s'⦄, p.Gives s (.ok v) s' → ∃ us, s.Takes .finish us s' ∧
    ∀ ts, Written level ts → Written level (ts ++ us)

section

variable {level lower : Level} {p : Parser Kind ActionError Int64}
  {q : Int64 → Parser Kind ActionError Int64} {s s' : Standing Kind}

/-- Taking a token that is not the end. -/
theorem takes_of_mark {kind : Kind} (hkind : kind ≠ .finish)
    (h : (mark kind).Gives s (.ok ()) s') : ∃ t, s.Takes .finish [(kind, t)] s' := by
  obtain ⟨rfl, -, hnext⟩ := gives_terminal_token.mp h
  exact ⟨s.token, .single hkind hnext⟩

/-- An operation takes no token. -/
theorem stands_of_operate {r : Except ArithmeticError Int64} {v : Int64}
    (h : (operate r).Gives s (.ok v) s') : s' = s := by
  cases r with
  | ok c => exact (gives_pure.mp h).2
  | error cause => cases (gives_act_error.mp h).1

private theorem finds_unexpected (names : List String) : Finds level (unexpected names) := by
  intro s v s' h
  cases (gives_unexpected.mp h).1

private theorem extends_unexpected (names : List String) : Extends level (unexpected names) := by
  intro s v s' h
  cases (gives_unexpected.mp h).1

/-- Nothing more is written. -/
theorem extends_pure (v : Int64) : Extends level (pure v) := by
  intro s w s' h
  obtain ⟨-, rfl⟩ := gives_pure.mp h
  exact ⟨[], .refl s', fun ts hts => by rwa [List.append_nil]⟩

/-- An operand and the rest of the operations. -/
theorem Finds.chain (hlevel : ∀ {ts}, Written lower ts → Written level ts) (hp : Finds lower p)
    (hq : ∀ acc, Extends level (q acc)) : Finds level (p >>= q) := by
  intro s v s' h
  obtain ⟨left, u, hleft, hrest⟩ := gives_bind_ok.mp h
  obtain ⟨ts, hts, htakes⟩ := hp hleft
  obtain ⟨us, htakes', hextends⟩ := hq left hrest
  exact ⟨ts ++ us, hextends ts (hlevel hts), htakes.trans htakes'⟩

/-- An operation and the rest of the operations. -/
theorem Extends.step (op : Operator)
    (hlevel : ∀ {ts us t}, Written level ts → Written lower us →
      Written level (ts ++ (op.kind, t) :: us))
    (hp : Finds lower p) (hq : ∀ acc, Extends level (q acc)) (acc : Int64) :
    Extends level (do
      mark op.kind
      let right ← p
      q (← operate (op.compute acc right))) := by
  intro s v s' h
  obtain ⟨⟨⟩, s₁, hmark, h⟩ := gives_bind_ok.mp h
  obtain ⟨right, s₂, hright, h⟩ := gives_bind_ok.mp h
  obtain ⟨acc, s₃, hacc, hrest⟩ := gives_bind_ok.mp h
  obtain ⟨t, htake⟩ := takes_of_mark (by cases op <;> decide) hmark
  obtain ⟨us, hus, htakes⟩ := hp hright
  obtain rfl := stands_of_operate hacc
  obtain ⟨vs, htakes', hextends⟩ := hq acc hrest
  refine ⟨(op.kind, t) :: us ++ vs, (htake.trans htakes).trans htakes', fun ts hts => ?_⟩
  rw [← List.append_assoc]
  exact hextends _ (hlevel hts hus)

end

/-- What the rules take at one depth of calls is written. -/
structure AllFind (fuel : Nat) : Prop where
  expr : Finds .sum (expr fuel)
  exprTail : ∀ acc, Extends .sum (exprTail fuel acc)
  term : Finds .product (term fuel)
  termTail : ∀ acc, Extends .product (termTail fuel acc)
  factor : Finds .factor (factor fuel)

section

variable {fuel : Nat} (h : AllFind fuel)
include h

/-- The rule of sums finds sums if all rules find what they should with less fuel. -/
theorem finds_expr_succ : Finds .sum (expr (fuel + 1)) := by
  intro s v s' hrun
  rw [expr, gives_kind_bind] at hrun
  cases hkind : s.kind with
  | num | minus | lparen =>
      rw [hkind] at hrun
      exact Finds.chain (fun ⟨e, he⟩ => ⟨e, he.ofProduct⟩) h.term h.exprTail hrun
  | plus | star | slash | rparen | finish =>
      rw [hkind] at hrun
      exact finds_unexpected _ hrun

/-- The tail of a sum extends sums if all rules find what they should with less fuel. -/
theorem extends_exprTail_succ (acc : Int64) : Extends .sum (exprTail (fuel + 1) acc) := by
  intro s v s' hrun
  rw [exprTail, gives_kind_bind] at hrun
  cases hkind : s.kind with
  | plus =>
      rw [hkind] at hrun
      exact Extends.step .add (fun ht hu => ht.sum rfl hu) h.term h.exprTail acc hrun
  | minus =>
      rw [hkind] at hrun
      exact Extends.step .sub (fun ht hu => ht.sum rfl hu) h.term h.exprTail acc hrun
  | rparen | finish =>
      rw [hkind] at hrun
      exact extends_pure acc hrun
  | num | star | slash | lparen =>
      rw [hkind] at hrun
      exact extends_unexpected _ hrun

/-- The rule of products finds products if all rules find what they should with less fuel. -/
theorem finds_term_succ : Finds .product (term (fuel + 1)) := by
  intro s v s' hrun
  rw [term, gives_kind_bind] at hrun
  cases hkind : s.kind with
  | num | minus | lparen =>
      rw [hkind] at hrun
      exact Finds.chain (fun ⟨e, he⟩ => ⟨e, he.ofFactor⟩) h.factor h.termTail hrun
  | plus | star | slash | rparen | finish =>
      rw [hkind] at hrun
      exact finds_unexpected _ hrun

/-- The tail of a product extends products if all rules find what they should with less fuel. -/
theorem extends_termTail_succ (acc : Int64) : Extends .product (termTail (fuel + 1) acc) := by
  intro s v s' hrun
  rw [termTail, gives_kind_bind] at hrun
  cases hkind : s.kind with
  | star =>
      rw [hkind] at hrun
      exact Extends.step .mul (fun ht hu => ht.product rfl hu) h.factor h.termTail acc hrun
  | slash =>
      rw [hkind] at hrun
      exact Extends.step .div (fun ht hu => ht.product rfl hu) h.factor h.termTail acc hrun
  | plus | minus | rparen | finish =>
      rw [hkind] at hrun
      exact extends_pure acc hrun
  | num | lparen =>
      rw [hkind] at hrun
      exact extends_unexpected _ hrun

/-- The rule of factors finds factors if all rules find what they should with less fuel. -/
theorem finds_factor_succ : Finds .factor (factor (fuel + 1)) := by
  intro s v s' hrun
  rw [factor, gives_kind_bind] at hrun
  cases hkind : s.kind with
  | num =>
      rw [hkind] at hrun
      obtain ⟨hnum, -, hnext⟩ := gives_terminal_token.mp hrun
      exact ⟨_, ⟨_, .number s.token⟩, hnum ▸ .single (by rw [hnum]; decide) hnext⟩
  | lparen =>
      rw [hkind] at hrun
      obtain ⟨⟨⟩, s₁, hopen, hrun⟩ := gives_bind_ok.mp hrun
      obtain ⟨w, s₂, hexpr, hrun⟩ := gives_bind_ok.mp hrun
      obtain ⟨⟨⟩, s₃, hclose, hrun⟩ := gives_bind_ok.mp hrun
      obtain ⟨-, rfl⟩ := gives_pure.mp hrun
      obtain ⟨l, htakel⟩ := takes_of_mark (by decide) hopen
      obtain ⟨us, ⟨e, he⟩, htakes⟩ := h.expr hexpr
      obtain ⟨r, htaker⟩ := takes_of_mark (by decide) hclose
      exact ⟨_, ⟨e, he.group l r⟩, (htakel.trans htakes).trans htaker⟩
  | minus =>
      rw [hkind] at hrun
      obtain ⟨⟨⟩, s₁, hminus, hrun⟩ := gives_bind_ok.mp hrun
      obtain ⟨w, s₂, hfactor, hrun⟩ := gives_bind_ok.mp hrun
      obtain ⟨t, htake⟩ := takes_of_mark (by decide) hminus
      obtain ⟨us, ⟨e, he⟩, htakes⟩ := h.factor hfactor
      obtain rfl := stands_of_operate hrun
      exact ⟨_, ⟨_, he.negative t⟩, htake.trans htakes⟩
  | plus | star | slash | rparen | finish =>
      rw [hkind] at hrun
      exact finds_unexpected _ hrun

end

/-- Whatever the depth of calls, what the rules take is written. -/
theorem allFind (fuel : Nat) : AllFind fuel := by
  -- the rules call one another one call deeper, so they are treated together
  induction fuel with
  | zero =>
      exact ⟨finds_unexpected _, fun _ => extends_unexpected _, finds_unexpected _,
        fun _ => extends_unexpected _, finds_unexpected _⟩
  | succ fuel h =>
      exact ⟨finds_expr_succ h, extends_exprTail_succ h, finds_term_succ h,
        extends_termTail_succ h, finds_factor_succ h⟩

end Descent.Languages.Calculator
