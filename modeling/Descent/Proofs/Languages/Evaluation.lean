import Descent.Proofs.Languages.Calculator
import Descent.Proofs.Languages.Recognition

/-!
# The calculator evaluates expressions

In front of tokens that write an expression, the rule of their level comes to the value
of the expression and to the tokens behind, or fails where the value does. The rules of
sums and products do not stop there: they go on as their tail does, called with the
value so far. So an operation that groups to the left is met by the tail that has the
value of its left operand already.
-/

namespace Descent.Languages.Calculator

open Descent.Parser

/-- The run of the first parser goes on as one of the second, called with the value, in front of the
rest of the tokens; or the action fails for which there is no value. -/
def Continues (p : Parser Kind ActionError Int64) (s : Standing Kind)
    (q : Int64 → Parser Kind ActionError Int64) (rest : List (Kind × Token)) :
    Except ActionError Int → Prop
  | .ok n => ∃ v u, v.toInt = n ∧ u.Holds .finish rest ∧
      ∀ ⦃o s'⦄, (q v).Gives u o s' → p.Gives s o s'
  | .error f => ∃ s', p.Gives s (.error (.action f)) s'

/-- Behind an expression comes an operator of a sum, a parenthesis that closes, or the end. -/
def CanFollow (rest : List (Kind × Token)) : Prop :=
  ∀ x ∈ rest.head?, x.1 ∈ [Kind.plus, .minus, .rparen]

namespace Continues

variable {p p' : Parser Kind ActionError Int64} {s u : Standing Kind}
  {q q' : Int64 → Parser Kind ActionError Int64} {rest rest' ts : List (Kind × Token)}
  {r : Except ActionError Int} {g : Int → Except ActionError Int}

private theorem of_gives (h : ∀ ⦃o s'⦄, p'.Gives u o s' → p.Gives s o s')
    (h' : Continues p' u q rest r) : Continues p s q rest r := by
  cases r with
  | ok n =>
      obtain ⟨v, w, hv, hw, hgo⟩ := h'
      exact ⟨v, w, hv, hw, fun o s' hrun => h (hgo hrun)⟩
  | error f =>
      obtain ⟨s', hfail⟩ := h'
      exact ⟨s', h hfail⟩

/-- What a run goes on as may go on as something else. -/
theorem trans (h : Continues p s q rest r)
    (h' : ∀ v u, u.Holds .finish rest → Continues (q v) u q' rest' (g v.toInt)) :
    Continues p s q' rest' (r >>= g) := by
  cases r with
  | ok n =>
      obtain ⟨v, u, rfl, hu, hgo⟩ := h
      exact (h' v u hu).of_gives hgo
  | error f => exact h

/-- What follows a parser is called with its value. -/
theorem bind (h : Continues p s pure rest r) : Continues (p >>= q) s q rest r := by
  cases r with
  | ok n =>
      obtain ⟨v, u, hv, hu, hgo⟩ := h
      exact ⟨v, u, hv, hu, fun o s' hrun => (hgo rfl).bind hrun⟩
  | error f =>
      obtain ⟨s', hfail⟩ := h
      exact ⟨s', hfail.bind_error⟩

/-- A parser that does nothing goes on with its own value. -/
theorem pure (v : Int64) (hs : s.Holds .finish rest) :
    Continues (pure v) s pure rest (.ok v.toInt) :=
  ⟨v, s, rfl, hs, fun _ _ hrun => hrun⟩

/-- An operation is computed where the parser stands. -/
theorem operate {c : Except ArithmeticError Int64} (hs : s.Holds .finish rest) :
    Continues (operate c) s Pure.pure rest ((c.map Int64.toInt).mapError .arithmetic) := by
  cases c with
  | ok v => exact ⟨v, s, rfl, hs, fun _ _ hrun => hrun⟩
  | error cause => exact ⟨s, rfl⟩

/-- A token of which nothing but its kind matters is taken. -/
theorem mark {k : Kind} {t : Token} {f : Unit → Parser Kind ActionError Int64}
    (hs : s.Holds .finish ((k, t) :: ts))
    (h : ∀ u, u.Holds .finish ts → Continues (f ()) u q rest r) :
    Continues (mark k >>= f) s q rest r := by
  obtain ⟨hkind, -, u, hnext, hu⟩ := hs.next_of_cons
  have htake : (Calculator.mark k).Gives s (.ok ()) u :=
    gives_terminal_token.mpr ⟨hkind, rfl, hnext⟩
  exact (h u hu).of_gives fun o s' hrun => htake.bind hrun

/-- An operation on the value so far and the operand behind the operator. -/
theorem step {op : Operator} {t : Token} {acc : Int64} (hs : s.Holds .finish ((op.kind, t) :: ts))
    (hp : ∀ u, u.Holds .finish ts → Continues p u Pure.pure rest r) :
    Continues (do
      Calculator.mark op.kind
      let right ← p
      q (← Calculator.operate (op.compute acc right))) s q rest
      (r >>= fun b => (op.apply acc.toInt b).mapError .arithmetic) := by
  refine mark hs fun u hu => (hp u hu).bind.trans fun b w hw => ?_
  rw [← toInt_compute]
  exact (operate hw).bind

end Continues

private theorem kind_of_canFollow {s : Standing Kind} {rest : List (Kind × Token)}
    (hrest : CanFollow rest)
    (hs : s.Holds .finish rest) : s.kind ∈ [Kind.plus, .minus, .rparen, .finish] := by
  rw [hs.kind_eq]
  cases rest with
  | nil => simp
  | cons x rest =>
      have hx := hrest x rfl
      simp only [List.mem_cons, List.not_mem_nil, or_false] at hx ⊢
      rcases hx with h | h | h <;> simp [h]

/-- In front of what can follow an expression, a product is its value so far. -/
theorem termTail_continues {fuel : Nat} {acc : Int64} {s : Standing Kind}
    {rest : List (Kind × Token)} (hrest : CanFollow rest) (hs : s.Holds .finish rest)
    (hfuel : 0 < fuel) : Continues (termTail fuel acc) s pure rest (.ok acc.toInt) := by
  obtain ⟨fuel, rfl⟩ := Nat.exists_eq_succ_of_ne_zero (Nat.ne_of_gt hfuel)
  refine (Continues.pure acc hs).of_gives fun o s' hrun => ?_
  rw [termTail, gives_kind_bind]
  have hkind := kind_of_canFollow hrest hs
  simp only [List.mem_cons, List.not_mem_nil, or_false] at hkind
  rcases hkind with h | h | h | h <;> rw [h] <;> exact hrun

/-- Tokens that are written begin with those of an operand. -/
theorem Writes.begins {level : Level} {ts : List (Kind × Token)} {e : Expr}
    (h : Writes level ts e) : ∃ k t us, ts = (k, t) :: us ∧ k ∈ [Kind.num, .minus, .lparen] := by
  induction h with
  | number t => exact ⟨_, _, _, rfl, by decide⟩
  | group l r _ _ => exact ⟨_, _, _, rfl, by decide⟩
  | negative t _ _ => exact ⟨_, _, _, rfl, by decide⟩
  | ofFactor _ ih => exact ih
  | product _ _ _ _ ih _ =>
      obtain ⟨k, t, us, rfl, hk⟩ := ih
      exact ⟨k, t, _, rfl, hk⟩
  | ofProduct _ ih => exact ih
  | sum _ _ _ _ ih _ =>
      obtain ⟨k, t, us, rfl, hk⟩ := ih
      exact ⟨k, t, _, rfl, hk⟩

/-- What the rule of the level does in front of tokens, behind which the rest comes: it comes to the
value, or goes on as the tail does. The rest of a sum has to end it. The calls suffice for four rules
between two tokens, and one or two more where a product or a sum begins. -/
def Level.Evaluates (level : Level) (ts rest : List (Kind × Token))
    (r : Except ActionError Int) : Prop :=
  match level with
  | .factor => ∀ fuel s, s.Holds .finish (ts ++ rest) → 4 * (ts ++ rest).length ≤ fuel →
      Continues (Calculator.factor fuel) s pure rest r
  | .product => ∀ fuel s, s.Holds .finish (ts ++ rest) → 4 * (ts ++ rest).length + 1 ≤ fuel →
      ∃ left, 4 * rest.length + 1 ≤ left ∧ Continues (term fuel) s (termTail left) rest r
  | .sum => CanFollow rest →
      ∀ fuel s, s.Holds .finish (ts ++ rest) → 4 * (ts ++ rest).length + 2 ≤ fuel →
      ∃ left, 4 * rest.length + 1 ≤ left ∧ Continues (expr fuel) s (exprTail left) rest r

section

variable {ts us rest : List (Kind × Token)} {r r' : Except ActionError Int} {fuel : Nat}
  {s : Standing Kind}

/-- A product that the rest ends is evaluated as a whole. -/
theorem continues_term (h : Level.Evaluates .product ts rest r) (hrest : CanFollow rest)
    (hs : s.Holds .finish (ts ++ rest)) (hfuel : 4 * (ts ++ rest).length + 1 ≤ fuel) :
    Continues (term fuel) s pure rest r := by
  obtain ⟨left, hleft, hgo⟩ := h fuel s hs hfuel
  rw [← bind_pure r]
  exact hgo.trans fun v u hu => termTail_continues hrest hu (by omega)

/-- A number evaluates to its value. -/
theorem evaluates_number (t : Token) :
    Level.Evaluates .factor [(.num, t)] rest (Expr.number t.text).value := by
  intro fuel s hs hfuel
  obtain ⟨fuel, rfl⟩ : ∃ n, fuel = n + 1 := ⟨fuel - 1, by simp at hfuel; omega⟩
  obtain ⟨hkind, rfl, u, hnext, hu⟩ := hs.next_of_cons
  have hrun : ∀ ⦃o s'⦄, (terminal Kind.num Kind.num.name numberOf).Gives s o s' →
      (factor (fuel + 1)).Gives s o s' := by
    intro o s' hrun
    rw [factor, gives_kind_bind, hkind]
    exact hrun
  rw [← toInt_numberOf]
  cases hnumber : numberOf s.token with
  | ok v =>
      refine ⟨v, u, rfl, hu, fun o s' hdone => ?_⟩
      obtain ⟨rfl, rfl⟩ := gives_pure.mp hdone
      exact hrun (gives_terminal_token.mpr ⟨hkind, hnumber, hnext⟩)
  | error f => exact ⟨s, hrun (terminal_of_failure hkind hnumber)⟩

/-- Parentheses around a sum are a factor of the same value. -/
theorem evaluates_group (l t : Token)
    (h : ∀ rest, Level.Evaluates .sum ts rest r) :
    Level.Evaluates .factor ((.lparen, l) :: ts ++ [(.rparen, t)]) rest r := by
  intro fuel s hs hfuel
  simp only [List.cons_append, List.append_assoc, List.nil_append] at hs hfuel
  simp only [List.length_cons, List.length_append] at hfuel
  obtain ⟨fuel, rfl⟩ : ∃ n, fuel = n + 1 := ⟨fuel - 1, by omega⟩
  have hkind : s.kind = .lparen := hs.kind_eq
  have hrun : Continues (do
      mark .lparen
      let value ← expr fuel
      mark .rparen
      return value) s pure rest r := by
    refine .mark hs fun u hu => ?_
    have hrest : CanFollow ((.rparen, t) :: rest) := by simp [CanFollow]
    obtain ⟨left, hleft, hgo⟩ := h ((.rparen, t) :: rest) hrest fuel u hu
      (by simp only [List.length_cons, List.length_append]; omega)
    obtain ⟨left, rfl⟩ : ∃ n, left = n + 1 := ⟨left - 1, by omega⟩
    -- the tail of the sum meets the parenthesis that closes, and returns
    have hexpr : Continues (expr fuel) u pure ((.rparen, t) :: rest) (r >>= pure) := by
      refine hgo.trans fun v w hw => (Continues.pure v hw).of_gives fun o s' hdone => ?_
      rw [exprTail, gives_kind_bind, hw.kind_eq]
      exact hdone
    rw [← bind_pure r, ← bind_pure r]
    exact hexpr.bind.trans fun v w hw => .mark hw fun x hx => .pure v hx
  refine hrun.of_gives fun o s' hrun => ?_
  rw [factor, gives_kind_bind, hkind]
  exact hrun

/-- A minus sign in front of a factor evaluates to the negative of its value. -/
theorem evaluates_negative (t : Token) (h : Level.Evaluates .factor ts rest r) :
    Level.Evaluates .factor ((.minus, t) :: ts) rest
      (r >>= fun v => (within (-v)).mapError .arithmetic) := by
  intro fuel s hs hfuel
  simp only [List.cons_append, List.length_cons] at hs hfuel
  obtain ⟨fuel, rfl⟩ : ∃ n, fuel = n + 1 := ⟨fuel - 1, by omega⟩
  have hkind : s.kind = .minus := hs.kind_eq
  have hrun : Continues (do
      mark .minus
      let value ← factor fuel
      operate (neg value)) s pure rest (r >>= fun v => (within (-v)).mapError .arithmetic) := by
    refine .mark hs fun u hu => (h fuel u hu (by omega)).bind.trans fun v w hw => ?_
    rw [← toInt_neg]
    exact .operate hw
  refine hrun.of_gives fun o s' hrun => ?_
  rw [factor, gives_kind_bind, hkind]
  exact hrun

/-- A factor evaluates as a product. -/
theorem evaluates_ofFactor (hbegins : ∃ k t us, ts = (k, t) :: us ∧ k ∈ [Kind.num, .minus, .lparen])
    (h : Level.Evaluates .factor ts rest r) : Level.Evaluates .product ts rest r := by
  intro fuel s hs hfuel
  obtain ⟨k, t, us, rfl, hk⟩ := hbegins
  simp only [List.cons_append, List.length_cons, List.length_append] at hs hfuel
  obtain ⟨fuel, rfl⟩ : ∃ n, fuel = n + 1 := ⟨fuel - 1, by omega⟩
  have hkind : s.kind = k := hs.kind_eq
  have hfactor : Continues (factor fuel) s pure rest r :=
    h fuel s hs (by simp only [List.cons_append, List.length_cons, List.length_append]; omega)
  refine ⟨fuel, by omega, hfactor.bind.of_gives fun o s' hrun => ?_⟩
  rw [term, gives_kind_bind, hkind]
  simp only [List.mem_cons, List.not_mem_nil, or_false] at hk
  rcases hk with rfl | rfl | rfl <;> exact hrun

/-- A product and a factor with a sign between them evaluate as the operation says. -/
theorem evaluates_product {op : Operator} (t : Token) (hop : op.isProduct = true)
    (h : Level.Evaluates .product ts ((op.kind, t) :: us ++ rest) r)
    (h' : Level.Evaluates .factor us rest r') :
    Level.Evaluates .product (ts ++ (op.kind, t) :: us) rest
      (r >>= fun a => r' >>= fun b => (op.apply a b).mapError .arithmetic) := by
  intro fuel s hs hfuel
  rw [List.append_assoc] at hs hfuel
  obtain ⟨left, hleft, hgo⟩ := h fuel s hs hfuel
  simp only [List.cons_append, List.length_cons] at hleft
  obtain ⟨left, rfl⟩ : ∃ n, left = n + 1 := ⟨left - 1, by omega⟩
  refine ⟨left, by rw [List.length_append] at hleft; omega, hgo.trans fun a u hu => ?_⟩
  have hkind : u.kind = op.kind := hu.kind_eq
  have hoperand : ∀ w, w.Holds .finish (us ++ rest) → Continues (factor left) w pure rest r' :=
    fun w hw => h' left w hw (by omega)
  refine (Continues.step hu hoperand).of_gives fun o s' hrun => ?_
  rw [termTail, gives_kind_bind, hkind]
  cases op with
  | mul | div => exact hrun
  | add | sub => cases hop

/-- A product evaluates as a sum. -/
theorem evaluates_ofProduct
    (hbegins : ∃ k t us, ts = (k, t) :: us ∧ k ∈ [Kind.num, .minus, .lparen])
    (h : Level.Evaluates .product ts rest r) : Level.Evaluates .sum ts rest r := by
  intro hrest fuel s hs hfuel
  obtain ⟨k, t, us, rfl, hk⟩ := hbegins
  obtain ⟨fuel, rfl⟩ : ∃ n, fuel = n + 1 := ⟨fuel - 1, by omega⟩
  have hkind : s.kind = k := hs.kind_eq
  have hterm : Continues (term fuel) s pure rest r := continues_term h hrest hs (by omega)
  rw [List.length_append] at hfuel
  refine ⟨fuel, by omega, hterm.bind.of_gives fun o s' hrun => ?_⟩
  rw [expr, gives_kind_bind, hkind]
  simp only [List.mem_cons, List.not_mem_nil, or_false] at hk
  rcases hk with rfl | rfl | rfl <;> exact hrun

/-- A sum and a product with a sign between them evaluate as the operation says. -/
theorem evaluates_sum {op : Operator} (t : Token) (hop : op.isProduct = false)
    (h : Level.Evaluates .sum ts ((op.kind, t) :: us ++ rest) r)
    (h' : Level.Evaluates .product us rest r') :
    Level.Evaluates .sum (ts ++ (op.kind, t) :: us) rest
      (r >>= fun a => r' >>= fun b => (op.apply a b).mapError .arithmetic) := by
  intro hrest fuel s hs hfuel
  rw [List.append_assoc] at hs hfuel
  -- for the left operand the operator is what ends it
  have hoperator : CanFollow ((op.kind, t) :: us ++ rest) := by
    cases op with
    | add | sub => simp [CanFollow, Operator.kind]
    | mul | div => cases hop
  obtain ⟨left, hleft, hgo⟩ := h hoperator fuel s hs hfuel
  simp only [List.cons_append, List.length_cons] at hleft
  obtain ⟨left, rfl⟩ : ∃ n, left = n + 1 := ⟨left - 1, by omega⟩
  refine ⟨left, by rw [List.length_append] at hleft; omega, hgo.trans fun a u hu => ?_⟩
  have hkind : u.kind = op.kind := hu.kind_eq
  have hoperand : ∀ w, w.Holds .finish (us ++ rest) → Continues (term left) w pure rest r' :=
    fun w hw => continues_term h' hrest hw (by omega)
  refine (Continues.step hu hoperand).of_gives fun o s' hrun => ?_
  rw [exprTail, gives_kind_bind, hkind]
  cases op with
  | add | sub => exact hrun
  | mul | div => cases hop

end

/-- In front of tokens that write an expression, the rule of their level evaluates it. -/
theorem Writes.evaluates {level : Level} {ts : List (Kind × Token)} {e : Expr}
    (h : Writes level ts e) (rest : List (Kind × Token)) : level.Evaluates ts rest e.value := by
  -- the rest is general, as the left operand of an operation has the operator in its rest
  induction h generalizing rest with
  | number t => exact evaluates_number t
  | group l r _ ih => exact evaluates_group l r ih
  | negative t _ ih => exact evaluates_negative t (ih rest)
  | ofFactor h ih => exact evaluates_ofFactor h.begins (ih rest)
  | product t hop _ _ ih ih' => exact evaluates_product t hop (ih _) (ih' rest)
  | ofProduct h ih => exact evaluates_ofProduct h.begins (ih rest)
  | sum t hop _ _ ih ih' => exact evaluates_sum t hop (ih _) (ih' rest)

private theorem gives_parse {s s' : Standing Kind} {o : Except (ParseError ActionError) Int64} :
    parse.Gives s o s' ↔ (whole .finish (expr (4 * (s.upcoming.length + 2)))).Gives s o s' := by
  rw [parse]
  exact gives_get_bind

section

variable {s : Standing Kind} {ts : List (Kind × Token)} {e : Expr}

/-- In front of tokens up to the end that write an expression, the parser comes to its value, or the
action fails for which there is none. -/
theorem parse_of_writes (hproper : s.upcoming.Proper .finish)
    (htokens : s.upcoming.tokens? = some ts) (he : Writes .sum ts e) :
    (∃ v s', parse.Gives s (.ok v) s' ∧ e.value = .ok v.toInt) ∨
      ∃ cause s', parse.Gives s (.error (.action cause)) s' ∧ e.value = .error cause := by
  obtain ⟨u, hnext, hu⟩ := Standing.next_of_tokens? hproper htokens
  have hadvance : (advance : Parser Kind ActionError Unit).Gives s (.ok ()) u :=
    gives_advance_ok.mpr hnext
  have hlength : ts.length = s.upcoming.length := Stream.length_of_tokens? htokens
  obtain ⟨left, hleft, hgo⟩ := he.evaluates [] (by simp [CanFollow])
    (4 * (s.upcoming.length + 2)) u (by rwa [List.append_nil]) (by rw [List.append_nil]; omega)
  cases hvalue : e.value with
  | ok n =>
      rw [hvalue] at hgo
      obtain ⟨v, w, rfl, hw, hgo⟩ := hgo
      have htail : (exprTail left v).Gives w (.ok v) w := by
        obtain ⟨left, rfl⟩ : ∃ m, left = m + 1 := ⟨left - 1, by omega⟩
        rw [exprTail, gives_kind_bind, hw.kind_of_nil]
        exact gives_pure.mpr ⟨rfl, rfl⟩
      refine Or.inl ⟨v, w, gives_parse.mpr ?_, rfl⟩
      exact gives_whole_ok.mpr ⟨u, hadvance, hgo htail, hw.kind_of_nil⟩
  | error cause =>
      rw [hvalue] at hgo
      obtain ⟨s', hfail⟩ := hgo
      exact Or.inr ⟨cause, s', gives_parse.mpr (whole_error hadvance hfail), rfl⟩

/-- Where the parser succeeds, the tokens up to the end write an expression. -/
theorem writes_of_parse {s' : Standing Kind} {v : Int64} (hproper : s.upcoming.Proper .finish)
    (h : parse.Gives s (.ok v) s') :
    ∃ ts e, s.upcoming.tokens? = some ts ∧ Writes .sum ts e := by
  obtain ⟨u, hadvance, hexpr, hend⟩ := gives_whole_ok.mp (gives_parse.mp h)
  obtain ⟨ts, ⟨e, he⟩, htakes⟩ := (allFind _).expr hexpr
  have hnext := gives_advance_ok.mp hadvance
  refine ⟨ts, e, ?_, he⟩
  calc s.upcoming.tokens?
      = u.tokens? .finish := (Standing.tokens?_next hproper hnext).symm
    _ = (s'.tokens? .finish).map (ts ++ ·) :=
        htakes.tokens?_eq (Standing.proper_next hproper hnext)
    _ = some ts := by rw [Standing.tokens?_of_end hend, Option.map_some, List.append_nil]

end

/-- The tokens of a text up to the end, with their kinds; none if no token begins somewhere. -/
def tokens? (source : String) : Option (List (Kind × Token)) :=
  lexicon?.bind fun lexicon => (lexicon.stream source).tokens?

section

variable {lexicon : Lexicon Kind} {source : String}

/-- Only the end of a text is of the kind of the end. -/
theorem proper_stream (hlexicon : lexicon? = some lexicon) (source : String) :
    (lexicon.stream source).Proper .finish :=
  Lexicon.proper_stream_of_ofPatterns? hlexicon (by decide) source

/-- A text evaluates to what the parser comes to on its tokens. -/
theorem eval_of_gives (hlexicon : lexicon? = some lexicon) {o : Except (ParseError ActionError) Int64}
    {s' : Standing Kind} (hrun : parse.Gives (.new lexicon source) o s') :
    eval source = o.mapError .parse := by
  simp only [eval, hlexicon, hrun.fst_run]
  cases o <;> rfl

end

/-- The calculator is the checked evaluator from left to right. A text whose tokens write an
expression has the value of the expression, and where that fails the action fails with the same cause;
the failure gives its arithmetic error, and none for a number that is too large. Any other text fails. -/
theorem eval_exact (source : String) :
    (∀ ts e, tokens? source = some ts → Writes .sum ts e →
      (∀ v, eval source = .ok v ↔ e.value = .ok v.toInt) ∧
      ∀ failure, eval source = .error failure ↔ ∃ cause, e.value = .error cause ∧
        failure = .parse (.action cause) ∧
        (cause = .numberTooLarge ∧ failure.arithmetic? = none ∨
          ∃ a, cause = .arithmetic a ∧ failure.arithmetic? = some a)) ∧
    ((tokens? source = none ∨ ∃ ts, tokens? source = some ts ∧ ∀ e, ¬ Writes .sum ts e) →
      ∃ failure, eval source = .error failure) := by
  obtain ⟨lexicon, hlexicon⟩ := Option.isSome_iff_exists.mp isSome_lexicon?
  have hproper : (Standing.new lexicon source).upcoming.Proper .finish :=
    proper_stream hlexicon source
  have htokens : tokens? source = (Standing.new lexicon source).upcoming.tokens? := by
    rw [tokens?, hlexicon]
    rfl
  rw [htokens]
  refine ⟨fun ts e hts he => ?_, fun hnone => ?_⟩
  · rcases parse_of_writes hproper hts he with ⟨v, s', hrun, hvalue⟩ | ⟨cause, s', hrun, hvalue⟩
    · rw [eval_of_gives hlexicon hrun, hvalue]
      refine ⟨fun w => ?_, fun failure => ?_⟩
      · simp [Except.mapError, Int64.toInt_inj]
      · simp [Except.mapError]
    · rw [eval_of_gives hlexicon hrun, hvalue]
      refine ⟨fun w => by simp [Except.mapError], fun failure => ⟨?_, ?_⟩⟩
      · intro h
        obtain rfl := Except.error.inj h
        refine ⟨cause, rfl, rfl, ?_⟩
        rcases Expr.value_error hvalue with rfl | ⟨a, rfl⟩
        · exact Or.inl ⟨rfl, rfl⟩
        · exact Or.inr ⟨a, rfl, rfl⟩
      · rintro ⟨cause', h, rfl, -⟩
        obtain rfl := Except.error.inj h
        rfl
  · obtain ⟨o, s', hrun⟩ := exists_gives parse (.new lexicon source)
    rw [eval_of_gives hlexicon hrun]
    cases o with
    | error f => exact ⟨.parse f, rfl⟩
    | ok v =>
        obtain ⟨ts, e, hts, he⟩ := writes_of_parse hproper hrun
        rcases hnone with hnone | ⟨ts', hts', hno⟩
        · cases hnone.symm.trans hts
        · obtain rfl := Option.some.inj (hts.symm.trans hts')
          exact absurd he (hno e)

/-- Differences group to the left, a division by zero fails, and so does a text that is no
sequence of tokens. -/
theorem eval_exact_grouping :
    (∃ ts e, tokens? "8 - 2 - 3" = some ts ∧ Writes .sum ts e ∧ e.value = .ok 3) ∧
      eval "8 - 2 - 3" = .ok 3 ∧
      eval "1 / 0" = .error (.parse (.action (.arithmetic .divisionByZero))) ∧
      ∃ failure, eval "1 $" = .error failure := by
  have hdifference : tokens? "8 - 2 - 3" =
      some [(.num, ⟨"NUM", "8", 0⟩), (.minus, ⟨"MINUS", "-", 2⟩), (.num, ⟨"NUM", "2", 4⟩),
        (.minus, ⟨"MINUS", "-", 6⟩), (.num, ⟨"NUM", "3", 8⟩)] := by decide +kernel
  have hquotient : tokens? "1 / 0" =
      some [(.num, ⟨"NUM", "1", 0⟩), (.slash, ⟨"SLASH", "/", 2⟩), (.num, ⟨"NUM", "0", 4⟩)] := by
    decide +kernel
  have hfactor : ∀ t, Writes .factor [(.num, t)] (.number t.text) := Writes.number
  have hleft : Writes .sum _ (.operation .sub (.number "8") (.number "2")) :=
    .sum ⟨"MINUS", "-", 2⟩ rfl (hfactor ⟨"NUM", "8", 0⟩).ofFactor.ofProduct
      (hfactor ⟨"NUM", "2", 4⟩).ofFactor
  have hwrites : Writes .sum _ (.operation .sub (.operation .sub (.number "8") (.number "2"))
      (.number "3")) :=
    .sum ⟨"MINUS", "-", 6⟩ rfl hleft (hfactor ⟨"NUM", "3", 8⟩).ofFactor
  have hwrites' : Writes .product _ (.operation .div (.number "1") (.number "0")) :=
    .product ⟨"SLASH", "/", 2⟩ rfl (hfactor ⟨"NUM", "1", 0⟩).ofFactor (hfactor ⟨"NUM", "0", 4⟩)
  refine ⟨⟨_, _, hdifference, hwrites, by decide⟩, ?_, ?_, ?_⟩
  · exact (((eval_exact "8 - 2 - 3").1 _ _ hdifference hwrites).1 3).mpr (by decide)
  · exact (((eval_exact "1 / 0").1 _ _ hquotient hwrites'.ofProduct).2 _).mpr
      ⟨_, by decide, rfl, Or.inr ⟨_, rfl, rfl⟩⟩
  · exact (eval_exact "1 $").2 (Or.inl (by decide +kernel))

end Descent.Languages.Calculator
