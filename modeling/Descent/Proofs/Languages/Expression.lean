import Descent.Languages.Calculator
import Descent.Proofs.Languages.Arithmetic
import Mathlib.Data.Nat.Digits.Defs

/-!
# Expressions and their values

The reference for the calculator. An expression is a number, the negative of an
expression, or an operation on two; which tokens write it is said by a grammar with
three levels, in which sums and products group to the left. Its value is computed with
exact integers: left operand, right operand, then the operation. The first number or
result that is no 64-bit integer, and the first division by zero, are failures.
-/

namespace Descent.Languages.Calculator

/-- An operation on two numbers. -/
inductive Operator where
  | add
  | sub
  | mul
  | div
deriving DecidableEq, Repr

namespace Operator

/-- The kind of the token that writes the operation. -/
def kind : Operator → Kind
  | add => .plus
  | sub => .minus
  | mul => .star
  | div => .slash

/-- The operation binds its operands like a product. -/
def isProduct : Operator → Bool
  | add | sub => false
  | mul | div => true

end Operator

/-- An expression. A number is given by its digits. -/
inductive Expr where
  | number (digits : String)
  | negative (e : Expr)
  | operation (op : Operator) (left right : Expr)
deriving DecidableEq, Repr

/-- The levels of the grammar: `sum` is a term with more terms added or subtracted, `product` a
factor with more factors multiplied or divided by, and `factor` one operand. -/
inductive Level where
  | sum
  | product
  | factor
deriving DecidableEq, Repr

/-- The tokens write the expression, at a level of the grammar. -/
inductive Writes : Level → List (Kind × Token) → Expr → Prop where
  | number (t : Token) : Writes .factor [(.num, t)] (.number t.text)
  | group {ts : List (Kind × Token)} {e : Expr} (l r : Token) (h : Writes .sum ts e) :
      Writes .factor ((.lparen, l) :: ts ++ [(.rparen, r)]) e
  | negative {ts : List (Kind × Token)} {e : Expr} (t : Token) (h : Writes .factor ts e) :
      Writes .factor ((.minus, t) :: ts) (.negative e)
  | ofFactor {ts : List (Kind × Token)} {e : Expr} (h : Writes .factor ts e) :
      Writes .product ts e
  | product {ts us : List (Kind × Token)} {e f : Expr} {op : Operator} (t : Token)
      (hop : op.isProduct = true) (h : Writes .product ts e) (h' : Writes .factor us f) :
      Writes .product (ts ++ (op.kind, t) :: us) (.operation op e f)
  | ofProduct {ts : List (Kind × Token)} {e : Expr} (h : Writes .product ts e) : Writes .sum ts e
  | sum {ts us : List (Kind × Token)} {e f : Expr} {op : Operator} (t : Token)
      (hop : op.isProduct = false) (h : Writes .sum ts e) (h' : Writes .product us f) :
      Writes .sum (ts ++ (op.kind, t) :: us) (.operation op e f)

/-- The number is a 64-bit integer, or too large or too small for one. -/
def within (n : Int) : Except ArithmeticError Int :=
  if -2 ^ 63 ≤ n ∧ n < 2 ^ 63 then .ok n else .error .overflow

/-- The result of an operation on integers; a division rounds toward zero. -/
def Operator.apply : Operator → Int → Int → Except ArithmeticError Int
  | add, a, b => within (a + b)
  | sub, a, b => within (a - b)
  | mul, a, b => within (a * b)
  | div, a, b => if b = 0 then .error .divisionByZero else within (a.tdiv b)

/-- The number that decimal digits write, the last of which counts the units. -/
def decimal (digits : String) : Nat :=
  Nat.ofDigits 10 (digits.toList.reverse.map fun c => c.toNat - '0'.toNat)

/-- The value of an expression, or the first failure on the way to it. -/
def Expr.value : Expr → Except ActionError Int
  | number digits =>
    if decimal digits < 2 ^ 63 then .ok (decimal digits) else .error .numberTooLarge
  | negative e => do
    let v ← e.value
    (within (-v)).mapError .arithmetic
  | operation op left right => do
    let a ← left.value
    let b ← right.value
    (op.apply a b).mapError .arithmetic

/-- An expression fails in arithmetic or on a number that is too large. -/
theorem Expr.value_error {e : Expr} {f : ActionError} (h : e.value = .error f) :
    f = .numberTooLarge ∨ ∃ cause, f = .arithmetic cause := by
  have harithmetic : ∀ {r : Except ArithmeticError Int},
      r.mapError ActionError.arithmetic = .error f → ∃ cause, f = .arithmetic cause := by
    intro r hr
    cases r with
    | ok n => cases hr
    | error cause => exact ⟨cause, (Except.error.inj hr).symm⟩
  induction e with
  | number digits =>
      rw [value] at h
      split at h
      · cases h
      · exact Or.inl (Except.error.inj h).symm
  | negative e ih =>
      rw [value] at h
      cases he : e.value with
      | error f' => exact ih (by rw [he] at h ⊢; exact h)
      | ok v =>
          rw [he] at h
          exact Or.inr (harithmetic h)
  | operation op left right ihl ihr =>
      rw [value] at h
      cases hl : left.value with
      | error f' => exact ihl (by rw [hl] at h ⊢; exact h)
      | ok a =>
          cases hr : right.value with
          | error f' => exact ihr (by rw [hl, hr] at h; rw [hr]; exact h)
          | ok b =>
              rw [hl, hr] at h
              exact Or.inr (harithmetic h)

/-! The operations of the calculator are the exact ones, as far as these go. -/

/-- The operation as the calculator computes it. -/
def Operator.compute : Operator → Int64 → Int64 → Except ArithmeticError Int64
  | add => Languages.add
  | sub => Languages.sub
  | mul => Languages.mul
  | div => Languages.div

/-- An exact result is the number where it is within the range. -/
theorem toInt_exact (n : Int) : (exact n).map Int64.toInt = within n := by
  by_cases h : Representable n
  · have hwithin : within n = .ok n := if_pos h
    rw [exact_of_representable h, hwithin]
    exact congrArg Except.ok (Int64.toInt_ofInt_of_le h.1 h.2)
  · have hwithin : within n = .error .overflow := if_neg h
    rw [exact_of_not_representable h, hwithin]
    rfl

/-- An operation on 64-bit integers is the one on their values, within the range. -/
theorem toInt_compute (op : Operator) (a b : Int64) :
    (op.compute a b).map Int64.toInt = op.apply a.toInt b.toInt := by
  cases op with
  | add => exact toInt_exact _
  | sub => exact toInt_exact _
  | mul => exact toInt_exact _
  | div =>
      rw [Operator.compute, Operator.apply]
      by_cases hb : b.toInt = 0
      · rw [Languages.div, if_pos hb, if_pos hb]
        rfl
      · rw [div_of_toInt_ne_zero a hb, if_neg hb]
        exact toInt_exact _

/-- The negative of a 64-bit integer is that of its value, within the range. -/
theorem toInt_neg (a : Int64) : (neg a).map Int64.toInt = within (-a.toInt) := toInt_exact _

/-- Digits are read from the left, and count from the right. -/
theorem digitsValue_eq (digits : String) : digitsValue digits.toList = decimal digits := by
  rw [decimal, Nat.ofDigits_eq_foldr, List.foldr_map, List.foldr_reverse, digitsValue]
  congr 1
  funext n c
  exact Nat.add_comm _ _

/-- The number of a token is the value of its text. -/
theorem toInt_numberOf (t : Token) :
    (numberOf t).map Int64.toInt = (Expr.number t.text).value := by
  have hexact := toInt_exact (decimal t.text)
  -- the function is unfolded as a whole, as its value at a token makes the bound be counted out
  have hdef : numberOf = numberOf := rfl
  conv at hdef => rhs; delta numberOf
  have hnumber := congrFun hdef t
  rw [hnumber, digitsValue_eq, Expr.value]
  by_cases h : decimal t.text < 2 ^ 63
  · rw [within, if_pos ⟨by omega, by omega⟩] at hexact
    rw [if_pos h]
    cases hn : exact (decimal t.text) with
    | ok n =>
        rw [hn] at hexact
        exact congrArg Except.ok (Except.ok.inj hexact)
    | error cause =>
        rw [hn] at hexact
        cases hexact
  · rw [within, if_neg (by omega)] at hexact
    rw [if_neg h]
    cases hn : exact (decimal t.text) with
    | ok n =>
        rw [hn] at hexact
        cases hexact
    | error cause => rfl

end Descent.Languages.Calculator
