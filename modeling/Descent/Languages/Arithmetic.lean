/-!
# Checked arithmetic

Arithmetic on 64-bit signed integers in which an operation fails rather than wrap
around.
-/

namespace Descent.Languages

/-- Why an operation has no result. -/
inductive ArithmeticError where
  | divisionByZero
  | overflow
deriving DecidableEq, Repr

/-- The message of a failed operation. -/
def ArithmeticError.message : ArithmeticError → String
  | divisionByZero => "division by zero"
  | overflow => "integer overflow"

/-- The number as a 64-bit integer, if it is one. -/
def exact (n : Int) : Except ArithmeticError Int64 :=
  if -0x8000000000000000 ≤ n ∧ n < 0x8000000000000000 then .ok (Int64.ofInt n) else .error .overflow

/-- The checked sum. -/
def add (a b : Int64) : Except ArithmeticError Int64 := exact (a.toInt + b.toInt)

/-- The checked difference. -/
def sub (a b : Int64) : Except ArithmeticError Int64 := exact (a.toInt - b.toInt)

/-- The checked product. -/
def mul (a b : Int64) : Except ArithmeticError Int64 := exact (a.toInt * b.toInt)

/-- Division toward zero. -/
def div (a b : Int64) : Except ArithmeticError Int64 :=
  if b.toInt = 0 then .error .divisionByZero else exact (a.toInt.tdiv b.toInt)

/-- The checked negative. -/
def neg (a : Int64) : Except ArithmeticError Int64 := exact (-a.toInt)

end Descent.Languages
