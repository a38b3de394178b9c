import Descent.Languages.Arithmetic
import Mathlib.Algebra.Ring.Int.Defs

/-!
# Checked arithmetic is exact

An operation comes to the exact integer result where that is a 64-bit integer, and to an
overflow where it is not. A quotient is known by what it leaves: a remainder that is
smaller than the divisor, and zero or of the sign of the dividend. Unless the divisor is
zero there is one such quotient, and it is no larger than the dividend. So the only
quotient that overflows is `2 ^ 63`, that of the least number by minus one.
-/

namespace Descent.Languages

/-- The integer lies in the range of 64-bit integers, one of whose bits is the sign. -/
def Representable (n : Int) : Prop := -2 ^ 63 ≤ n ∧ n < 2 ^ 63

/-- A 64-bit integer can be represented. -/
theorem representable_toInt (v : Int64) : Representable v.toInt := ⟨v.le_toInt, v.toInt_lt⟩

/-- A number that can be represented is the exact result. -/
theorem exact_of_representable {n : Int} (h : Representable n) : exact n = .ok (Int64.ofInt n) :=
  if_pos h

/-- A number that cannot be represented overflows. -/
theorem exact_of_not_representable {n : Int} (h : ¬ Representable n) :
    exact n = .error .overflow :=
  if_neg h

private theorem exact_eq_ok_iff {n : Int} {v : Int64} : exact n = .ok v ↔ v.toInt = n := by
  constructor
  · intro h
    by_cases hn : Representable n
    · rw [exact_of_representable hn] at h
      rw [← Except.ok.inj h]
      exact Int64.toInt_ofInt_of_le hn.1 hn.2
    · rw [exact_of_not_representable hn] at h
      cases h
  · rintro rfl
    rw [exact_of_representable (representable_toInt v), Int64.ofInt_toInt]

/-- The outcome is the integer where that is representable, and an overflow where it is not. -/
structure Computes (r : Except ArithmeticError Int64) (n : Int) : Prop where
  ok_iff (v : Int64) : r = .ok v ↔ v.toInt = n
  returns_iff : (∃ v, r = .ok v) ↔ Representable n
  error_iff (e : ArithmeticError) : r = .error e ↔ e = .overflow ∧ ¬ Representable n

/-- A computation overflows exactly if its number cannot be represented. -/
theorem Computes.overflow_iff {r : Except ArithmeticError Int64} {n : Int} (h : Computes r n) :
    r = .error .overflow ↔ ¬ Representable n :=
  (h.error_iff .overflow).trans (and_iff_right rfl)

/-- The exact result of a number is computed. -/
theorem computes_exact (n : Int) : Computes (exact n) n := by
  refine ⟨fun v => exact_eq_ok_iff, ?_, fun e => ?_⟩
  · constructor
    · rintro ⟨v, h⟩
      exact exact_eq_ok_iff.mp h ▸ representable_toInt v
    · intro h
      exact ⟨_, exact_of_representable h⟩
  · constructor
    · intro h
      by_cases hn : Representable n
      · rw [exact_of_representable hn] at h
        cases h
      · rw [exact_of_not_representable hn] at h
        exact ⟨(Except.error.inj h).symm, hn⟩
    · rintro ⟨rfl, hn⟩
      exact exact_of_not_representable hn

/-- `q` is the quotient of `a` by `b` rounded toward zero, and `r` the remainder, which is smaller
than `b` and does not lie on the other side of zero than `a`. -/
structure Truncates (a b q r : Int) : Prop where
  eq : a = q * b + r
  natAbs_lt : r.natAbs < b.natAbs
  sign : r = 0 ∨ r.sign = a.sign

/-- Unless the divisor is zero there is one quotient and one remainder. -/
theorem truncates_iff {a b q r : Int} :
    Truncates a b q r ↔ b ≠ 0 ∧ q = a.tdiv b ∧ r = a.tmod b := by
  constructor
  · rintro ⟨heq, hlt, hsign⟩
    have hb : b ≠ 0 := by omega
    have hsum : r + b * q = a := by rw [heq, Int.add_comm, Int.mul_comm]
    -- uniqueness is known for each side of zero on which the dividend may lie
    rcases Int.le_total 0 a with ha | ha
    · have hr : 0 ≤ r := by
        rcases hsign with rfl | hsign
        · exact Int.le_refl 0
        · exact Int.sign_nonneg_iff.mp (hsign ▸ Int.sign_nonneg_iff.mpr ha)
      obtain ⟨rfl, rfl⟩ := (Int.tdiv_tmod_unique ha hb).mpr ⟨hsum, hr, by omega⟩
      exact ⟨hb, rfl, rfl⟩
    · have hr : r ≤ 0 := by
        rcases hsign with rfl | hsign
        · exact Int.le_refl 0
        · exact Int.sign_nonpos_iff.mp (hsign ▸ Int.sign_nonpos_iff.mpr ha)
      obtain ⟨rfl, rfl⟩ := (Int.tdiv_tmod_unique' ha hb).mpr ⟨hsum, by omega, hr⟩
      exact ⟨hb, rfl, rfl⟩
  · rintro ⟨hb, rfl, rfl⟩
    refine ⟨(Int.tdiv_mul_add_tmod a b).symm, ?_, ?_⟩
    · rw [Int.natAbs_tmod]
      exact Nat.mod_lt _ (Int.natAbs_pos.mpr hb)
    · by_cases hdvd : b ∣ a
      · exact Or.inl (Int.tmod_eq_zero_of_dvd hdvd)
      · exact Or.inr (by rw [Int.sign_tmod, if_neg hdvd])

/-- A representable dividend has a representable quotient, but for the least one by minus one. -/
theorem Truncates.representable_iff {a b q r : Int} (h : Truncates a b q r)
    (ha : Representable a) : Representable q ↔ ¬ (a = -2 ^ 63 ∧ b = -1) := by
  have hbound : q.natAbs ≤ a.natAbs := by
    rw [(truncates_iff.mp h).2.1]
    exact Int.natAbs_tdiv_le_natAbs a b
  obtain ⟨heq, hlt, -⟩ := h
  obtain ⟨hleast, hgreatest⟩ := ha
  constructor
  · rintro ⟨-, hq⟩ ⟨rfl, rfl⟩
    omega
  · intro hother
    -- by its bound the quotient is too large by one at most, and then the product fixes `a` and `b`
    have hne : q ≠ 2 ^ 63 := by
      rintro rfl
      omega
    exact ⟨by omega, by omega⟩

/-- The outcome is the quotient of the two numbers rounded toward zero, or a failure where the
divisor is zero, or an overflow where the quotient is not representable. -/
structure ComputesQuotient (r : Except ArithmeticError Int64) (a b : Int64) : Prop where
  divisionByZero_iff : r = .error .divisionByZero ↔ b = 0
  overflow_iff : r = .error .overflow ↔
    ∃ q rest, Truncates a.toInt b.toInt q rest ∧ ¬ Representable q
  overflow_iff_least : r = .error .overflow ↔ a = Int64.minValue ∧ b = -1
  ok_iff (q : Int64) : r = .ok q ↔ ∃ rest, Truncates a.toInt b.toInt q.toInt rest
  returns_iff : (∃ q, r = .ok q) ↔ b ≠ 0 ∧ ¬ (a = Int64.minValue ∧ b = -1)

private theorem toInt_eq_zero_iff {b : Int64} : b.toInt = 0 ↔ b = 0 := Int64.toInt_inj (y := 0)

private theorem toInt_least_iff {a b : Int64} :
    a.toInt = -2 ^ 63 ∧ b.toInt = -1 ↔ a = Int64.minValue ∧ b = -1 :=
  and_congr (Int64.toInt_inj (y := Int64.minValue)) (Int64.toInt_inj (y := -1))

/-- A quotient is exact where the divisor is not zero. -/
theorem div_of_toInt_ne_zero (a : Int64) {b : Int64} (hb : b.toInt ≠ 0) :
    div a b = exact (a.toInt.tdiv b.toInt) :=
  if_neg hb

/-- Division by zero is computed as its fault. -/
theorem computesQuotient_div_zero (a : Int64) : ComputesQuotient (div a 0) a 0 := by
  have hdiv : div a 0 = .error .divisionByZero := if_pos rfl
  have hnone : ∀ q rest, ¬ Truncates a.toInt 0 q rest :=
    fun q rest h => (truncates_iff.mp h).1 rfl
  rw [hdiv]
  constructor <;> simp [hnone]

/-- Division by any other number is computed as the quotient. -/
theorem computesQuotient_div_of_ne_zero (a : Int64) {b : Int64} (hb : b ≠ 0) :
    ComputesQuotient (div a b) a b := by
  have hb' : b.toInt ≠ 0 := mt toInt_eq_zero_iff.mp hb
  have hquotient : Truncates a.toInt b.toInt (a.toInt.tdiv b.toInt) (a.toInt.tmod b.toInt) :=
    truncates_iff.mpr ⟨hb', rfl, rfl⟩
  have hunique : ∀ q rest, Truncates a.toInt b.toInt q rest → q = a.toInt.tdiv b.toInt :=
    fun q rest h => (truncates_iff.mp h).2.1
  have hrange : Representable (a.toInt.tdiv b.toInt) ↔ ¬ (a = Int64.minValue ∧ b = -1) :=
    (hquotient.representable_iff (representable_toInt a)).trans (not_congr toInt_least_iff)
  have hcomputes : Computes (div a b) (a.toInt.tdiv b.toInt) := by
    rw [div_of_toInt_ne_zero a hb']
    exact computes_exact _
  constructor
  case divisionByZero_iff => simp [hcomputes.error_iff, hb]
  case overflow_iff =>
    rw [hcomputes.overflow_iff]
    constructor
    · intro h
      exact ⟨_, _, hquotient, h⟩
    · rintro ⟨q, rest, htruncates, h⟩
      exact hunique q rest htruncates ▸ h
  case overflow_iff_least => rw [hcomputes.overflow_iff, hrange, Classical.not_not]
  case ok_iff =>
    intro q
    rw [hcomputes.ok_iff]
    constructor
    · intro h
      exact ⟨_, h ▸ hquotient⟩
    · rintro ⟨rest, htruncates⟩
      exact hunique q.toInt rest htruncates
  case returns_iff =>
    rw [hcomputes.returns_iff, hrange]
    exact (and_iff_right hb).symm

/-- Checked arithmetic is exact. A sum, difference, product or negative is the exact integer, and an
overflow just where that is not representable. A quotient is the exact one rounded toward zero; it
fails just where the divisor is zero, and overflows just for the least number by minus one. -/
theorem arithmetic_exact (a b : Int64) :
    Computes (add a b) (a.toInt + b.toInt) ∧ Computes (sub a b) (a.toInt - b.toInt) ∧
      Computes (mul a b) (a.toInt * b.toInt) ∧ Computes (neg a) (-a.toInt) ∧
      ComputesQuotient (div a b) a b := by
  refine ⟨computes_exact _, computes_exact _, computes_exact _, computes_exact _, ?_⟩
  by_cases hb : b = 0
  · rw [hb]
    exact computesQuotient_div_zero a
  · exact computesQuotient_div_of_ne_zero a hb

example : div (-7) 2 = .ok (-3) := rfl

example : div Int64.minValue (-1) = .error .overflow := rfl

end Descent.Languages
