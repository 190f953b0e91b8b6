import Mathlib.Algebra.Field.GeomSum
import Mathlib.Algebra.Order.BigOperators.Ring.Finset
import Mathlib.Tactic.FieldSimp
import Mathlib.Tactic.GCongr
import Mathlib.Tactic.Linarith
import Mathlib.Tactic.Ring

/-!
# The ordinary annuity

A pot that grows at a fixed rate every period and takes a payment at the end of
each.  Iterating the period is compounding the pot and summing a geometric
series of payments; from that come the closed form and what a higher payment or
rate does.
-/

namespace AgentWorth.Lib

/-- One period: the pot grows at the rate, then the payment lands. -/
def accrue {K : Type*} [Semiring K] (rate payment pot : K) : K := pot * (1 + rate) + payment

section

variable {K : Type*} [Field K]

/-- What one payment each period comes to after `n` periods. -/
def payments (rate : K) (n : ℕ) : K := ∑ k ∈ Finset.range n, (1 + rate) ^ k

/-- The closed form of a pot after `n` periods. -/
def futureValue [DecidableEq K] (rate payment pot : K) (n : ℕ) : K :=
  if rate = 0 then pot + payment * n
  else pot * (1 + rate) ^ n + payment * ((1 + rate) ^ n - 1) / rate

variable (rate payment pot : K) (n m : ℕ)

theorem payments_succ : payments rate (n + 1) = payments rate n * (1 + rate) + 1 := by
  unfold payments
  rw [Finset.sum_range_succ', Finset.sum_mul]
  simp only [pow_succ, pow_zero]

/-- **Periods one after the other** compound the pot and sum the payments. -/
theorem iterate_accrue :
    (accrue rate payment)^[n] pot = pot * (1 + rate) ^ n + payment * payments rate n := by
  induction n with
  | zero => simp [payments]
  | succ n ih =>
      rw [Function.iterate_succ_apply', ih, accrue, payments_succ]
      ring

theorem iterate_accrue_zero : (accrue rate 0)^[n] pot = pot * (1 + rate) ^ n := by
  rw [iterate_accrue]
  ring

/-- Without growth the payments add up. -/
theorem iterate_accrue_flat : (accrue 0 payment)^[n] pot = pot + payment * n := by
  rw [iterate_accrue]
  simp [payments]

theorem iterate_accrue_eq_futureValue [DecidableEq K] :
    (accrue rate payment)^[n] pot = futureValue rate payment pot n := by
  unfold futureValue
  by_cases hrate : rate = 0
  · rw [if_pos hrate, hrate, iterate_accrue_flat]
  · have hgeom : payments rate n = ((1 + rate) ^ n - 1) / rate := by
      unfold payments
      rw [geom_sum_eq (by simpa using hrate), add_sub_cancel_left]
    rw [if_neg hrate, iterate_accrue, hgeom, mul_div_assoc]

end

section

variable {K : Type*} [Field K] [LinearOrder K] [IsStrictOrderedRing K]
  {rate rate' payment payment' pot : K} (n : ℕ)

theorem le_payments (hrate : 0 ≤ rate) : (n : K) ≤ payments rate n := by
  induction n with
  | zero => simp [payments]
  | succ n ih =>
      have hsum : 0 ≤ payments rate n := le_trans (Nat.cast_nonneg n) ih
      have hgrown := mul_nonneg hsum hrate
      rw [payments_succ]
      push_cast
      linarith

theorem payments_le (hrate : 0 ≤ rate) (h : rate ≤ rate') :
    payments rate n ≤ payments rate' n := by
  unfold payments
  gcongr with k

/-- A pot never falls behind what was paid into it. -/
theorem le_iterate_accrue (hrate : 0 ≤ rate) (hpayment : 0 ≤ payment) (hpot : 0 ≤ pot) :
    pot + payment * n ≤ (accrue rate payment)^[n] pot := by
  have hone : 1 ≤ (1 + rate) ^ n := one_le_pow₀ (by linarith)
  have hgrown : pot * 1 ≤ pot * (1 + rate) ^ n := mul_le_mul_of_nonneg_left hone hpot
  have hpaid := mul_le_mul_of_nonneg_left (le_payments n hrate) hpayment
  rw [iterate_accrue]
  linarith

/-- Paying more, at a higher rate, never leaves less. -/
theorem iterate_accrue_mono (hrate : 0 ≤ rate) (h : rate ≤ rate') (hpayment : 0 ≤ payment)
    (h' : payment ≤ payment') :
    (accrue rate payment)^[n] 0 ≤ (accrue rate' payment')^[n] 0 := by
  have hsum : (0 : K) ≤ payments rate n := le_trans (Nat.cast_nonneg n) (le_payments n hrate)
  rw [iterate_accrue, iterate_accrue, zero_mul, zero_mul, zero_add, zero_add]
  calc payment * payments rate n
      ≤ payment' * payments rate n := mul_le_mul_of_nonneg_right h' hsum
    _ ≤ payment' * payments rate' n :=
        mul_le_mul_of_nonneg_left (payments_le n hrate h) (le_trans hpayment h')

end

end AgentWorth.Lib
