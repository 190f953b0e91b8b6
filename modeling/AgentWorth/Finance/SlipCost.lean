import AgentWorth.Lib.MathOps

/-!
# The cost of a habit

`src/finance/slipCost.ts`: what a recurring spend comes to, and what the same
money would grow to if it were invested at the cadence it is spent at.
-/

namespace AgentWorth.Finance

open AgentWorth.Js AgentWorth.Lib

inductive SlipCadence where
  | daily
  | weekly
  | monthly
  deriving DecidableEq

/-- `OCCURRENCES_PER_YEAR`. -/
def occurrencesPerYear : SlipCadence → ℕ
  | .daily => 365
  | .weekly => 52
  | .monthly => 12

structure SlipCost where
  annualMinor : JsNumber
  totalSpentMinor : JsNumber
  futureValueIfInvestedMinor : JsNumber
  foregoneGrowthMinor : JsNumber
  deriving DecidableEq

structure SlipCostInput where
  amountMinor : JsNumber
  cadence : SlipCadence
  years : JsNumber
  annualGrowthRate : Option JsNumber

/-- `slipCost`; `none` when the loop never ends, over an infinite horizon. -/
def slipCost (input : SlipCostInput) : Option SlipCost := do
  let perYear : JsNumber := occurrencesPerYear input.cadence
  let annualMinor := (input.amountMinor * perYear).round
  let totalSpentMinor := (annualMinor * input.years).round
  let rate := input.annualGrowthRate.getD 0
  let periods := mathMax 0 (perYear * input.years).round
  let futureValueIfInvestedMinor ←
    (if rate ≤ 0 then some (input.amountMinor * periods)
    else
      let perPeriodRate := rate / perYear
      (forBelow periods (fun pot => pot * (1 + perPeriodRate) + input.amountMinor) 0).map
        JsNumber.round)
  let foregoneGrowthMinor :=
    mathMax 0 (futureValueIfInvestedMinor - input.amountMinor * periods)
  some { annualMinor, totalSpentMinor, futureValueIfInvestedMinor, foregoneGrowthMinor }

/-! ## In rationals -/

/-- The whole periods of a horizon. -/
def periodsIn (perYear : ℕ) (years : ℚ) : ℕ := (round (perYear * years)).toNat

theorem mathMax_periods (perYear : ℕ) (years : ℚ) :
    mathMax 0 (.fin (round (perYear * years) : ℤ)) = .fin (periodsIn perYear years : ℕ) := by
  rw [JsNumber.ofNat_eq_fin, mathMax_fin, periodsIn]
  congr 1
  norm_cast
  omega

/-- What was paid in whole pence needs no rounding. -/
theorem round_paidIn (payment pot n : ℕ) :
    round ((pot : ℚ) + payment * n) = ((pot + payment * n : ℕ) : ℤ) := by
  rw [← round_natCast (α := ℚ) (pot + payment * n)]
  push_cast
  rfl

/-- A pot and payments in whole pence never round to less than was paid in. -/
theorem le_round_accrue {rate : ℚ} (hrate : 0 ≤ rate) (payment pot n : ℕ) :
    (pot + payment * n : ℚ) ≤ round ((accrue rate (payment : ℚ))^[n] pot) := by
  have hgrown := le_iterate_accrue n hrate (Nat.cast_nonneg payment) (Nat.cast_nonneg (α := ℚ) pot)
  have hround := round_le_round hgrown
  rw [round_paidIn] at hround
  exact_mod_cast hround

/-- The grinding loop, and the branch without growth, give the rounded value of
an annuity. -/
theorem grind_eq {rate : ℚ} (hrate : 0 ≤ rate) {perYear : ℕ} (hyear : perYear ≠ 0)
    (payment pot n : ℕ) {start flat : JsNumber} (hstart : start = .fin (pot : ℚ))
    (hflat : flat = .fin (pot + payment * n)) :
    (if JsNumber.fin rate ≤ 0 then some flat
      else (forBelow (.fin (n : ℚ))
        (fun pot => pot * (1 + JsNumber.fin rate / .fin (perYear : ℚ)) + .fin (payment : ℚ))
        start).map JsNumber.round) =
      some (.fin (round ((accrue (rate / perYear) (payment : ℚ))^[n] pot) : ℤ)) := by
  by_cases hzero : rate = 0
  · rw [if_pos (by simp [hzero]), hzero, zero_div, iterate_accrue_flat, round_paidIn, hflat]
    push_cast
    rfl
  · have hpos : ¬ JsNumber.fin rate ≤ 0 := by
      rw [JsNumber.ofNat_eq_fin, JsNumber.fin_le_fin]
      exact fun h => hzero (le_antisymm (by exact_mod_cast h) hrate)
    rw [if_neg hpos, JsNumber.fin_div_fin _ (by exact_mod_cast hyear), forBelow_natCast, hstart,
      iterate_growth_fin, Option.map_some, round_fin]

/-- The growth of a rounded pot needs no clamping. -/
theorem mathMax_growth {rate : ℚ} (hrate : 0 ≤ rate) (payment pot n : ℕ) :
    mathMax 0 (.fin (round ((accrue rate (payment : ℚ))^[n] pot) : ℤ) - .fin pot -
      .fin (payment * n)) =
    .fin (round ((accrue rate (payment : ℚ))^[n] pot) : ℤ) - .fin pot - .fin (payment * n) := by
  have hfloor := le_round_accrue hrate payment pot n
  rw [JsNumber.fin_sub_fin, JsNumber.fin_sub_fin, JsNumber.ofNat_eq_fin, mathMax_fin,
    max_eq_right]
  push_cast
  linarith

/-- **What a habit costs, in rationals**: its amount for every period, and the
value of the annuity of its amount. -/
theorem slipCost_fin (amount : ℕ) (cadence : SlipCadence) (years : ℚ) {rate : ℚ}
    {given : Option JsNumber} (hgiven : given.getD 0 = .fin rate) (hrate : 0 ≤ rate) :
    ∃ cost, slipCost ⟨amount, cadence, .fin years, given⟩ = some cost ∧
      cost.futureValueIfInvestedMinor =
        .fin (round ((accrue (rate / occurrencesPerYear cadence) (amount : ℚ))^[
          periodsIn (occurrencesPerYear cadence) years] 0) : ℤ) ∧
      cost.foregoneGrowthMinor =
        cost.futureValueIfInvestedMinor -
          .fin (amount * periodsIn (occurrencesPerYear cadence) years) := by
  have hyear : occurrencesPerYear cadence ≠ 0 := by cases cadence <;> decide
  set n := periodsIn (occurrencesPerYear cadence) years with hn
  have hstart : (0 : JsNumber) = .fin ((0 : ℕ) : ℚ) := rfl
  have hflat : JsNumber.fin (amount * n) = .fin ((0 : ℕ) + amount * n) := by simp
  have hgrind := grind_eq hrate hyear amount 0 n hstart hflat
  have hgrowth := mathMax_growth (div_nonneg hrate
    (Nat.cast_nonneg (occurrencesPerYear cadence))) amount 0 n
  rw [Nat.cast_zero] at hgrind hgrowth
  rw [JsNumber.fin_sub_fin _ 0, sub_zero] at hgrowth
  unfold slipCost
  simp only [hgiven, JsNumber.natCast_eq_fin, fin_mul_fin, round_fin, mathMax_periods, ← hn,
    hgrind]
  exact ⟨_, rfl, rfl, hgrowth⟩

end AgentWorth.Finance
