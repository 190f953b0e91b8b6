import AgentWorth.Finance.SlipCost

/-!
# Retirement projections

`src/finance/retirementSim.ts`: the pot at the horizon, what a larger
contribution adds to it, and what starting later costs.  The projection grinds
month by month; over the rationals it is the value of an annuity, rounded once,
and the same number `slipCost` gives for the contribution as a monthly habit.
-/

namespace AgentWorth.Finance

open AgentWorth.Js AgentWorth.Lib

/-- `MONTHS_PER_YEAR`. -/
def monthsPerYear : ℕ := 12

structure RetirementBase where
  currentPotMinor : JsNumber
  monthlyContributionMinor : JsNumber
  yearsToRetirement : JsNumber
  annualGrowthRate : JsNumber

structure RetirementProjection where
  projectedPotMinor : JsNumber
  totalContributedMinor : JsNumber
  growthMinor : JsNumber
  deriving DecidableEq

/-- `projectRetirement`; `none` when the loop never ends, over an infinite
horizon. -/
def projectRetirement (base : RetirementBase) : Option RetirementProjection := do
  let months := mathMax 0 (base.yearsToRetirement * (monthsPerYear : ℕ)).round
  let rate := base.annualGrowthRate
  let contribution := base.monthlyContributionMinor
  let totalContributedMinor := contribution * months
  let projectedPotMinor ←
    (if rate ≤ 0 then some (base.currentPotMinor + totalContributedMinor)
    else
      let perMonthRate := rate / (monthsPerYear : ℕ)
      (forBelow months (fun pot => pot * (1 + perMonthRate) + contribution)
        base.currentPotMinor).map JsNumber.round)
  let growthMinor :=
    mathMax 0 (projectedPotMinor - base.currentPotMinor - totalContributedMinor)
  some { projectedPotMinor, totalContributedMinor, growthMinor }

structure StartNowVsLaterInput extends RetirementBase where
  delayYears : JsNumber

structure StartNowVsLaterResult where
  startNowPotMinor : JsNumber
  startLaterPotMinor : JsNumber
  costOfWaitingMinor : JsNumber
  deriving DecidableEq

def startNowVsLater (input : StartNowVsLaterInput) : Option StartNowVsLaterResult := do
  let startNow ← projectRetirement input.toRetirementBase
  let remainingYears := mathMax 0 (input.yearsToRetirement - input.delayYears)
  let potAtStart ← projectRetirement
    { currentPotMinor := input.currentPotMinor
      monthlyContributionMinor := 0
      yearsToRetirement := mathMin input.delayYears input.yearsToRetirement
      annualGrowthRate := input.annualGrowthRate }
  let startLater ← projectRetirement
    { currentPotMinor := potAtStart.projectedPotMinor
      monthlyContributionMinor := input.monthlyContributionMinor
      yearsToRetirement := remainingYears
      annualGrowthRate := input.annualGrowthRate }
  some
    { startNowPotMinor := startNow.projectedPotMinor
      startLaterPotMinor := startLater.projectedPotMinor
      costOfWaitingMinor :=
        mathMax 0 (startNow.projectedPotMinor - startLater.projectedPotMinor) }

/-! ## The projection in rationals -/

/-- The pot of an annuity after some months, to the penny. -/
def potAfter (rate : ℚ) (contribution pot : ℕ) (months : ℕ) : ℤ :=
  round ((accrue (rate / monthsPerYear) (contribution : ℚ))^[months] pot)

/-- **A projection in rationals**: the pot of the annuity, rounded, and its
growth over what was paid in. -/
theorem projectRetirement_fin (pot contribution : ℕ) (years : ℚ) {rate : ℚ} (hrate : 0 ≤ rate) :
    ∃ projection, projectRetirement ⟨pot, contribution, .fin years, .fin rate⟩ = some projection ∧
      projection.projectedPotMinor =
        .fin (potAfter rate contribution pot (periodsIn monthsPerYear years)) ∧
      projection.growthMinor = projection.projectedPotMinor - pot -
        .fin (contribution * periodsIn monthsPerYear years) := by
  have hyear : monthsPerYear ≠ 0 := by decide
  set n := periodsIn monthsPerYear years with hn
  have hflat : JsNumber.fin pot + .fin (contribution * n) = .fin (pot + contribution * n) := rfl
  have hgrind := grind_eq hrate hyear contribution pot n rfl hflat
  have hgrowth := mathMax_growth (div_nonneg hrate (Nat.cast_nonneg monthsPerYear))
    contribution pot n
  unfold projectRetirement
  simp only [JsNumber.natCast_eq_fin, fin_mul_fin, round_fin, mul_comm years, mathMax_periods,
    ← hn, hgrind]
  exact ⟨_, rfl, rfl, hgrowth⟩

theorem periodsIn_of_nonneg {perYear : ℕ} {years : ℚ} (h : 0 ≤ years) :
    (periodsIn perYear years : ℤ) = round (perYear * years) := by
  have hround := round_le_round (mul_nonneg (Nat.cast_nonneg (α := ℚ) perYear) h)
  rw [round_zero] at hround
  exact Int.toNat_of_nonneg hround

/-- **The projection is the annuity formula**, rounded, with its growth unclamped;
and starting from nothing it is what `slipCost` gives for the contribution as a
monthly habit. -/
theorem projection_closed_form (pot contribution : ℕ) {years rate : ℚ} {given : Option JsNumber}
    (hyears : 0 ≤ years) (hrate : 0 ≤ rate) (hgiven : given.getD 0 = .fin rate) :
    ∃ (n : ℕ) (projection : RetirementProjection) (cost : SlipCost),
      (n : ℤ) = round (12 * years) ∧
      projectRetirement ⟨pot, contribution, .fin years, .fin rate⟩ = some projection ∧
      slipCost ⟨contribution, .monthly, .fin years, given⟩ = some cost ∧
      projection.projectedPotMinor =
        .fin (round (futureValue (rate / 12) (contribution : ℚ) pot n) : ℤ) ∧
      projection.growthMinor =
        projection.projectedPotMinor - pot - .fin (contribution * n) ∧
      (pot = 0 → projection.projectedPotMinor = cost.futureValueIfInvestedMinor ∧
        projection.growthMinor = cost.foregoneGrowthMinor) := by
  obtain ⟨projection, hprojection, hpot, hgrowth⟩ :=
    projectRetirement_fin pot contribution years hrate
  obtain ⟨cost, hcost, hvalue, hforegone⟩ :=
    slipCost_fin contribution .monthly years hgiven hrate
  have hmonths : (periodsIn monthsPerYear years : ℤ) = round (12 * years) :=
    periodsIn_of_nonneg hyears
  refine ⟨periodsIn monthsPerYear years, projection, cost, hmonths, hprojection, hcost, ?_, hgrowth,
    fun hnothing => ?_⟩
  · rw [hpot, potAfter, iterate_accrue_eq_futureValue]
    rfl
  · have hsame : projection.projectedPotMinor = cost.futureValueIfInvestedMinor := by
      rw [hpot, hvalue, potAfter, hnothing, Nat.cast_zero]
      rfl
    refine ⟨hsame, ?_⟩
    rw [hgrowth, hforegone, hsame, hvalue, hnothing, JsNumber.natCast_eq_fin,
      JsNumber.fin_sub_fin _ ((0 : ℕ) : ℚ), Nat.cast_zero, sub_zero]
    rfl

/-- Ten years of ten pounds a month at five per cent. -/
theorem projection_closed_form_ten_years :
    ∃ (n : ℕ) (projection : RetirementProjection) (cost : SlipCost),
      (n : ℤ) = round (12 * 10 : ℚ) ∧
      projectRetirement ⟨(0 : ℕ), (1000 : ℕ), .fin 10, .fin (1 / 20)⟩ = some projection ∧
      slipCost ⟨(1000 : ℕ), .monthly, .fin 10, some (.fin (1 / 20))⟩ = some cost ∧
      projection.growthMinor = cost.foregoneGrowthMinor := by
  obtain ⟨n, projection, cost, hn, hprojection, hcost, -, -, hsame⟩ :=
    projection_closed_form 0 1000 (by norm_num : (0 : ℚ) ≤ 10)
      (by norm_num : (0 : ℚ) ≤ 1 / 20) (rfl : (some (JsNumber.fin (1 / 20))).getD 0 = _)
  exact ⟨n, projection, cost, hn, hprojection, hcost, (hsame rfl).2⟩

end AgentWorth.Finance
