import AgentWorth.Finance.Goals
import AgentWorth.Lib.Effect
import AgentWorth.Lib.Json

/-!
# Forecasts

`src/finance/forecast.ts`: the month a goal is reached at the current
contribution.  Without growth the months are a division; with growth they are
ground out one by one up to a hundred years, and the date is the months as
thirty days each.
-/

namespace AgentWorth.Finance

open AgentWorth.Js AgentWorth.Lib

inductive ForecastStatus where
  | behind
  | onTrack
  | ahead
  | stalled
  | reached
  deriving DecidableEq

structure GoalForecast where
  goalId : String
  plan : GoalPlan
  currentMonthlyMinor : JsNumber
  monthsAtCurrentRate : Option JsNumber
  projectedDate : Option String
  monthlyGapMinor : JsNumber
  status : ForecastStatus
  nextAction : String
  deriving DecidableEq

structure ForecastOptions where
  currentMonthlyMinor : Option JsNumber
  monthlyGrowthRate : Option JsNumber

/-! ## Texts -/

/-- `x.toFixed(2)`: the nearest hundredth, the larger of two; from `10 ** 21` on
the number as it prints. -/
def toFixed2 : JsNumber → String
  | .fin q =>
      if (10 : ℚ) ^ 21 ≤ |q| then toString (JsNumber.fin q)
      else
        let n := (|q| * 100 + 1 / 2).floor.toNat
        String.ofList ((if q < 0 then ['-'] else []) ++ Nat.toDigits 10 (n / 100) ++
          '.' :: (Nat.toDigits 10 (n % 100)).leftpad 2 '0')
  | x => toString x

def pounds (minor : JsNumber) : String :=
  let major := minor / 100
  if major.isInteger then toString major else toFixed2 major

/-- `iso.slice(0, 10)`, in UTF-16. -/
def shortDate : Option String → String
  | some iso => if iso = "" then "—" else String.ofList (Json.ofUnits ((utf16 iso).take 10))
  | none => "—"

/-- `\w` of a regular expression. -/
def isWordChar (c : Char) : Bool := c.isAlphanum || c == '_'

/-- `/\b(house|home|deposit|property|flat|mortgage|lisa)\b/i`: one of the words of
the label, in any case. -/
def isHouseGoal (g : FinancialGoal) : Bool :=
  (g.label.toList.splitOnP fun c => !isWordChar c).any fun word =>
    String.ofList (word.map Char.toLower) ∈
      ["house", "home", "deposit", "property", "flat", "mortgage", "lisa"]

def lisaHint (g : FinancialGoal) : String :=
  if isHouseGoal g then " (a LISA earns a 25% bonus on a first home)" else ""

/-! ## The months to a target -/

/-- `cap` of the loop: a hundred years. -/
def monthsCap : ℕ := 1200

/-- The loop of `monthsToTarget`, with the months left until its cap. -/
def grindMonths (remaining monthly growthRate : JsNumber) : ℕ → JsNumber → ℕ → ℕ
  | 0, _, months => months
  | left + 1, pot, months =>
      if pot < remaining then
        grindMonths remaining monthly growthRate left (pot * (1 + growthRate) + monthly)
          (months + 1)
      else months

/-- `monthsToTarget`. -/
def monthsToTarget (remaining monthly : JsNumber) (growthRate : Option JsNumber) : JsNumber :=
  match growthRate with
  | none => mathCeil (remaining / monthly)
  | some rate =>
      if rate = 0 ∨ rate = .nan ∨ rate ≤ 0 then mathCeil (remaining / monthly)
      else (grindMonths remaining monthly rate monthsCap 0 0 : ℕ)

/-- `currentMonthly`: the contribution given, else the surplus. -/
def currentMonthly (profile : FinancialProfile) (opts : ForecastOptions) : JsNumber :=
  opts.currentMonthlyMinor.getD (mathMax 0 (monthlySurplusMinor profile))

/-- The status and the next action of a goal not yet reached. -/
def headline (goal : FinancialGoal) (plan : GoalPlan) (monthly monthlyGap : JsNumber)
    (projectedDate : Option String) : ForecastStatus × String :=
  if monthly ≤ 0 then
    (.stalled, "No monthly room to save — free up surplus (trim essentials or lift income) " ++
      "before setting an auto-save.")
  else match plan.requiredMonthlyMinor with
    | none =>
        (.onTrack, "Open-ended — at £" ++ pounds monthly ++ "/mo you reach it by " ++
          shortDate projectedDate ++ ". Automate it so it just happens.")
    | some required =>
        if 0 < monthlyGap then
          (.behind, "Behind by £" ++ pounds monthlyGap ++ "/mo. Set up an auto-save of £" ++
            pounds required ++ "/mo" ++ lisaHint goal ++ " to land on time.")
        else if required < monthly then
          (.ahead, "Ahead of pace — you could hit it early (" ++ shortDate projectedDate ++
            ") or ease the auto-save to £" ++ pounds required ++ "/mo.")
        else
          (.onTrack, "On track at £" ++ pounds monthly ++ "/mo — automate it" ++ lisaHint goal ++
            " so it stays on course to " ++
            shortDate (if plan.monthsRemaining = none then projectedDate
              else goal.deadline.or projectedDate) ++ ".")

/-- The forecast of a goal not yet reached. -/
def openForecast (goal : FinancialGoal) (plan : GoalPlan) (monthly : JsNumber)
    (monthsAtCurrentRate : Option JsNumber) (projectedDate : Option String) : GoalForecast :=
  let monthlyGap := match plan.requiredMonthlyMinor with
    | none => 0
    | some required => mathMax 0 (required - monthly)
  let status := headline goal plan monthly monthlyGap projectedDate
  { goalId := goal.id
    plan
    currentMonthlyMinor := monthly
    monthsAtCurrentRate
    projectedDate
    monthlyGapMinor := monthlyGap
    status := status.1
    nextAction := status.2 }

/-- `forecastGoal`; fails where the projected date is none a `Date` can hold. -/
def forecastGoal (profile : FinancialProfile) (goal : FinancialGoal) (now : String)
    (opts : ForecastOptions) : Except String GoalForecast := do
  let plan := planGoal goal profile now
  let monthly := currentMonthly profile opts
  if plan.remainingMinor = 0 then
    return {
      goalId := goal.id
      plan
      currentMonthlyMinor := monthly
      monthsAtCurrentRate := none
      projectedDate := none
      monthlyGapMinor := 0
      status := .reached
      nextAction := "Goal reached — redirect this saving to the next objective." }
  let monthsAtCurrentRate :=
    if 0 < monthly then some (monthsToTarget plan.remainingMinor monthly opts.monthlyGrowthRate)
    else none
  let projectedDate ← match monthsAtCurrentRate with
    | none => pure none
    | some months =>
        (Date.toISOString (Date.getTime now + months * (msPerMonth : ℕ))).map some
  return openForecast goal plan monthly monthsAtCurrentRate projectedDate

/-! ## The loop and the division -/

section

variable {remaining monthly rate : ℚ}

/-- The pot after some months of the contribution. -/
def savedAfter (monthly rate : ℚ) (months : ℕ) : ℚ := (accrue rate monthly)^[months] 0

/-- **The loop** stops at the first month the pot has reached the target, or at
its cap. -/
theorem grindMonths_fin (left months : ℕ) :
    let stop := grindMonths (.fin remaining) (.fin monthly) (.fin rate) left
      (.fin (savedAfter monthly rate months)) months
    months ≤ stop ∧ stop ≤ months + left ∧
      (∀ j, months ≤ j → j < stop → savedAfter monthly rate j < remaining) ∧
      (stop < months + left → remaining ≤ savedAfter monthly rate stop) := by
  induction left generalizing months with
  | zero =>
      simp only [grindMonths]
      refine ⟨le_refl _, le_refl _, fun j hlo hhi => ?_, fun h => ?_⟩ <;> omega
  | succ left ih =>
      simp only [grindMonths, JsNumber.fin_lt_fin]
      by_cases hshort : savedAfter monthly rate months < remaining
      · have hnext : JsNumber.fin (savedAfter monthly rate months) * (1 + .fin rate) +
            .fin monthly = .fin (savedAfter monthly rate (months + 1)) := by
          rw [savedAfter, savedAfter, Function.iterate_succ_apply', accrue]
          simp
        rw [if_pos hshort, hnext]
        obtain ⟨hlo, hhi, hbefore, hreached⟩ := ih (months + 1)
        refine ⟨by omega, by omega, fun j hj hstop => ?_, fun h => hreached (by omega)⟩
        by_cases hfirst : j = months
        · rw [hfirst]
          exact hshort
        · exact hbefore j (by omega) hstop
      · rw [if_neg hshort]
        refine ⟨le_refl _, by omega, fun j hlo hhi => ?_, fun _ => not_lt.1 hshort⟩
        omega

/-- **What `monthsToTarget` answers**: every month before is short of the target,
and either that month is not or it is the loop's cap. -/
theorem monthsToTarget_fin (hremaining : 0 < remaining) (hmonthly : 0 < monthly)
    (hrate : 0 ≤ rate) {given : Option JsNumber} (hgiven : given.getD 0 = .fin rate) :
    ∃ n : ℕ, monthsToTarget (.fin remaining) (.fin monthly) given = .fin (n : ℚ) ∧
      (∀ j < n, savedAfter monthly rate j < remaining) ∧ (rate ≠ 0 → n ≤ monthsCap) ∧
      (remaining ≤ savedAfter monthly rate n ∨ rate ≠ 0 ∧ n = monthsCap) := by
  by_cases hflat : rate = 0
  · -- the division, whether no rate is given or none above zero
    have hdivision : monthsToTarget (.fin remaining) (.fin monthly) given =
        .fin (⌈remaining / monthly⌉ : ℤ) := by
      rw [hflat] at hgiven
      have hceil : mathCeil (JsNumber.fin remaining / .fin monthly) =
          .fin (⌈remaining / monthly⌉ : ℤ) := by
        rw [JsNumber.fin_div_fin _ hmonthly.ne']
        rfl
      cases given with
      | none => exact hceil
      | some growth =>
          have hgrowth : growth = 0 := hgiven
          rw [monthsToTarget, if_pos (.inl hgrowth), hceil]
    have hpositive : 0 ≤ ⌈remaining / monthly⌉ :=
      Int.ceil_nonneg (div_nonneg hremaining.le hmonthly.le)
    obtain ⟨n, hn⟩ := Int.eq_ofNat_of_zero_le hpositive
    have hsaved : ∀ j, savedAfter monthly rate j = monthly * j := by
      intro j
      rw [savedAfter, hflat, iterate_accrue_flat, zero_add]
    refine ⟨n, by rw [hdivision, hn]; rfl, fun j hj => ?_, fun h => absurd hflat h, .inl ?_⟩
    · have hlt : (j : ℤ) < ⌈remaining / monthly⌉ := by omega
      have hdiv := Int.lt_ceil.1 hlt
      rw [hsaved, mul_comm]
      exact (lt_div_iff₀ hmonthly).1 (by exact_mod_cast hdiv)
    · have hceil := Int.le_ceil (remaining / monthly)
      rw [hn] at hceil
      rw [hsaved, mul_comm]
      exact (div_le_iff₀ hmonthly).1 (by exact_mod_cast hceil)
  · have hpos : 0 < rate := lt_of_le_of_ne hrate (Ne.symm hflat)
    have hloop : monthsToTarget (.fin remaining) (.fin monthly) given =
        .fin ((grindMonths (.fin remaining) (.fin monthly) (.fin rate) monthsCap
          (.fin (savedAfter monthly rate 0)) 0 : ℕ) : ℚ) := by
      cases given with
      | none => exact absurd (JsNumber.fin.inj hgiven).symm hflat
      | some growth =>
          have hgrowth : growth = .fin rate := hgiven
          have hgrows : ¬ (growth = 0 ∨ growth = .nan ∨ growth ≤ 0) := by
            rw [hgrowth, JsNumber.ofNat_eq_fin, JsNumber.fin_le_fin]
            simp [hflat, hpos]
          rw [monthsToTarget, if_neg hgrows, hgrowth]
          rfl
    obtain ⟨-, hcap, hbefore, hreached⟩ :=
      @grindMonths_fin remaining monthly rate monthsCap 0
    rw [Nat.zero_add] at hcap hreached
    refine ⟨_, hloop, fun j hj => hbefore j (Nat.zero_le j) hj, fun _ => hcap, ?_⟩
    by_cases hend : grindMonths (.fin remaining) (.fin monthly) (.fin rate) monthsCap
        (.fin (savedAfter monthly rate 0)) 0 < monthsCap
    · exact .inl (hreached hend)
    · exact .inr ⟨hflat, by omega⟩

end

/-! ## The month the target is reached -/

/-- A goal with something left to save, and a forecast's contribution and rate,
as rationals. -/
structure Saving (profile : FinancialProfile) (goal : FinancialGoal) (opts : ForecastOptions)
    (remaining monthly rate : ℚ) : Prop where
  toSave : goal.targetMinor - goal.currentMinor = .fin remaining
  left : 0 < remaining
  current : currentMonthly profile opts = .fin monthly
  contributes : 0 < monthly
  growth : opts.monthlyGrowthRate.getD 0 = .fin rate
  grows : 0 ≤ rate

/-- The forecast reports the first month whose pot reaches the target, and dates
it that many months of thirty days from now. -/
def ReportsFirstMonth (now : String) (remaining monthly rate : ℚ) (f : GoalForecast) : Prop :=
  ∃ (n : ℕ) (t : Int), f.monthsAtCurrentRate = some (.fin (n : ℚ)) ∧
    IsLeast {m : ℕ | remaining ≤ savedAfter monthly rate m} n ∧ Date.parse now = some t ∧
    f.projectedDate = some (Date.toIso (t + n * msPerMonth))

/-- Some month the forecast can name reaches the target: within the loop's cap
where there is growth, and on a date that a `Date` can hold. -/
def WithinReach (now : String) (remaining monthly rate : ℚ) : Prop :=
  ∃ (n : ℕ) (t : Int), remaining ≤ savedAfter monthly rate n ∧ (rate ≠ 0 → n ≤ monthsCap) ∧
    Date.parse now = some t ∧ t + n * msPerMonth ≤ Date.maxTime

/-- Contributing, a goal's forecast is its plan with the months to the target and
their date, where there is such a date. -/
theorem forecastGoal_eq {profile : FinancialProfile} {goal : FinancialGoal}
    {opts : ForecastOptions} {remaining monthly rate : ℚ}
    (h : Saving profile goal opts remaining monthly rate) (now : String) :
    ∃ forecast : String → GoalForecast,
      (∀ date, (forecast date).monthsAtCurrentRate =
          some (monthsToTarget (.fin remaining) (.fin monthly) opts.monthlyGrowthRate) ∧
        (forecast date).projectedDate = some date) ∧
      forecastGoal profile goal now opts =
        (Date.toISOString (Date.getTime now +
          monthsToTarget (.fin remaining) (.fin monthly) opts.monthlyGrowthRate *
            (msPerMonth : ℕ))).map forecast := by
  have hplan : (planGoal goal profile now).remainingMinor = .fin remaining := by
    rw [planGoal_remaining, h.toSave, JsNumber.ofNat_eq_fin, mathMax_fin]
    rw [max_eq_right (by exact_mod_cast h.left.le)]
  have hleft : JsNumber.fin remaining ≠ 0 := by
    rw [JsNumber.ofNat_eq_fin]
    exact fun hzero => absurd (JsNumber.fin.inj hzero) (by exact_mod_cast h.left.ne')
  have hcontributes : (0 : JsNumber) < .fin monthly := by
    rw [JsNumber.ofNat_eq_fin, JsNumber.fin_lt_fin]
    exact_mod_cast h.contributes
  unfold forecastGoal
  simp only [hplan, h.current, hleft, if_false, hcontributes, if_true]
  generalize Date.toISOString (Date.getTime now +
    monthsToTarget (.fin remaining) (.fin monthly) opts.monthlyGrowthRate *
      (msPerMonth : ℕ)) = text
  refine ⟨fun date => openForecast goal (planGoal goal profile now) (.fin monthly)
    (some (monthsToTarget (.fin remaining) (.fin monthly) opts.monthlyGrowthRate)) (some date),
    fun date => ⟨rfl, rfl⟩, ?_⟩
  cases text with
  | error e => rfl
  | ok date => rfl

theorem savedAfter_mono {monthly monthly' rate rate' : ℚ} (hmonthly : 0 ≤ monthly)
    (hrate : 0 ≤ rate) (hm : monthly ≤ monthly') (hr : rate ≤ rate') (n : ℕ) :
    savedAfter monthly rate n ≤ savedAfter monthly' rate' n :=
  iterate_accrue_mono n hrate hr hmonthly hm

/-- **The first month is reported exactly when some month within reach is one**,
and contributing more or at a higher rate never moves the month back. -/
theorem forecast_first_month_iff {profile : FinancialProfile} {goal : FinancialGoal}
    {opts : ForecastOptions} {remaining monthly rate : ℚ}
    (h : Saving profile goal opts remaining monthly rate) (now : String) :
    ((∃ f, forecastGoal profile goal now opts = .ok f ∧
        ReportsFirstMonth now remaining monthly rate f) ↔
      WithinReach now remaining monthly rate) ∧
    ∀ profile' opts' monthly' rate', Saving profile' goal opts' remaining monthly' rate' →
      monthly ≤ monthly' → rate ≤ rate' → ∀ f f', forecastGoal profile goal now opts = .ok f →
        forecastGoal profile' goal now opts' = .ok f' →
        ∃ n n' : ℕ, f.monthsAtCurrentRate = some (.fin (n : ℚ)) ∧
          f'.monthsAtCurrentRate = some (.fin (n' : ℚ)) ∧ n' ≤ n := by
  obtain ⟨n, hmonths, hbefore, hcap, hreached⟩ :=
    monthsToTarget_fin h.left h.contributes h.grows h.growth
  obtain ⟨forecast, hforecast, heq⟩ := forecastGoal_eq h now
  rw [hmonths] at hforecast heq
  constructor
  · have hdate : ∀ t : Int, Date.parse now = some t →
        Date.toISOString (Date.getTime now + .fin (n : ℚ) * (msPerMonth : ℕ)) =
          if (t + n * msPerMonth).natAbs ≤ Date.maxTime.natAbs
            then .ok (Date.toIso (t + n * msPerMonth)) else .error "Invalid time value" := by
      intro t ht
      rw [← Date.toISOString_int, Date.getTime, ht]
      push_cast
      rfl
    constructor
    · rintro ⟨f, hf, m, t, hreport, hleast, ht, -⟩
      rw [heq, hdate t ht] at hf
      by_cases hrange : (t + n * msPerMonth).natAbs ≤ Date.maxTime.natAbs
      · rw [if_pos hrange] at hf
        have hsame : m = n := by
          rw [← Except.ok.inj hf, (hforecast _).1] at hreport
          exact_mod_cast (JsNumber.fin.inj (Option.some.inj hreport)).symm
        rw [hsame] at hleast
        refine ⟨n, t, hleast.1, hcap, ht, ?_⟩
        unfold Date.maxTime at hrange ⊢
        omega
      · rw [if_neg hrange] at hf
        cases hf
    · rintro ⟨m, t, hm, hwithin, ht, hrange⟩
      have hle : n ≤ m := by
        by_contra hlt
        exact absurd hm (not_le_of_gt (hbefore m (by omega)))
      have hmet : remaining ≤ savedAfter monthly rate n := by
        rcases hreached with hmet | ⟨hrate, hend⟩
        · exact hmet
        · have hsame : n = m := by
            have := hwithin hrate
            omega
          rw [hsame]
          exact hm
      have hlow := Date.natAbs_parse_le ht
      have hin : (t + n * msPerMonth).natAbs ≤ Date.maxTime.natAbs := by
        unfold Date.maxTime msPerMonth at *
        omega
      rw [heq, hdate t ht, if_pos hin]
      refine ⟨_, rfl, n, t, (hforecast _).1, ⟨hmet, fun j hj => ?_⟩, ht, (hforecast _).2⟩
      by_contra hlt
      exact absurd hj (not_le_of_gt (hbefore j (by omega)))
  · intro profile' opts' monthly' rate' h' hm hr f f' hf hf'
    obtain ⟨n', hmonths', hbefore', hcap', -⟩ :=
      monthsToTarget_fin h'.left h'.contributes h'.grows h'.growth
    obtain ⟨forecast', hforecast', heq'⟩ := forecastGoal_eq h' now
    rw [hmonths'] at hforecast' heq'
    rw [heq] at hf
    rw [heq'] at hf'
    obtain ⟨date, -, hdate⟩ := except_map_eq_ok.1 hf
    obtain ⟨date', -, hdate'⟩ := except_map_eq_ok.1 hf'
    refine ⟨n, n', ?_, ?_, ?_⟩
    · rw [← hdate]
      exact (hforecast date).1
    · rw [← hdate']
      exact (hforecast' date').1
    · by_contra hlater
      -- the larger saving is short at `n`, so the smaller one is, which only its cap allows
      have hshort := hbefore' n (by omega)
      have hless := savedAfter_mono h.contributes.le h.grows hm hr n
      rcases hreached with hmet | ⟨hrate, hend⟩
      · exact absurd (le_trans hmet hless) (not_le_of_gt hshort)
      · have hgrows' : rate' ≠ 0 := by
          intro hzero
          exact hrate (le_antisymm (hzero ▸ hr) h.grows)
        have := hcap' hgrows'
        omega

/-! ## Plans in and out of reach -/

namespace Sample

def saver : FinancialProfile where
  monthlyIncomeMinor := .fin 150000
  monthlyEssentialSpendMinor := .fin 120000

/-- Ten thousand pounds, from nothing. -/
def deposit : FinancialGoal where
  id := "goal_1"
  label := "House deposit"
  targetMinor := .fin 1000000
  currentMinor := .fin 0
  deadline := none

/-- Ten million pounds. -/
def fortune : FinancialGoal := { deposit with targetMinor := .fin 1000000000 }

/-- A hundred pounds a month, at half a per cent. -/
def steady : ForecastOptions := ⟨some (.fin 10000), some (.fin (1 / 200))⟩

/-- A pound a month, at a tenth of a per cent. -/
def slow : ForecastOptions := ⟨some (.fin 100), some (.fin (1 / 1000))⟩

/-- A pound a month, without growth. -/
def flat : ForecastOptions := ⟨some (.fin 100), none⟩

def noon : String := "2026-06-19T12:00:00.000Z"

theorem saving_steady : Saving saver deposit steady 1000000 10000 (1 / 200) where
  toSave := by decide +kernel
  left := by norm_num
  current := rfl
  contributes := by norm_num
  growth := rfl
  grows := by norm_num

end Sample

open Finance.Sample in
theorem forecast_first_month_deposit :
    ∃ f, forecastGoal saver deposit noon steady = .ok f ∧
      ReportsFirstMonth noon 1000000 10000 (1 / 200) f := by
  refine (forecast_first_month_iff saving_steady noon).1.2 ⟨82, 1781870400000, ?_, ?_, ?_, ?_⟩
  · decide +kernel
  · intro _
    decide
  · decide +kernel
  · decide

open Finance.Sample in
/-- A pound a month at a tenth of a per cent has saved less than a quarter of
ten thousand pounds when the loop stops, and the forecast names the date it
stops at; without growth a fortune takes longer than a date can say, and the
forecast fails. -/
theorem slow_plan_is_dated :
    ((forecastGoal saver deposit noon slow).map
        (fun f => (f.monthsAtCurrentRate, f.projectedDate, f.status)) =
      .ok (some (.fin 1200), some "2125-01-11T12:00:00.000Z", .onTrack) ∧
    ¬ ∃ f, forecastGoal saver deposit noon slow = .ok f ∧
      ReportsFirstMonth noon 1000000 100 (1 / 1000) f) ∧
    forecastGoal saver fortune noon flat = .error "Invalid time value" := by
  have hdated : (forecastGoal saver deposit noon slow).map
      (fun f => (f.monthsAtCurrentRate, f.projectedDate, f.status)) =
      .ok (some (.fin 1200), some "2125-01-11T12:00:00.000Z", .onTrack) := by decide +kernel
  have hshort : savedAfter 100 (1 / 1000) 1200 < 250000 := by decide +kernel
  refine ⟨⟨hdated, ?_⟩, by decide +kernel⟩
  rintro ⟨f, hf, n, t, hmonths, hleast, -⟩
  rw [hf] at hdated
  have hcap : f.monthsAtCurrentRate = some (.fin 1200) :=
    congrArg Prod.fst (Except.ok.inj hdated)
  rw [hmonths] at hcap
  have hn : n = 1200 := by
    exact_mod_cast JsNumber.fin.inj (Option.some.inj hcap)
  have hmet : (1000000 : ℚ) ≤ savedAfter 100 (1 / 1000) n := hleast.1
  rw [hn] at hmet
  linarith

end AgentWorth.Finance
