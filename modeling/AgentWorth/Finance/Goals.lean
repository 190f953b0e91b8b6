import AgentWorth.Lib.MathOps
import AgentWorth.Lib.Timestamp

/-!
# Goals

`src/finance/goals.ts`: what reaching a goal by its deadline requires, and
whether the operator's monthly surplus is enough for it.
-/

namespace AgentWorth.Finance

open AgentWorth.Js

/-- The part of the operator's profile that goals are planned with. -/
structure FinancialProfile where
  monthlyIncomeMinor : JsNumber
  monthlyEssentialSpendMinor : JsNumber

/-- Monthly money left after essentials. -/
def monthlySurplusMinor (p : FinancialProfile) : JsNumber :=
  p.monthlyIncomeMinor - p.monthlyEssentialSpendMinor

structure FinancialGoal where
  id : String
  label : String
  targetMinor : JsNumber
  currentMinor : JsNumber
  deadline : Option String

structure GoalPlan where
  goalId : String
  remainingMinor : JsNumber
  monthsRemaining : Option JsNumber
  requiredMonthlyMinor : Option JsNumber
  feasible : Bool
  reasons : List String
  deriving DecidableEq

/-- `MS_PER_MONTH`: thirty days. -/
def msPerMonth : ℕ := 2592000000

/-- The months until the deadline, where there is one; an empty deadline is
none. -/
def monthsUntil (deadline : Option String) (now : String) : Option JsNumber :=
  (deadline.filter fun d => d ≠ "").map fun d =>
    mathMax 1 (mathCeil ((Date.getTime d - Date.getTime now) / (msPerMonth : ℕ)))

def planGoal (goal : FinancialGoal) (profile : FinancialProfile) (now : String) : GoalPlan :=
  let remaining := mathMax 0 (goal.targetMinor - goal.currentMinor)
  let surplus := monthlySurplusMinor profile
  if remaining = 0 then
    { goalId := goal.id
      remainingMinor := 0
      monthsRemaining := none
      requiredMonthlyMinor := none
      feasible := true
      reasons := ["goal already reached"] }
  else
    let monthsRemaining := monthsUntil goal.deadline now
    match monthsRemaining with
    | none =>
        { goalId := goal.id
          remainingMinor := remaining
          monthsRemaining
          requiredMonthlyMinor := none
          feasible := decide (0 < surplus)
          reasons :=
            [if 0 < surplus then
              "open-ended; ~" ++ toString (mathCeil (remaining / surplus)) ++
                " months at the current surplus"
            else "no monthly surplus to contribute — needs income/essentials change first"] }
    | some months =>
        let requiredMonthly := mathCeil (remaining / months)
        let feasible := decide (requiredMonthly ≤ surplus)
        { goalId := goal.id
          remainingMinor := remaining
          monthsRemaining
          requiredMonthlyMinor := some requiredMonthly
          feasible
          reasons :=
            ["needs " ++ toString requiredMonthly ++ " minor-units/month for " ++
              toString months ++ " months (surplus is " ++ toString surplus ++ ")"] ++
            if feasible then [] else ["required contribution exceeds the monthly surplus"] }

/-- A plan keeps what is left to save. -/
theorem planGoal_remaining (goal : FinancialGoal) (profile : FinancialProfile) (now : String) :
    (planGoal goal profile now).remainingMinor =
      mathMax 0 (goal.targetMinor - goal.currentMinor) := by
  unfold planGoal
  by_cases hreached : mathMax 0 (goal.targetMinor - goal.currentMinor) = 0
  · simp only [hreached, if_true]
  · simp only [hreached, if_false]
    cases monthsUntil goal.deadline now with
    | none => rfl
    | some months => rfl

end AgentWorth.Finance
