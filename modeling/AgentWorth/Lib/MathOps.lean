import AgentWorth.Lib.Annuity
import AgentWorth.Lib.Number
import AgentWorth.Lib.Rounding

/-!
# ECMAScript `Math` and counting loops

The functions of `Math` that projections use and the loop that counts up to a
bound, on numbers that may be infinite or `NaN`; on finite ones they are the
operations of the rationals.
-/

namespace AgentWorth.Js

open AgentWorth.Lib

/-- `Math.max`. -/
def mathMax (a b : JsNumber) : JsNumber :=
  if a = .nan ∨ b = .nan then .nan else if a < b then b else a

/-- `Math.min`. -/
def mathMin (a b : JsNumber) : JsNumber :=
  if a = .nan ∨ b = .nan then .nan else if b < a then b else a

/-- `Math.ceil`. -/
def mathCeil : JsNumber → JsNumber
  | .fin q => .fin (⌈q⌉ : ℚ)
  | x => x

/-- `for (let i = 0; i < bound; i += 1)`: the state the loop leaves, `none` when
it never ends. -/
def forBelow {α : Type} (bound : JsNumber) (body : α → α) (start : α) : Option α :=
  match bound with
  | .fin q => some (body^[⌈q⌉.toNat] start)
  | .posInf => none
  | .nan | .negInf => some start

@[simp] theorem fin_mul_fin (p q : ℚ) : JsNumber.fin p * .fin q = .fin (p * q) := rfl

@[simp] theorem mathMax_fin (p q : ℚ) : mathMax (.fin p) (.fin q) = .fin (max p q) := by
  unfold mathMax
  by_cases h : p < q
  · simp [h, max_eq_right h.le]
  · simp [h, max_eq_left (not_lt.1 h)]

@[simp] theorem mathMin_fin (p q : ℚ) : mathMin (.fin p) (.fin q) = .fin (min p q) := by
  unfold mathMin
  by_cases h : q < p
  · simp [h, min_eq_right h.le]
  · simp [h, min_eq_left (not_lt.1 h)]

@[simp] theorem round_fin (q : ℚ) : (JsNumber.fin q).round = .fin (round q : ℤ) := by
  rw [round_eq]
  rfl

@[simp] theorem forBelow_natCast {α : Type} (n : ℕ) (body : α → α) (start : α) :
    forBelow (.fin (n : ℚ)) body start = some (body^[n] start) := by
  show some (body^[⌈(n : ℚ)⌉.toNat] start) = _
  rw [Int.ceil_natCast, Int.toNat_natCast]

/-- A loop that grows a pot at a rate and adds a payment accrues. -/
theorem iterate_growth_fin (rate payment pot : ℚ) (n : ℕ) :
    (fun pot => pot * (1 + JsNumber.fin rate) + .fin payment)^[n] (.fin pot) =
      .fin ((accrue rate payment)^[n] pot) := by
  induction n with
  | zero => rfl
  | succ n ih =>
      rw [Function.iterate_succ_apply', ih, Function.iterate_succ_apply', accrue]
      simp

end AgentWorth.Js
