import AgentWorth.Core.Fx
import AgentWorth.Lib.Rounding
import Mathlib.Algebra.Order.Floor.Ring
import Mathlib.Data.Rat.Floor
import Mathlib.Tactic.Linarith
import Mathlib.Tactic.Ring

/-!
# Conversion through dinero.js

The optional path of `src/core/fx.ts`: the rate is first rounded to nine decimals
of the scaled rate, so that the library multiplies integers, and the product is
rounded again.  The error of the first rounding is multiplied by the amount, and
the two paths agree exactly as long as it does not carry the converted amount
past a half.
-/

namespace AgentWorth

open AgentWorth.Js

/-- What the dynamic import gives: the amount of a money of an amount, multiplied
by a factor; `none` when the library throws. -/
abbrev Dinero := JsNumber → JsNumber → Option JsNumber

/-- `convertMinorCrossDecimalDinero`; without the library, or when it throws, the
dep-free path. -/
def convertMinorCrossDecimalDinero (dinero : Option Dinero) (amountMinor rate : JsNumber)
    (source target : String) (tokenDecimals : Option (JsMap Int)) : JsNumber :=
  match dinero with
  | none => convertMinorCrossDecimal amountMinor rate source target tokenDecimals
  | some multiply =>
      let fromExp := minorUnitExponent source tokenDecimals
      let toExp := minorUnitExponent target tokenDecimals
      let scaledRate := (rate * JsNumber.pow10 9 * JsNumber.pow10 (toExp - fromExp)).round
      match multiply amountMinor scaledRate with
      | some product => (product / JsNumber.pow10 9).round
      | none => convertMinorCrossDecimal amountMinor rate source target tokenDecimals

/-- The library multiplies integers exactly. -/
def exactDinero : Dinero := fun amount factor => some (amount * factor)

/-! ## The two roundings -/

section

variable (amount : ℤ) (rate : ℚ) (source target : String) (tokenDecimals : Option (JsMap Int))

/-- The rate between minor units. -/
def minorRate : ℚ :=
  rate *
    (10 : ℚ) ^ (minorUnitExponent target tokenDecimals - minorUnitExponent source tokenDecimals)

/-- What the first rounding adds to the rate between minor units. -/
def rateError : ℚ :=
  ⌊minorRate rate source target tokenDecimals * 10 ^ 9 + 1 / 2⌋ / 10 ^ 9 -
    minorRate rate source target tokenDecimals

theorem pow10_eq (k : ℤ) : JsNumber.pow10 k = .fin ((10 : ℚ) ^ k) := by
  unfold JsNumber.pow10
  split
  · next h =>
      obtain ⟨n, rfl⟩ := Int.eq_ofNat_of_zero_le h
      rw [Int.toNat_natCast, zpow_natCast]
  · next h =>
      obtain ⟨n, hn⟩ := Int.eq_ofNat_of_zero_le (show 0 ≤ -k by omega)
      have hk : k = -(n : ℤ) := by omega
      rw [hk, neg_neg, Int.toNat_natCast, zpow_neg, zpow_natCast, one_div]

theorem convert_eq : convertMinorCrossDecimal (.fin amount) (.fin rate) source target
    tokenDecimals = .fin (⌊amount * minorRate rate source target tokenDecimals + 1 / 2⌋ : ℤ) := by
  rw [convertMinorCrossDecimal, pow10_eq]
  show JsNumber.fin _ = _
  rw [mul_assoc, ← minorRate]
  rfl

theorem convertDinero_eq : convertMinorCrossDecimalDinero (some exactDinero) (.fin amount)
    (.fin rate) source target tokenDecimals =
      .fin (⌊amount * (minorRate rate source target tokenDecimals +
        rateError rate source target tokenDecimals) + 1 / 2⌋ : ℤ) := by
  set scale := (10 : ℚ) ^
    (minorUnitExponent target tokenDecimals - minorUnitExponent source tokenDecimals) with hscale
  have hscaled : rate * 10 ^ (9 : ℤ) * scale =
      minorRate rate source target tokenDecimals * 10 ^ 9 := by
    rw [minorRate, ← hscale]
    norm_num
    ring
  have hproduct : (amount : ℚ) * (⌊rate * 10 ^ (9 : ℤ) * scale + 1 / 2⌋ : ℤ) / 10 ^ (9 : ℤ) =
      amount * (minorRate rate source target tokenDecimals +
        rateError rate source target tokenDecimals) := by
    rw [hscaled, rateError]
    norm_num
    ring
  unfold convertMinorCrossDecimalDinero
  simp only [pow10_eq, exactDinero, ← hscale]
  show JsNumber.round (.fin ((amount : ℚ) * (⌊rate * 10 ^ (9 : ℤ) * scale + 1 / 2⌋ : ℤ)) /
    .fin (10 ^ (9 : ℤ))) = _
  rw [JsNumber.fin_div_fin _ (by norm_num), hproduct]
  rfl

/-! ## When they agree -/

/-- **The paths agree** if and only if the error of the rounded rate, times the
amount, leaves the fraction of the converted amount, counted from the last half,
between zero and one. -/
theorem convertDinero_eq_convert_iff :
    convertMinorCrossDecimalDinero (some exactDinero) (.fin amount) (.fin rate) source target
        tokenDecimals =
      convertMinorCrossDecimal (.fin amount) (.fin rate) source target tokenDecimals ↔
    0 ≤ Int.fract (amount * minorRate rate source target tokenDecimals + 1 / 2) +
        amount * rateError rate source target tokenDecimals ∧
      Int.fract (amount * minorRate rate source target tokenDecimals + 1 / 2) +
        amount * rateError rate source target tokenDecimals < 1 := by
  rw [convertDinero_eq, convert_eq, ← Lib.floor_add_eq_iff, JsNumber.fin.injEq, Int.cast_inj]
  ring_nf

/-- The rate is off by at most half a unit of the ninth decimal. -/
theorem abs_rateError_le : |rateError rate source target tokenDecimals| ≤ 1 / (2 * 10 ^ 9) := by
  have hlow := Int.floor_le (minorRate rate source target tokenDecimals * 10 ^ 9 + 1 / 2)
  have hhigh := Int.lt_floor_add_one (minorRate rate source target tokenDecimals * 10 ^ 9 + 1 / 2)
  unfold rateError
  rw [abs_le]
  constructor <;> linarith

end

/-- Where the rate between minor units has at most nine decimals. -/
theorem convertDinero_of_nine_decimals {rate : ℚ} {source target : String}
    {tokenDecimals : Option (JsMap Int)} {n : ℤ}
    (h : minorRate rate source target tokenDecimals * 10 ^ 9 = n) (amount : ℤ) :
    convertMinorCrossDecimalDinero (some exactDinero) (.fin amount) (.fin rate) source target
        tokenDecimals =
      convertMinorCrossDecimal (.fin amount) (.fin rate) source target tokenDecimals := by
  have herror : rateError rate source target tokenDecimals = 0 := by
    have hfloor : ⌊(n : ℚ) + 1 / 2⌋ = n := by
      rw [Int.floor_intCast_add]
      norm_num
    rw [rateError, h, hfloor, ← h]
    ring
  rw [convertDinero_eq_convert_iff, herror, mul_zero, add_zero]
  exact ⟨Int.fract_nonneg _, Int.fract_lt_one _⟩

/-- Ten billion cents at a rate with ten decimals. -/
theorem tenth_decimal_is_lost :
    ¬ ∀ (amount : ℤ) (rate : ℚ) (source target : String) (tokenDecimals : Option (JsMap Int)),
      0 < rate →
        convertMinorCrossDecimalDinero (some exactDinero) (.fin amount) (.fin rate) source target
            tokenDecimals =
          convertMinorCrossDecimal (.fin amount) (.fin rate) source target tokenDecimals := by
  intro h
  have hagree := h (10 ^ 10) (1 + 1 / 10 ^ 10) "EUR" "USD" none (by norm_num)
  revert hagree
  decide +kernel

end AgentWorth
