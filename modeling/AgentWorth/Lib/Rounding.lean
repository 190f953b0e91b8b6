import Mathlib.Algebra.Order.Round
import Mathlib.Tactic.Linarith

/-!
# Rounding an error

Mathlib's `round` is to the nearest integer, halves upward.  An error is
absorbed by a rounding exactly as long as it carries the number past no
boundary, which is a matter of the number's fraction.
-/

namespace AgentWorth.Lib

variable {K : Type*} [Field K] [LinearOrder K] [IsStrictOrderedRing K] [FloorRing K]

theorem round_le_round {x y : K} (h : x ≤ y) : round x ≤ round y := by
  rw [round_eq, round_eq]
  exact Int.floor_le_floor (by linarith)

/-- Adding to a number keeps what it rounds down to, as long as its fraction stays
one. -/
theorem floor_add_eq_iff (y error : K) :
    ⌊y + error⌋ = ⌊y⌋ ↔ 0 ≤ Int.fract y + error ∧ Int.fract y + error < 1 := by
  rw [Int.floor_eq_iff, Int.fract]
  constructor <;> rintro ⟨hlow, hhigh⟩ <;> constructor <;> linarith

/-- Adding to a number keeps what it rounds to, as long as it is carried past no
half. -/
theorem round_add_eq_iff (y error : K) :
    round (y + error) = round y ↔
      0 ≤ Int.fract (y + 1 / 2) + error ∧ Int.fract (y + 1 / 2) + error < 1 := by
  rw [round_eq, round_eq, add_right_comm, floor_add_eq_iff]

end AgentWorth.Lib
