import Mathlib.Order.Bounds.Basic

/-!
# The last boundary

A line cut at a set of boundaries falls into spans, and a span is named by the
boundary it starts at.  Whatever sends every point to the last boundary at or
before it keeps boundaries where they are, never goes back as the point moves
on, and tells two points apart exactly when a boundary lies between them.
-/

namespace AgentWorth

variable {α : Type*} [LinearOrder α]

/-- `start` sends every point to the last boundary at or before it. -/
def LastBoundary (boundaries : Set α) (start : α → α) : Prop :=
  ∀ t, IsGreatest {b | b ∈ boundaries ∧ b ≤ t} (start t)

namespace LastBoundary

variable {boundaries : Set α} {start : α → α}

theorem mem (h : LastBoundary boundaries start) (t : α) : start t ∈ boundaries := (h t).1.1

theorem le (h : LastBoundary boundaries start) (t : α) : start t ≤ t := (h t).1.2

theorem le_start (h : LastBoundary boundaries start) {b t : α} (hb : b ∈ boundaries)
    (hle : b ≤ t) : b ≤ start t :=
  (h t).2 ⟨hb, hle⟩

/-- A boundary starts its own span. -/
theorem fixed (h : LastBoundary boundaries start) {b : α} (hb : b ∈ boundaries) :
    start b = b :=
  le_antisymm (h.le b) (h.le_start hb (le_refl b))

theorem idempotent (h : LastBoundary boundaries start) (t : α) : start (start t) = start t :=
  h.fixed (h.mem t)

theorem mono (h : LastBoundary boundaries start) {t u : α} (htu : t ≤ u) :
    start t ≤ start u :=
  h.le_start (h.mem t) (le_trans (h.le t) htu)

/-- Two points share a span exactly when no boundary lies after the one and not
after the other. -/
theorem eq_iff (h : LastBoundary boundaries start) {t u : α} (htu : t ≤ u) :
    start t = start u ↔ ∀ b ∈ boundaries, ¬ (t < b ∧ b ≤ u) := by
  constructor
  · intro heq b hb hbetween
    have hle : b ≤ start t := by
      rw [heq]
      exact h.le_start hb hbetween.2
    exact absurd (le_trans hle (h.le t)) (not_le_of_gt hbetween.1)
  · intro hnone
    have hback : start u ≤ t := by
      by_contra hlt
      exact hnone (start u) (h.mem u) ⟨lt_of_not_ge hlt, h.le u⟩
    exact le_antisymm (h.mono htu) (h.le_start (h.mem u) hback)

end LastBoundary

end AgentWorth
