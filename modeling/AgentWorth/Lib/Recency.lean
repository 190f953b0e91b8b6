import Mathlib.Data.List.Dedup
import Mathlib.Data.List.DropRight

/-!
# The most recent, each once

A list kept in order of last use: what is used moves to the end, and only the
last `n` are kept.  What has been dropped is never missed: cutting the list down
after every use or once at the end leaves the same list, the last `n` distinct
elements of the whole history.
-/

namespace AgentWorth.Lib

variable {α : Type} [DecidableEq α]

/-- `x` moves, or is added, to the end. -/
def touch (l : List α) (x : α) : List α := l.filter (· ≠ x) ++ [x]

/-- The last `n` elements of the history, each counted where it last occurs. -/
def latest (n : Nat) (history : List α) : List α := history.dedup.rtake n

theorem dedup_snoc (l : List α) (x : α) : (l ++ [x]).dedup = touch l.dedup x := by
  unfold touch
  induction l with
  | nil => rfl
  | cons y l ih =>
      rw [List.cons_append]
      by_cases hmem : y ∈ l
      · rw [List.dedup_cons_of_mem hmem, List.dedup_cons_of_mem (List.mem_append_left _ hmem), ih]
      · rw [List.dedup_cons_of_notMem hmem]
        by_cases hyx : y = x
        · subst hyx
          rw [List.dedup_cons_of_mem (by simp), ih, List.filter_cons_of_neg (by simp)]
        · rw [List.dedup_cons_of_notMem (by simp [hmem, hyx]), ih,
            List.filter_cons_of_pos (by simpa using hyx), List.cons_append]

/-! ## Cutting down -/

omit [DecidableEq α] in
theorem length_rtake (n : Nat) (l : List α) : (l.rtake n).length = min n l.length := by
  rw [List.rtake, List.length_drop]
  omega

omit [DecidableEq α] in
theorem rtake_append_of_le {n : Nat} {l : List α} (l' : List α) (h : n ≤ l.length) :
    (l' ++ l).rtake n = l.rtake n := by
  rw [List.rtake, List.rtake, List.length_append, List.drop_append,
    List.drop_of_length_le (by omega), List.nil_append]
  congr 1
  omega

/-- Of distinct elements, at most one is `x`. -/
theorem length_filter_ne {l : List α} (hnodup : l.Nodup) (x : α) :
    l.length ≤ (l.filter (· ≠ x)).length + 1 := by
  have herase : l.filter (· ≠ x) = l.erase x := by
    rw [hnodup.erase_eq_filter]
    exact List.filter_congr fun y _ => by by_cases h : y = x <;> simp [h]
  rw [herase, List.length_erase]
  split <;> omega

/-- **What was cut off is not missed.** -/
theorem rtake_touch (n : Nat) {l : List α} (hnodup : l.Nodup) (x : α) :
    (touch (l.rtake n) x).rtake n = (touch l x).rtake n := by
  by_cases hlen : l.length ≤ n
  · rw [show l.rtake n = l by rw [List.rtake, Nat.sub_eq_zero_of_le hlen, List.drop_zero]]
  · have hsplit : l = l.take (l.length - n) ++ l.rtake n := (List.take_append_drop _ _).symm
    have hkept : (l.rtake n).length = n := by
      rw [length_rtake]
      omega
    have hlong := length_filter_ne (hnodup.sublist (List.drop_sublist _ _) : (l.rtake n).Nodup) x
    calc (touch (l.rtake n) x).rtake n
        = ((l.take (l.length - n)).filter (· ≠ x) ++ touch (l.rtake n) x).rtake n := by
          refine (rtake_append_of_le _ ?_).symm
          rw [touch, List.length_append, List.length_singleton]
          omega
      _ = (touch (l.take (l.length - n) ++ l.rtake n) x).rtake n := by
          rw [touch, touch, List.filter_append, List.append_assoc]
      _ = (touch l x).rtake n := by rw [← hsplit]

/-- **One more use.** -/
theorem latest_snoc (n : Nat) (history : List α) (x : α) :
    latest n (history ++ [x]) = (touch (latest n history) x).rtake n := by
  rw [latest, latest, dedup_snoc, rtake_touch n (List.nodup_dedup history)]

/-- A short list without repetitions is its own history. -/
theorem latest_of_short {n : Nat} {l : List α} (hnodup : l.Nodup) (hlen : l.length ≤ n) :
    latest n l = l := by
  rw [latest, hnodup.dedup, List.rtake, Nat.sub_eq_zero_of_le hlen, List.drop_zero]

end AgentWorth.Lib
