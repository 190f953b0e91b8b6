import Mathlib.Algebra.Order.BigOperators.Group.List
import Mathlib.Order.Bounds.Basic
import Mathlib.Data.List.Sort

/-!
# The heaviest window

Weights stand at points of a line, and a window opens at a point and stops
where `stopOf` of that point says.  A scan that opens one window at each weight
and adds up from there, over the weights in the order of their points, finds
the heaviest window among all of them: those that open between two weights hold
nothing that a later one does not.
-/

namespace AgentWorth.Lib.Window

variable {T A : Type*} [LinearOrder T] [AddCommMonoid A]

/-- What lies from `start` on and before `stop`. -/
def sumIn (start stop : T) (xs : List (T × A)) : A :=
  ((xs.filter fun x => decide (start ≤ x.1) && decide (x.1 < stop)).map Prod.snd).sum

/-- What lies at the front of the list, before `stop`. -/
def headSum (stop : T) (xs : List (T × A)) : A :=
  ((xs.takeWhile fun x => decide (x.1 < stop)).map Prod.snd).sum

/-- The points do not go back. -/
def Sorted (xs : List (T × A)) : Prop := xs.Pairwise fun x y => x.1 ≤ y.1

theorem sumIn_cons_of_lt {start stop : T} {x : T × A} (hx : x.1 < start) (xs : List (T × A)) :
    sumIn start stop (x :: xs) = sumIn start stop xs := by
  simp [sumIn, not_le.2 hx]

/-- From a point that none comes before, the window is the front of the list. -/
theorem sumIn_eq_headSum {start stop : T} {xs : List (T × A)} (hsorted : Sorted xs)
    (hstart : ∀ x ∈ xs, start ≤ x.1) : sumIn start stop xs = headSum stop xs := by
  induction xs with
  | nil => rfl
  | cons x xs ih =>
      have hrest := ih (List.pairwise_cons.1 hsorted).2 fun y hy =>
        hstart y (List.mem_cons_of_mem x hy)
      have hx : start ≤ x.1 := hstart x (List.mem_cons_self ..)
      unfold sumIn headSum at *
      by_cases hstop : x.1 < stop
      · simp [hx, hstop, hrest]
      · -- the rest is at or after `x`, so it has no part in the window either
        have hnone : xs.filter (fun y => decide (start ≤ y.1) && decide (y.1 < stop)) = [] := by
          rw [List.filter_eq_nil_iff]
          intro y hy
          have hxy : x.1 ≤ y.1 := (List.pairwise_cons.1 hsorted).1 y hy
          simp [not_lt.2 (le_trans (not_lt.1 hstop) hxy)]
        simp [hstop, hnone]

/-- The order of the list does not matter to a window. -/
theorem sumIn_perm {start stop : T} {xs ys : List (T × A)} (h : xs.Perm ys) :
    sumIn start stop xs = sumIn start stop ys :=
  List.Perm.sum_eq ((h.filter _).map _)

variable [LinearOrder A] [IsOrderedAddMonoid A]

/-- The scan: open a window at each weight in turn, keep the largest sum. -/
def heaviest (stopOf : T → T) : List (T × A) → A
  | [] => 0
  | x :: xs => max (headSum (stopOf x.1) (x :: xs)) (heaviest stopOf xs)

omit [IsOrderedAddMonoid A] in
theorem heaviest_nonneg (stopOf : T → T) (xs : List (T × A)) : 0 ≤ heaviest stopOf xs := by
  induction xs with
  | nil => exact le_refl _
  | cons x xs ih => exact le_trans ih (le_max_right _ _)

section Weights

variable {stopOf : T → T} {xs : List (T × A)}

omit [LinearOrder T] in
theorem sum_nonneg_of_sublist {ys : List (T × A)} (h : ys.Sublist xs)
    (hweight : ∀ x ∈ xs, 0 ≤ x.2) : 0 ≤ (ys.map Prod.snd).sum := by
  apply List.sum_nonneg
  intro a ha
  obtain ⟨y, hy, rfl⟩ := List.mem_map.1 ha
  exact hweight y (h.subset hy)

omit [LinearOrder T] in
/-- Fewer weights add up to less. -/
theorem sum_le_of_sublist {ys zs : List (T × A)} (h : ys.Sublist zs)
    (hweight : ∀ x ∈ zs, 0 ≤ x.2) : (ys.map Prod.snd).sum ≤ (zs.map Prod.snd).sum := by
  apply List.Sublist.sum_le_sum (h.map Prod.snd)
  intro a ha
  obtain ⟨z, hz, rfl⟩ := List.mem_map.1 ha
  exact hweight z hz

theorem sumIn_mono_sublist {start stop : T} {ys zs : List (T × A)} (h : ys.Sublist zs)
    (hweight : ∀ x ∈ zs, 0 ≤ x.2) : sumIn start stop ys ≤ sumIn start stop zs := by
  apply sum_le_of_sublist (h.filter _)
  intro x hx
  exact hweight x (List.mem_of_mem_filter hx)

/-- A later stop lets more in. -/
theorem headSum_mono {stop stop' : T} (h : stop ≤ stop') (hweight : ∀ x ∈ xs, 0 ≤ x.2) :
    headSum stop xs ≤ headSum stop' xs := by
  have hsub : (xs.takeWhile fun x => decide (x.1 < stop)).Sublist
      (xs.takeWhile fun x => decide (x.1 < stop')) := by
    induction xs with
    | nil => exact List.Sublist.refl _
    | cons x xs ih =>
        by_cases hx : x.1 < stop
        · have hx' : x.1 < stop' := lt_of_lt_of_le hx h
          have hrest := ih fun y hy => hweight y (List.mem_cons_of_mem x hy)
          simpa [hx, hx'] using hrest
        · simp [hx]
  apply sum_le_of_sublist hsub
  intro x hx
  exact hweight x ((List.takeWhile_sublist _).subset hx)

theorem headSum_nonneg (stop : T) (hweight : ∀ x ∈ xs, 0 ≤ x.2) : 0 ≤ headSum stop xs :=
  sum_nonneg_of_sublist (List.takeWhile_sublist _) hweight

/-- No window is heavier, wherever it opens. -/
theorem sumIn_le_heaviest (hmono : Monotone stopOf) (hsorted : Sorted xs)
    (hweight : ∀ x ∈ xs, 0 ≤ x.2) (start : T) :
    sumIn start (stopOf start) xs ≤ heaviest stopOf xs := by
  induction xs with
  | nil => exact le_refl _
  | cons x xs ih =>
      obtain ⟨hfirst, hrest⟩ := List.pairwise_cons.1 hsorted
      by_cases hx : x.1 < start
      · rw [sumIn_cons_of_lt hx]
        have htail := ih hrest fun y hy => hweight y (List.mem_cons_of_mem x hy)
        exact le_trans htail (le_max_right _ _)
      · -- nothing comes before `x`, so the window may as well open there
        have hstart : start ≤ x.1 := not_lt.1 hx
        have hall : ∀ y ∈ x :: xs, start ≤ y.1 := by
          intro y hy
          cases List.mem_cons.1 hy with
          | inl heq => rw [heq]; exact hstart
          | inr hmem => exact le_trans hstart (hfirst y hmem)
        rw [sumIn_eq_headSum hsorted hall]
        exact le_trans (headSum_mono (hmono hstart) hweight) (le_max_left _ _)

/-- The scan's result is the weight of the window at one of the points. -/
theorem exists_heaviest (hmono : Monotone stopOf) (hsorted : Sorted xs)
    (hweight : ∀ x ∈ xs, 0 ≤ x.2) (hne : xs ≠ []) :
    ∃ x ∈ xs, heaviest stopOf xs = sumIn x.1 (stopOf x.1) xs := by
  induction xs with
  | nil => exact absurd rfl hne
  | cons x xs ih =>
      obtain ⟨hfirst, hrest⟩ := List.pairwise_cons.1 hsorted
      have hall : ∀ y ∈ x :: xs, x.1 ≤ y.1 := by
        intro y hy
        cases List.mem_cons.1 hy with
        | inl heq => rw [heq]
        | inr hmem => exact hfirst y hmem
      have hhere : sumIn x.1 (stopOf x.1) (x :: xs) = headSum (stopOf x.1) (x :: xs) :=
        sumIn_eq_headSum hsorted hall
      by_cases hbest : heaviest stopOf xs ≤ headSum (stopOf x.1) (x :: xs)
      · refine ⟨x, List.mem_cons_self .., ?_⟩
        rw [hhere]
        exact max_eq_left hbest
      · have hlt := not_le.1 hbest
        have hmax : heaviest stopOf (x :: xs) = heaviest stopOf xs := max_eq_right hlt.le
        have hnonempty : xs ≠ [] := by
          rintro rfl
          exact absurd (headSum_nonneg (stopOf x.1) hweight) (not_le.2 hlt)
        obtain ⟨y, hy, heq⟩ := ih hrest
          (fun z hz => hweight z (List.mem_cons_of_mem x hz)) hnonempty
        refine ⟨y, List.mem_cons_of_mem x hy, le_antisymm ?_ ?_⟩
        · rw [hmax, heq]
          exact sumIn_mono_sublist (List.sublist_cons_self x xs) hweight
        · exact sumIn_le_heaviest hmono hsorted hweight y.1

/-- **The scan finds the heaviest window.** -/
theorem isGreatest_heaviest (hmono : Monotone stopOf) (hsorted : Sorted xs)
    (hweight : ∀ x ∈ xs, 0 ≤ x.2) (hne : xs ≠ []) :
    IsGreatest (Set.range fun start => sumIn start (stopOf start) xs) (heaviest stopOf xs) := by
  constructor
  · obtain ⟨x, -, heq⟩ := exists_heaviest hmono hsorted hweight hne
    exact ⟨x.1, heq.symm⟩
  · rintro _ ⟨start, rfl⟩
    exact sumIn_le_heaviest hmono hsorted hweight start

end Weights

end AgentWorth.Lib.Window
