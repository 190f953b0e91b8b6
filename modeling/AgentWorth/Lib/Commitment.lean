import Mathlib.Data.List.Nodup

/-!
# Committing by a hash

A hash of fixed width cannot tell all inputs apart, so what a digest commits to
is said of the inputs that were hashed: as long as no two of them collide, equal
digests have equal inputs.  Fields of fixed width, put one behind the other, are
read back from where they stand.
-/

namespace AgentWorth.Lib

variable {α β : Type*}

/-- No two of these inputs are different and hash alike. -/
def CollisionFree (hash : α → β) (inputs : List α) : Prop :=
  ∀ x ∈ inputs, ∀ y ∈ inputs, hash x = hash y → x = y

namespace CollisionFree

variable {hash : α → β} {inputs : List α}

theorem subset (h : CollisionFree hash inputs) {fewer : List α} (hsub : fewer ⊆ inputs) :
    CollisionFree hash fewer :=
  fun x hx y hy => h x (hsub hx) y (hsub hy)

/-- Inputs whose hashes have been looked at and are all different. -/
theorem of_nodup (h : (inputs.map hash).Nodup) : CollisionFree hash inputs :=
  fun _ hx _ hy heq => List.inj_on_of_nodup_map h hx hy heq

end CollisionFree

/-- A function that tells the members of two lists apart tells the lists apart. -/
theorem map_eq_map_iff_of_inj {f : α → β} {xs ys : List α}
    (h : ∀ x ∈ xs, ∀ y ∈ ys, f x = f y → x = y) : xs.map f = ys.map f ↔ xs = ys := by
  constructor
  · intro heq
    induction xs generalizing ys with
    | nil =>
        rw [List.map_nil, eq_comm, List.map_eq_nil_iff] at heq
        exact heq.symm
    | cons x xs ih =>
        cases ys with
        | nil => cases heq
        | cons y ys =>
            rw [List.map_cons, List.map_cons, List.cons.injEq] at heq
            have hhead := h x List.mem_cons_self y List.mem_cons_self heq.1
            have htail := ih (fun z hz w hw => h z (List.mem_cons_of_mem x hz) w
              (List.mem_cons_of_mem y hw)) heq.2
            rw [hhead, htail]
  · intro heq
    rw [heq]

/-- Blocks of one positive width are read back from their concatenation. -/
theorem flatten_inj_of_width {n : Nat} (hn : 0 < n) {xs ys : List (List α)}
    (hxs : ∀ x ∈ xs, x.length = n) (hys : ∀ y ∈ ys, y.length = n) :
    xs.flatten = ys.flatten ↔ xs = ys := by
  constructor
  · intro h
    induction xs generalizing ys with
    | nil =>
        cases ys with
        | nil => rfl
        | cons y ys =>
            have hlen := congrArg List.length h
            have hy := hys y List.mem_cons_self
            simp only [List.flatten_nil, List.length_nil, List.flatten_cons,
              List.length_append] at hlen
            omega
    | cons x xs ih =>
        have hx := hxs x List.mem_cons_self
        cases ys with
        | nil =>
            have hlen := congrArg List.length h
            simp only [List.flatten_nil, List.length_nil, List.flatten_cons,
              List.length_append] at hlen
            omega
        | cons y ys =>
            have hy := hys y List.mem_cons_self
            rw [List.flatten_cons, List.flatten_cons] at h
            obtain ⟨hhead, htail⟩ := List.append_inj h (hx.trans hy.symm)
            rw [hhead, ih (fun z hz => hxs z (List.mem_cons_of_mem x hz))
              (fun z hz => hys z (List.mem_cons_of_mem y hz)) htail]
  · intro h
    rw [h]

end AgentWorth.Lib
