import Mathlib.Data.List.Nodup
import Mathlib.Data.List.Infix

/-!
# Linked lists of commitments

Elements carry a commitment of their own and name the commitment of the element
before them, the first one a fixed root.  What links a list says nothing about
its end: a linked list whose elements all belong to another is a prefix of it.
-/

namespace AgentWorth.Lib

variable {α η : Type} (prev hash : α → η)

/-- Each element names the commitment before it, starting from the given one. -/
def Linked : η → List α → Prop
  | _, [] => True
  | root, x :: xs => prev x = root ∧ Linked (hash x) xs

/-- The commitment at the end of a list linked from `root`. -/
def headOf (root : η) (xs : List α) : η := (xs.getLast?.map hash).getD root

variable {prev hash}

@[simp] theorem headOf_nil (root : η) : headOf hash root ([] : List α) = root := rfl

@[simp] theorem headOf_snoc (root : η) (xs : List α) (x : α) :
    headOf hash root (xs ++ [x]) = hash x := by
  simp [headOf]

theorem headOf_cons (root : η) (x : α) (xs : List α) :
    headOf hash root (x :: xs) = headOf hash (hash x) xs := by
  cases xs with
  | nil => rfl
  | cons y ys => simp [headOf, List.getLast?_cons]

/-- A list is extended by an element that names its end. -/
theorem linked_snoc_iff {root : η} {xs : List α} {x : α} :
    Linked prev hash root (xs ++ [x]) ↔
      Linked prev hash root xs ∧ prev x = headOf hash root xs := by
  induction xs generalizing root with
  | nil => simp [Linked]
  | cons y ys ih =>
      rw [List.cons_append, Linked, Linked, ih, headOf_cons, and_assoc]

theorem linked_map {β : Type} {f : α → β} {prev' hash' : β → η}
    (hprev : ∀ x, prev' (f x) = prev x) (hhash : ∀ x, hash' (f x) = hash x) {root : η}
    {xs : List α} : Linked prev' hash' root (xs.map f) ↔ Linked prev hash root xs := by
  induction xs generalizing root with
  | nil => exact Iff.rfl
  | cons x xs ih => rw [List.map_cons, Linked, Linked, hprev, hhash, ih]

/-- A prefix of a linked list is linked. -/
theorem Linked.of_prefix {root : η} {xs ys : List α} (h : Linked prev hash root ys)
    (hpre : xs <+: ys) : Linked prev hash root xs := by
  induction xs generalizing root ys with
  | nil => exact trivial
  | cons x xs ih =>
      obtain ⟨zs, rfl⟩ := hpre
      exact ⟨h.1, ih h.2 ⟨zs, rfl⟩⟩

/-- What an element names is the root or the commitment of another element. -/
theorem Linked.prev_of_mem {root : η} {xs : List α} (h : Linked prev hash root xs) :
    ∀ x ∈ xs, prev x = root ∨ ∃ y ∈ xs, prev x = hash y := by
  induction xs generalizing root with
  | nil => simp
  | cons y ys ih =>
      intro x hx
      rcases List.mem_cons.1 hx with rfl | hx
      · exact Or.inl h.1
      · rcases ih h.2 x hx with hroot | ⟨z, hz, heq⟩
        · exact Or.inr ⟨y, List.mem_cons_self .., hroot⟩
        · exact Or.inr ⟨z, List.mem_cons_of_mem _ hz, heq⟩

/-- The element at a position names the commitment at that position, the root
being the first. -/
theorem Linked.prev_at {root : η} {xs : List α} (h : Linked prev hash root xs) {i : Nat}
    {x : α} (hi : xs[i]? = some x) : (root :: xs.map hash)[i]? = some (prev x) := by
  induction xs generalizing root i with
  | nil => simp at hi
  | cons y ys ih =>
      cases i with
      | zero =>
          rw [List.getElem?_cons_zero] at hi ⊢
          cases hi
          rw [h.1]
      | succ i =>
          rw [List.getElem?_cons_succ] at hi ⊢
          exact ih h.2 hi

/-- **A linked list of genuine elements is a prefix of the genuine list**, when
the commitments of the latter are distinct and none is the root. -/
theorem Linked.prefix_of_subset {root : η} {xs cs : List α}
    (hxs : Linked prev hash root xs) (hcs : Linked prev hash root cs)
    (hmem : ∀ x ∈ xs, x ∈ cs) (hnodup : (root :: cs.map hash).Nodup) : xs <+: cs := by
  have hagree : ∀ (i : Nat) (x : α), xs[i]? = some x → cs[i]? = some x := by
    intro i
    induction i with
    | zero =>
        intro x hx
        obtain ⟨j, hj⟩ := List.mem_iff_getElem?.1 (hmem x (List.mem_of_getElem? hx))
        have hroot := hxs.prev_at hx
        rw [List.getElem?_cons_zero] at hroot
        have hat := hcs.prev_at hj
        have hzero : 0 = j := by
          refine (List.getElem?_inj (by simp) hnodup).1 ?_
          rw [hat, List.getElem?_cons_zero, hroot]
        rw [hzero]
        exact hj
    | succ i ih =>
        intro x hx
        obtain ⟨j, hj⟩ := List.mem_iff_getElem?.1 (hmem x (List.mem_of_getElem? hx))
        have hat := hcs.prev_at hj
        have hlt : i < xs.length := by
          have := (List.getElem?_eq_some_iff.1 hx).1
          omega
        have hprior : xs[i]? = some xs[i] := List.getElem?_eq_getElem hlt
        have hprior' := ih _ hprior
        have hstep := hxs.prev_at hx
        rw [List.getElem?_cons_succ, List.getElem?_map, hprior, Option.map_some] at hstep
        have hindex : i + 1 = j := by
          refine (List.getElem?_inj ?_ hnodup).1 ?_
          · have := (List.getElem?_eq_some_iff.1 hprior').1
            simp only [List.length_cons, List.length_map]
            omega
          · rw [hat, List.getElem?_cons_succ, List.getElem?_map, hprior', Option.map_some, hstep]
        rw [hindex]
        exact hj
  rw [List.prefix_iff_getElem?]
  intro i hi
  exact hagree i _ (List.getElem?_eq_getElem hi)

/-! ## Lists with elements left out -/

/-- Elements that are left out only at the end leave a prefix. -/
theorem filter_prefix_of_pairwise {p : α → Bool} {xs : List α}
    (h : xs.Pairwise fun x y => p y = true → p x = true) : xs.filter p <+: xs := by
  induction xs with
  | nil => exact List.prefix_rfl
  | cons x xs ih =>
      obtain ⟨hfirst, hrest⟩ := List.pairwise_cons.1 h
      by_cases hx : p x = true
      · rw [List.filter_cons_of_pos hx]
        exact (List.prefix_cons_inj x).2 (ih hrest)
      · have hnone : xs.filter p = [] := by
          rw [List.filter_eq_nil_iff]
          intro y hy hp
          exact hx (hfirst y hy hp)
        rw [List.filter_cons_of_neg hx, hnone]
        exact List.nil_prefix

/-- **An element left out before one that stays is missed**: what stays is then
no prefix, even when the elements are known by distinct names only. -/
theorem pairwise_of_filter_prefix {β : Type} {f : α → β} {p : α → Bool} {xs : List α}
    (hnodup : (xs.map f).Nodup) (h : (xs.filter p).map f <+: xs.map f) :
    xs.Pairwise fun x y => p y = true → p x = true := by
  induction xs with
  | nil => exact List.Pairwise.nil
  | cons x xs ih =>
      obtain ⟨hx, hnodup'⟩ := List.nodup_cons.1 hnodup
      by_cases hp : p x = true
      · rw [List.filter_cons_of_pos hp, List.map_cons, List.map_cons, List.prefix_cons_inj] at h
        exact List.pairwise_cons.2 ⟨fun _ _ _ => hp, ih hnodup' h⟩
      · rw [List.filter_cons_of_neg hp] at h
        have hnone : xs.filter p = [] := by
          cases hkept : xs.filter p with
          | nil => rfl
          | cons y ys =>
              rw [hkept, List.map_cons, List.map_cons, List.cons_prefix_cons] at h
              have hy : y ∈ xs := (List.mem_filter.1 (by rw [hkept]; simp)).1
              exact absurd (h.1 ▸ List.mem_map_of_mem hy) hx
        rw [List.filter_eq_nil_iff] at hnone
        refine List.pairwise_cons.2 ⟨fun y hy hpy => absurd hpy (hnone y hy), ?_⟩
        refine List.pairwise_of_forall_mem_list ?_
        intro y _ z hz hpz
        exact absurd hpz (hnone z hz)

end AgentWorth.Lib
