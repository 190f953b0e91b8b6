import Mathlib.Data.List.Perm.Basic
import Mathlib.Data.List.Nodup

/-!
# Lists addressed by position

Suspended computations are kept in a list and resumed by position: a resumed
one is replaced in place or taken out.  Up to order, both are operations on the
element and the rest of the list.
-/

namespace AgentWorth.Lib

variable {α β : Type} {l : List α} {k : Nat} {a b : α}

/-- The addressed element and the rest. -/
theorem perm_eraseIdx (h : l[k]? = some a) : l.Perm (a :: l.eraseIdx k) := by
  obtain ⟨hlt, rfl⟩ := List.getElem?_eq_some_iff.1 h
  exact (List.getElem_cons_eraseIdx_perm hlt).symm

theorem perm_set (h : l[k]? = some a) : (l.set k b).Perm (b :: l.eraseIdx k) := by
  obtain ⟨hlt, -⟩ := List.getElem?_eq_some_iff.1 h
  have hget : (l.set k b)[k]? = some b := by simp [hlt]
  have hrest : (l.set k b).eraseIdx k = l.eraseIdx k := List.eraseIdx_set_eq
  have hperm := perm_eraseIdx hget
  rwa [hrest] at hperm

theorem mem_of_slot (h : l[k]? = some a) : a ∈ l := List.mem_of_getElem? h

/-- Keys that are distinct in the list are distinct from the addressed
element's in the rest. -/
theorem ne_of_mem_eraseIdx {f : α → β} (hnd : (l.map f).Nodup) (h : l[k]? = some a) :
    ∀ c ∈ l.eraseIdx k, f c ≠ f a := by
  have hnd' := ((perm_eraseIdx h).map f).nodup_iff.1 hnd
  intro c hc heq
  exact (List.nodup_cons.1 hnd').1 (heq ▸ List.mem_map_of_mem hc)

/-- Replacing an element by one with its key keeps the keys. -/
theorem map_set_eq {f : α → β} (h : l[k]? = some a) (hf : f b = f a) :
    (l.set k b).map f = l.map f := by
  obtain ⟨hlt, rfl⟩ := List.getElem?_eq_some_iff.1 h
  have hlt' : k < (l.map f).length := by simpa using hlt
  have hk : f l[k] = (l.map f)[k] := by simp
  rw [List.map_set, hf, hk, List.set_getElem_self hlt']

/-- Elements with distinct keys sit at one position. -/
theorem slot_unique {f : α → β} (hnd : (l.map f).Nodup) {i j : Nat} (hi : l[i]? = some a)
    (hj : l[j]? = some b) (hf : f a = f b) : i = j := by
  obtain ⟨hlti, rfl⟩ := List.getElem?_eq_some_iff.1 hi
  obtain ⟨hltj, rfl⟩ := List.getElem?_eq_some_iff.1 hj
  have hlen : (l.map f).length = l.length := List.length_map f
  have hlti' : i < (l.map f).length := by omega
  have hltj' : j < (l.map f).length := by omega
  have hkey : (l.map f)[i] = (l.map f)[j] := by simpa using hf
  exact hnd.getElem_inj_iff.1 hkey

/-- Elements of two lists at one position keep one when another position is taken
out of both. -/
theorem slots_eraseIdx (m : List β) {j : Nat} (hj : l[j]? = some a) (hne : j ≠ k) :
    ∃ i : Nat, (l.eraseIdx k)[i]? = some a ∧ (m.eraseIdx k)[i]? = m[j]? := by
  by_cases hlt : j < k
  · refine ⟨j, ?_, ?_⟩
    · rw [List.getElem?_eraseIdx, if_pos hlt, hj]
    · rw [List.getElem?_eraseIdx, if_pos hlt]
  · have hback : j - 1 + 1 = j := by omega
    have hnot : ¬ j - 1 < k := by omega
    refine ⟨j - 1, ?_, ?_⟩
    · rw [List.getElem?_eraseIdx, if_neg hnot, hback, hj]
    · rw [List.getElem?_eraseIdx, if_neg hnot, hback]

/-! ## Selected elements -/

section

variable {p : α → Bool}

theorem filter_eraseIdx_of_neg (h : l[k]? = some a) (hp : p a = false) :
    (l.eraseIdx k).filter p = l.filter p := by
  induction l generalizing k with
  | nil => rfl
  | cons x l ih =>
      cases k with
      | zero =>
          cases h
          rw [List.eraseIdx_zero, List.tail_cons, List.filter_cons_of_neg (by simp [hp])]
      | succ k =>
          rw [List.eraseIdx_cons_succ, List.filter_cons, List.filter_cons, ih h]

theorem filter_set_of_neg (h : l[k]? = some a) (hp : p a = false) (hq : p b = false) :
    (l.set k b).filter p = l.filter p := by
  induction l generalizing k with
  | nil => rfl
  | cons x l ih =>
      cases k with
      | zero =>
          cases h
          rw [List.set_cons_zero, List.filter_cons_of_neg (by simp [hq]),
            List.filter_cons_of_neg (by simp [hp])]
      | succ k => rw [List.set_cons_succ, List.filter_cons, List.filter_cons, ih h]

/-- A selected element that is taken out. -/
theorem perm_filter_eraseIdx (h : l[k]? = some a) (hp : p a = true) :
    (l.filter p).Perm (a :: (l.eraseIdx k).filter p) := by
  rw [← List.filter_cons_of_pos hp]
  exact (perm_eraseIdx h).filter p

/-- A selected element that stays selected as it is replaced. -/
theorem perm_filter_set (h : l[k]? = some a) (hp : p b = true) :
    ((l.set k b).filter p).Perm (b :: (l.eraseIdx k).filter p) := by
  rw [← List.filter_cons_of_pos hp]
  exact (perm_set h).filter p

end

/-! ## Distinct optional keys -/

section

variable {κ : Type}

/-- No key stands at two positions. -/
def DistinctKeys (keys : List (Option κ)) : Prop :=
  ∀ (i j : Nat) (key : κ), keys[i]? = some (some key) → keys[j]? = some (some key) → i = j

/-- A key says which element of the list has it. -/
theorem DistinctKeys.eq_of_mem {f : α → Option κ} (h : DistinctKeys (l.map f)) {key : κ}
    (ha : a ∈ l) (hb : b ∈ l) (hfa : f a = some key) (hfb : f b = some key) : a = b := by
  obtain ⟨i, hi⟩ := List.mem_iff_getElem?.1 ha
  obtain ⟨j, hj⟩ := List.mem_iff_getElem?.1 hb
  have hij : i = j := h i j key (by rw [List.getElem?_map, hi, Option.map_some, hfa])
    (by rw [List.getElem?_map, hj, Option.map_some, hfb])
  rw [hij, hj] at hi
  exact (Option.some.inj hi).symm

theorem DistinctKeys.snoc_none {keys : List (Option κ)} (h : DistinctKeys keys) :
    DistinctKeys (keys ++ [none]) := by
  have hold : ∀ (i : Nat) (key : κ), (keys ++ [none])[i]? = some (some key) →
      keys[i]? = some (some key) := by
    intro i key hi
    rw [List.getElem?_append] at hi
    split at hi
    · exact hi
    · rw [List.getElem?_singleton] at hi
      split at hi <;> cases hi
  exact fun i j key hi hj => h i j key (hold i key hi) (hold j key hj)

theorem DistinctKeys.set {keys : List (Option κ)} (h : DistinctKeys keys) {key : κ}
    (hfresh : some key ∉ keys) (i : Nat) : DistinctKeys (keys.set i (some key)) := by
  have hcases : ∀ (j : Nat) (key' : κ), (keys.set i (some key))[j]? = some (some key') →
      j = i ∧ key' = key ∨ keys[j]? = some (some key') := by
    intro j key' hj
    rw [List.getElem?_set] at hj
    split at hj
    · next hij =>
        split at hj
        · exact Or.inl ⟨hij.symm, (Option.some.inj (Option.some.inj hj)).symm⟩
        · cases hj
    · exact Or.inr hj
  intro j k key' hj hk
  rcases hcases j key' hj with ⟨rfl, rfl⟩ | hj'
  · rcases hcases k key' hk with ⟨rfl, -⟩ | hk'
    · rfl
    · exact absurd (List.mem_of_getElem? hk') hfresh
  · rcases hcases k key' hk with ⟨-, rfl⟩ | hk'
    · exact absurd (List.mem_of_getElem? hj') hfresh
    · exact h j k key' hj' hk'

end

end AgentWorth.Lib
