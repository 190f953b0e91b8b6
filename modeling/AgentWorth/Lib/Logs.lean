import Mathlib.Data.Finset.Card
import Mathlib.Data.Finset.Dedup
import Mathlib.Data.List.Count
import Mathlib.Data.List.Perm.Basic

/-!
# Logs

What is said of an entry by the entries before it, how many keys repeat, and
where an element lands in a stable sort.  Each of these is followed through one
more entry at the end and through one inserted anywhere.
-/

namespace AgentWorth.Lib

variable {α κ : Type}

/-! ## Entries and those before them -/

/-- Some entry has the property with the entries before it. -/
def Occurs (P : List α → α → Prop) (log : List α) : Prop :=
  ∃ before x after, log = before ++ x :: after ∧ P before x

theorem not_occurs_nil {P : List α → α → Prop} : ¬ Occurs P [] := by
  rintro ⟨before, x, after, h, -⟩
  simp at h

/-- One more entry. -/
theorem occurs_snoc {P : List α → α → Prop} {log : List α} {x : α} :
    Occurs P (log ++ [x]) ↔ Occurs P log ∨ P log x := by
  constructor
  · rintro ⟨before, y, after, h, hy⟩
    cases after using List.reverseRecOn with
    | nil =>
        obtain ⟨rfl, hxy⟩ := List.append_inj' h rfl
        cases hxy
        exact .inr hy
    | append_singleton after z =>
        rw [← List.cons_append, ← List.append_assoc] at h
        obtain ⟨rfl, -⟩ := List.append_inj' h rfl
        exact .inl ⟨before, y, after, rfl, hy⟩
  · rintro (⟨before, y, after, rfl, hy⟩ | hx)
    · exact ⟨before, y, after ++ [x], by simp, hy⟩
    · exact ⟨log, x, [], rfl, hx⟩

theorem Occurs.imp {P Q : List α → α → Prop} {log : List α} (h : Occurs P log)
    (himp : ∀ before x, P before x → Q before x) : Occurs Q log := by
  obtain ⟨before, x, after, rfl, hx⟩ := h
  exact ⟨before, x, after, rfl, himp before x hx⟩

/-- An entry keeps the entries before it when one is inserted. -/
theorem Occurs.insert {P : List α → α → Prop} {first second : List α} {x : α}
    (h : Occurs P (first ++ second)) :
    Occurs (fun before y => ∃ before₀, before₀.Sublist before ∧ P before₀ y)
      (first ++ x :: second) := by
  obtain ⟨before, y, after, hsplit, hy⟩ := h
  obtain ⟨mid, rfl, hafter⟩ | ⟨mid, rfl, hafter⟩ := List.append_eq_append_iff.1 hsplit
  · exact ⟨first ++ x :: mid, y, after, by simp [hafter], first ++ mid,
      (List.Sublist.refl first).append (List.sublist_cons_self x mid), hy⟩
  · cases mid with
    | nil =>
        rw [List.nil_append] at hafter
        exact ⟨before ++ [x], y, after, by simp [← hafter], before,
          List.sublist_append_left before [x], hy⟩
    | cons z mid =>
        obtain ⟨rfl, rfl⟩ := List.cons.inj hafter
        exact ⟨before, y, mid ++ x :: second, by simp, before, List.Sublist.refl before, hy⟩

/-! ## Keys that repeat -/

section

variable [DecidableEq κ] (key : α → κ)

/-- The keys that at least so many entries have. -/
def repeated (n : Nat) (log : List α) : Finset κ :=
  (log.map key).toFinset.filter fun k => n ≤ (log.map key).count k

variable {key}

theorem mem_repeated {n : Nat} {log : List α} {k : κ} (hn : 0 < n) :
    k ∈ repeated key n log ↔ n ≤ (log.map key).count k := by
  rw [repeated, Finset.mem_filter, List.mem_toFinset]
  exact ⟨fun h => h.2, fun h => ⟨List.count_pos_iff.1 (hn.trans_le h), h⟩⟩

theorem exists_of_mem_repeated {n : Nat} {log : List α} {k : κ} (h : k ∈ repeated key n log) :
    ∃ x ∈ log, key x = k := by
  rw [repeated, Finset.mem_filter, List.mem_toFinset, List.mem_map] at h
  exact h.1

/-- A coarser key repeats at least as often. -/
theorem count_map_le {κ' : Type} [DecidableEq κ'] {key' : α → κ'} {log : List α} {x : α}
    (h : ∀ y ∈ log, key y = key x → key' y = key' x) :
    (log.map key).count (key x) ≤ (log.map key').count (key' x) := by
  rw [List.count, List.count, List.countP_map, List.countP_map]
  refine List.countP_mono_left fun y hy hkey => ?_
  rw [Function.comp_apply, beq_iff_eq] at hkey ⊢
  exact h y hy hkey

/-- More entries repeat no fewer keys. -/
theorem repeated_subset {n : Nat} {log log' : List α} (hn : 0 < n) (h : log.Sublist log') :
    repeated key n log ⊆ repeated key n log' := by
  intro k hk
  rw [mem_repeated hn] at hk ⊢
  exact hk.trans ((h.map key).count_le k)

end

/-! ## Places in a stable sort -/

section

variable {le : α → α → Bool}

/-- The entries that a stable sort leaves or brings before one between others. -/
def place (le : α → α → Bool) (before : List α) (x : α) (after : List α) : Nat :=
  before.countP (fun y => le y x) + after.countP (fun y => !le x y)

variable (htrans : ∀ a b c, le a b = true → le b c = true → le a c = true)
  (htotal : ∀ a b, (le a b || le b a) = true)

include htrans htotal in
/-- **An element is sorted to its place.** -/
theorem getElem?_mergeSort_place (before : List α) (x : α) (after : List α) :
    ((before ++ x :: after).mergeSort le)[place le before x after]? = some x := by
  induction before with
  | nil =>
      obtain ⟨low, high, hsort, hrest, hlow⟩ := List.mergeSort_cons htrans htotal x after
      have hsorted := List.pairwise_mergeSort htrans htotal (x :: after)
      rw [hsort, List.pairwise_append] at hsorted
      have hhigh := (List.pairwise_cons.1 hsorted.2.1).1
      have hplace : place le [] x after = low.length := by
        have hperm := (List.mergeSort_perm after le).countP_eq fun y => !le x y
        have hall : low.countP (fun y => !le x y) = low.length :=
          List.countP_eq_length.2 fun y hy => hlow y hy
        have hnone : high.countP (fun y => !le x y) = 0 := by
          refine List.countP_eq_zero.2 fun y hy => ?_
          rw [hhigh y hy]
          decide
        rw [place, List.countP_nil, Nat.zero_add, ← hperm, hrest, List.countP_append, hall, hnone,
          Nat.add_zero]
      rw [List.nil_append, hsort, hplace, List.getElem?_append_right (le_refl _), Nat.sub_self,
        List.getElem?_cons_zero]
  | cons b before ih =>
      obtain ⟨low, high, hsort, hrest, hlow⟩ :=
        List.mergeSort_cons htrans htotal b (before ++ x :: after)
      have hsorted := List.pairwise_mergeSort htrans htotal (b :: (before ++ x :: after))
      rw [hsort, List.pairwise_append] at hsorted
      have hhigh := (List.pairwise_cons.1 hsorted.2.1).1
      rw [hrest] at ih
      rw [List.cons_append, hsort]
      have hstep : place le (b :: before) x after =
          place le before x after + if le b x then 1 else 0 := by
        rw [place, place, List.countP_cons]
        omega
      by_cases hp : place le before x after < low.length
      · rw [List.getElem?_append_left hp] at ih
        have hnot : le b x = false := by
          simpa using hlow x (List.mem_of_getElem? ih)
        rw [hstep, hnot, if_neg Bool.false_ne_true, Nat.add_zero, List.getElem?_append_left hp, ih]
      · have hge := not_lt.1 hp
        rw [List.getElem?_append_right hge] at ih
        have hbx : le b x = true := hhigh x (List.mem_of_getElem? ih)
        rw [hstep, hbx, if_pos rfl, List.getElem?_append_right (by omega),
          Nat.succ_sub hge, List.getElem?_cons_succ, ih]

include htrans in
/-- An element that comes no earlier has no earlier place. -/
theorem place_mono {x x' : α} (h : le x x' = true) (before after : List α) :
    place le before x after ≤ place le before x' after := by
  refine Nat.add_le_add (List.countP_mono_left fun y _ hy => htrans y x x' hy h)
    (List.countP_mono_left fun y _ hy => ?_)
  rw [Bool.not_eq_true'] at hy ⊢
  by_contra hx'
  rw [htrans x x' y h (Bool.not_eq_false _ ▸ hx')] at hy
  cases hy

end

end AgentWorth.Lib
