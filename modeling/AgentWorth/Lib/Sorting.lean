import AgentWorth.Lib.Json
import Mathlib.Data.List.Perm.Basic

/-!
# Canonical orders

The order of strings by code units is total, so a sort by keys that differ, or
by the strings themselves, depends on the elements alone; and an object with
its members in the order of their names is a normal form of it.
-/

namespace AgentWorth.Js

/-! ## The order of strings is total -/

theorem unitsLt_trichotomy : ∀ {as bs : List Nat}, unitsLt as bs = false →
    unitsLt bs as = false → as = bs
  | [], [], _, _ => rfl
  | [], _ :: _, h, _ => by simp [unitsLt] at h
  | _ :: _, [], _, h => by simp [unitsLt] at h
  | a :: as, b :: bs, h, h' => by
      simp only [unitsLt, Bool.or_eq_false_iff, Bool.and_eq_false_iff,
        decide_eq_false_iff_not] at h h'
      have hab : a = b := by omega
      subst hab
      rw [unitsLt_trichotomy (h.2.resolve_left fun hne => hne rfl)
        (h'.2.resolve_left fun hne => hne rfl)]

/-- The first character of a text is read off its units: no character is a
surrogate. -/
theorem charUnits_append_inj {c d : Char} {us vs : List Nat}
    (h : charUnits c ++ us = charUnits d ++ vs) : c = d ∧ us = vs := by
  have hscalar : ∀ e : Char, e.toNat < 0xD800 ∨ 0xDFFF < e.toNat ∧ e.toNat < 0x110000 := by
    intro e
    exact e.valid
  have hc := hscalar c
  have hd := hscalar d
  unfold charUnits at h
  by_cases hcs : c.toNat < 0x10000
  · by_cases hds : d.toNat < 0x10000
    · rw [if_pos hcs, if_pos hds] at h
      obtain ⟨hhead, htail⟩ := List.cons.inj h
      exact ⟨Char.toNat_inj.1 hhead, htail⟩
    · rw [if_pos hcs, if_neg hds] at h
      have hhead := (List.cons.inj h).1
      omega
  · by_cases hds : d.toNat < 0x10000
    · rw [if_neg hcs, if_pos hds] at h
      have hhead := (List.cons.inj h).1
      omega
    · rw [if_neg hcs, if_neg hds] at h
      obtain ⟨hhead, htail⟩ := List.cons.inj h
      obtain ⟨hnext, hrest⟩ := List.cons.inj htail
      exact ⟨Char.toNat_inj.1 (by omega), hrest⟩

theorem utf16_injective : Function.Injective utf16 := by
  have hunits : ∀ cs ds : List Char, cs.flatMap charUnits = ds.flatMap charUnits → cs = ds := by
    have hne : ∀ (c : Char) (us : List Nat), charUnits c ++ us ≠ [] := by
      intro c us h
      obtain ⟨u, vs, hu, -⟩ := charUnits_head c
      rw [hu] at h
      cases h
    intro cs
    induction cs with
    | nil =>
        intro ds h
        cases ds with
        | nil => rfl
        | cons d ds => exact absurd h.symm (hne d _)
    | cons c cs ih =>
        intro ds h
        cases ds with
        | nil => exact absurd h (hne c _)
        | cons d ds =>
            obtain ⟨hcd, hrest⟩ := charUnits_append_inj h
            rw [hcd, ih ds hrest]
  intro s t h
  exact String.toList_injective (hunits _ _ h)

theorem strLt_trichotomy {a b : String} (h : strLt a b = false) (h' : strLt b a = false) :
    a = b :=
  utf16_injective (unitsLt_trichotomy h h')

/-! ## Sorting to a normal form -/

section Sorting

variable {α : Type} {key : α → String}

/-- Elements that their keys tell apart sort to one list in whatever order they
are given. -/
theorem sortByKey_eq_of_perm {xs ys : List α}
    (hkey : ∀ x ∈ xs, ∀ y ∈ xs, key x = key y → x = y) (h : xs.Perm ys) :
    sortByKey key xs = sortByKey key ys := by
  refine List.Perm.eq_of_pairwise ?_ (sortedByKey_sortByKey key xs) (sortedByKey_sortByKey key ys)
    (((sortByKey_perm key xs).trans h).trans (sortByKey_perm key ys).symm)
  intro x y hx hy hxy hyx
  rw [mem_sortByKey] at hx hy
  exact hkey x hx y (h.mem_iff.2 hy) (strLt_trichotomy hyx hxy)

theorem perm_of_sortByKey_eq {xs ys : List α} (h : sortByKey key xs = sortByKey key ys) :
    xs.Perm ys :=
  ((sortByKey_perm key xs).symm.trans (h ▸ List.Perm.refl _)).trans (sortByKey_perm key ys)

/-- Renaming elements does not move them. -/
theorem sortByKey_map {β : Type} {key : β → String} (f : α → β) (xs : List α) :
    sortByKey key (xs.map f) = (sortByKey (key ∘ f) xs).map f := by
  have hinsert : ∀ (x : α) (ys : List α),
      insertByKey key (f x) (ys.map f) = (insertByKey (key ∘ f) x ys).map f := by
    intro x ys
    induction ys with
    | nil => rfl
    | cons y ys ih =>
        rw [List.map_cons, insertByKey, insertByKey, ih]
        simp only [Function.comp_apply]
        split <;> rfl
  induction xs with
  | nil => rfl
  | cons x xs ih => rw [List.map_cons, sortByKey, sortByKey, ih, hinsert]

/-- **Sorted strings are a normal form of a multiset.** -/
theorem sortByKey_id_eq_iff {xs ys : List String} :
    sortByKey id xs = sortByKey id ys ↔ xs.Perm ys :=
  ⟨perm_of_sortByKey_eq, sortByKey_eq_of_perm fun _ _ _ _ h => h⟩

end Sorting

/-! ## Objects up to the order of their members -/

/-- A member of an association list without repeated names. -/
theorem lookup_eq_some_iff {α : Type} {ms : List (String × α)} (h : (ms.map Prod.fst).Nodup)
    {k : String} {v : α} : ms.lookup k = some v ↔ (k, v) ∈ ms := by
  induction ms with
  | nil => simp
  | cons m ms ih =>
      obtain ⟨k', v'⟩ := m
      obtain ⟨hnew, hrest⟩ := List.nodup_cons.1 h
      by_cases hk : k = k'
      · subst hk
        have habsent : (k, v) ∉ ms := fun hmem => hnew (List.mem_map.2 ⟨(k, v), hmem, rfl⟩)
        rw [List.lookup_cons_self, List.mem_cons, Option.some.injEq, Prod.mk.injEq]
        simp only [true_and, habsent, or_false]
        exact eq_comm
      · have hb : (k == k') = false := by simpa using hk
        rw [List.lookup_cons, hb, ih hrest, List.mem_cons, Prod.mk.injEq]
        simp only [hk, false_and, false_or]

namespace JsValue

mutual

/-- The value with the members of its objects in the order of their names. -/
def inKeyOrder : JsValue → JsValue
  | .arr items => .arr (inKeyOrderItems items)
  | .obj members => .obj (sortByKey Prod.fst (inKeyOrderMembers members))
  | v => v

def inKeyOrderItems : List JsValue → List JsValue
  | [] => []
  | v :: vs => inKeyOrder v :: inKeyOrderItems vs

def inKeyOrderMembers : List (String × JsValue) → List (String × JsValue)
  | [] => []
  | (k, v) :: rest => (k, inKeyOrder v) :: inKeyOrderMembers rest

end

theorem inKeyOrderItems_eq (items : List JsValue) :
    inKeyOrderItems items = items.map inKeyOrder := by
  induction items with
  | nil => rfl
  | cons v vs ih => rw [inKeyOrderItems, ih, List.map_cons]

theorem inKeyOrderMembers_eq (members : List (String × JsValue)) :
    inKeyOrderMembers members = members.map fun m => (m.1, m.2.inKeyOrder) := by
  induction members with
  | nil => rfl
  | cons m ms ih => rw [inKeyOrderMembers, ih, List.map_cons]

/-- A member keeps its name. -/
theorem get_inKeyOrder {members : List (String × JsValue)}
    (h : (members.map Prod.fst).Nodup) (k : String) :
    (JsValue.obj members).inKeyOrder.get k = ((JsValue.obj members).get k).inKeyOrder := by
  have hkeys : ((inKeyOrderMembers members).map Prod.fst) = members.map Prod.fst := by
    rw [inKeyOrderMembers_eq, List.map_map]
    rfl
  have hsorted : ((sortByKey Prod.fst (inKeyOrderMembers members)).map Prod.fst).Nodup := by
    refine (((sortByKey_perm Prod.fst _).map Prod.fst).nodup_iff).2 ?_
    rwa [hkeys]
  have hlookup : (sortByKey Prod.fst (inKeyOrderMembers members)).lookup k =
      (members.lookup k).map inKeyOrder := by
    ext v
    rw [lookup_eq_some_iff hsorted, mem_sortByKey, inKeyOrderMembers_eq, Option.map_eq_some_iff]
    simp only [lookup_eq_some_iff h, List.mem_map, Prod.exists, Prod.mk.injEq]
    constructor
    · rintro ⟨k', w, hmem, rfl, rfl⟩
      exact ⟨w, hmem, rfl⟩
    · rintro ⟨w, hmem, rfl⟩
      exact ⟨k, w, hmem, rfl, rfl⟩
  unfold get
  rw [inKeyOrder]
  dsimp only
  rw [hlookup]
  cases members.lookup k <;> rfl

/-- Objects with one normal form have one normal form of each member. -/
theorem inKeyOrder_get_eq {ms ms' : List (String × JsValue)} (hms : (ms.map Prod.fst).Nodup)
    (hms' : (ms'.map Prod.fst).Nodup)
    (h : (JsValue.obj ms).inKeyOrder = (JsValue.obj ms').inKeyOrder) (k : String) :
    ((JsValue.obj ms).get k).inKeyOrder = ((JsValue.obj ms').get k).inKeyOrder := by
  rw [← get_inKeyOrder hms, ← get_inKeyOrder hms', h]

theorem inKeyOrder_arr_eq {xs ys : List JsValue}
    (h : (JsValue.arr xs).inKeyOrder = (JsValue.arr ys).inKeyOrder) :
    xs.map inKeyOrder = ys.map inKeyOrder := by
  rw [← inKeyOrderItems_eq, ← inKeyOrderItems_eq]
  exact JsValue.arr.inj h

mutual

private theorem stableOrdered : ∀ v : JsValue, v.persisted = v → v.WellFormed →
    v.inKeyOrder.Stable
  | .arr items, h, hwf => by
      rw [inKeyOrder]
      rw [persisted] at h
      exact stable_arr (stableOrderedItems items (JsValue.arr.inj h) hwf)
  | .obj members, h, hwf => by
      rw [inKeyOrder]
      rw [persisted] at h
      have hkeys : (inKeyOrderMembers members).map Prod.fst = members.map Prod.fst := by
        rw [inKeyOrderMembers_eq, List.map_map]
        rfl
      refine stable_obj ?_ fun m hm => ?_
      · rw [((sortByKey_perm Prod.fst _).map Prod.fst).nodup_iff, hkeys]
        exact hwf.1
      · exact stableOrderedMembers members (JsValue.obj.inj h) hwf.2 m
          ((mem_sortByKey Prod.fst).1 hm)
  | .bool _, _, _ => ⟨rfl, rfl, trivial⟩
  | .str s, _, _ => stable_str s
  | .null, _, _ => stable_null
  | .num (.fin q), h, _ => ⟨rfl, h, trivial⟩
  | .undefined, h, _ | .function, h, _ | .symbol, h, _ => by cases h
  | .num .nan, h, _ | .num .posInf, h, _ | .num .negInf, h, _ => by cases h

private theorem stableOrderedItems : ∀ items : List JsValue, persistedItems items = items →
    WellFormedItems items → ∀ w ∈ inKeyOrderItems items, w.Stable
  | [], _, _, _, hw => by cases hw
  | v :: vs, h, hwf, w, hw => by
      rw [persistedItems] at h
      rw [inKeyOrderItems] at hw
      obtain ⟨hv, hvs⟩ := List.cons.inj h
      rcases List.mem_cons.1 hw with rfl | hrest
      · exact stableOrdered v hv hwf.1
      · exact stableOrderedItems vs hvs hwf.2 w hrest

private theorem stableOrderedMembers : ∀ members : List (String × JsValue),
    persistedMembers members = members → WellFormedMembers members →
      ∀ m ∈ inKeyOrderMembers members, m.2.Stable
  | [], _, _, _, hm => by cases hm
  | (k, v) :: rest, h, hwf, m, hm => by
      unfold persistedMembers at h
      rw [inKeyOrderMembers] at hm
      split at h
      · -- a dropped member would shorten the list
        have hlength := (Json.keys_persistedMembers rest).length_le
        rw [h, List.length_map, List.length_map, List.length_cons] at hlength
        omega
      · obtain ⟨hv, hrest⟩ := List.cons.inj h
        rcases List.mem_cons.1 hm with rfl | hmem
        · exact stableOrdered v (Prod.mk.inj hv).2 hwf.1
        · exact stableOrderedMembers rest hrest hwf.2 m hmem

end

/-- Ordered, a JSON value is one still. -/
theorem Stable.inKeyOrder {v : JsValue} (h : v.Stable) : v.inKeyOrder.Stable :=
  stableOrdered v h.persisted_eq h.wellFormed

end JsValue

end AgentWorth.Js
