import AgentWorth.Lib.Map

/-!
# Tables keyed by their rows

A map in which every value is stored under a key read off the value itself: the
`Map<string, T>` of a repository that always writes `map.set(row.id, row)`, or
a database table with its primary key.  The agreement of key and row is part of
the type.
-/

namespace AgentWorth.Js

/-- A selection from distinct rows has the same order however the rows are
ordered exactly when it has at most one row. -/
theorem filter_perm_iff {α : Type} {rows : List α} (hnd : rows.Nodup) (p : α → Bool) :
    (∀ rows' : List α, rows'.Perm rows → rows'.filter p = rows.filter p) ↔
      (rows.filter p).length ≤ 1 := by
  constructor
  · intro h
    have hrev : (rows.filter p).reverse = rows.filter p := by
      rw [← List.filter_reverse]
      exact h rows.reverse rows.reverse_perm
    have hnd' : (rows.filter p).Nodup := hnd.filter p
    generalize rows.filter p = selected at hrev hnd'
    by_contra hlong
    obtain ⟨a, b, rest, rfl⟩ : ∃ a b rest, selected = a :: b :: rest := by
      match selected, hlong with
      | [], hlong => exact absurd (Nat.zero_le 1) hlong
      | [_], hlong => exact absurd le_rfl hlong
      | a :: b :: rest, _ => exact ⟨a, b, rest, rfl⟩
    have hhead := congrArg List.head? hrev
    rw [List.head?_reverse, List.head?_cons] at hhead
    have hlast : a ∈ b :: rest := by
      rw [List.getLast?_cons_cons] at hhead
      exact List.mem_of_getLast? hhead
    exact (List.nodup_cons.1 hnd').1 hlast
  · intro hlen rows' hperm
    have hfiltered := hperm.filter p
    match hselected : rows.filter p, hlen with
    | [], _ => rwa [hselected, List.perm_nil] at hfiltered
    | [a], _ => rwa [hselected, List.perm_singleton] at hfiltered

/-- Rows by the key each of them carries. -/
structure Table {α : Type} (key : α → String) where
  map : JsMap α
  keyed : ∀ k v, map.get k = some v → key v = k

namespace Table

variable {α : Type} {key : α → String}

def empty : Table key := ⟨.empty, fun _ _ h => by simp at h⟩

instance : Inhabited (Table key) := ⟨empty⟩

def get (t : Table key) (k : String) : Option α := t.map.get k

/-- The rows, in insertion order. -/
def values (t : Table key) : List α := t.map.values

/-- Write a row under its own key: append it, or replace the row that has it. -/
def put (t : Table key) (v : α) : Table key where
  map := t.map.set (key v) v
  keyed := by
    intro k w h
    rw [JsMap.get_set] at h
    split at h
    · next hk =>
        cases h
        exact hk.symm
    · exact t.keyed k w h

/-- Change the row stored under `k`, if there is one, keeping its key. -/
def modify (t : Table key) (k : String) (f : α → α) : Table key :=
  match t.get k with
  | some v => t.put (f v)
  | none => t

@[simp] theorem get_empty (k : String) : (empty : Table key).get k = none := rfl

@[simp] theorem values_empty : (empty : Table key).values = [] := rfl

/-- A row is found under the key it carries. -/
theorem key_of_get {t : Table key} {k : String} {v : α} (h : t.get k = some v) :
    key v = k := t.keyed k v h

theorem get_put (t : Table key) (v : α) (k : String) :
    (t.put v).get k = if k = key v then some v else t.get k :=
  JsMap.get_set t.map (key v) k v

@[simp] theorem get_put_self (t : Table key) (v : α) : (t.put v).get (key v) = some v := by
  rw [get_put, if_pos rfl]

theorem get_put_of_ne {t : Table key} {v : α} {k : String} (h : k ≠ key v) :
    (t.put v).get k = t.get k := by
  rw [get_put, if_neg h]

/-- Writing the row that is there changes nothing. -/
theorem put_of_get {t : Table key} {v : α} (h : t.get (key v) = some v) : t.put v = t := by
  obtain ⟨m, hm⟩ := t
  have hset : m.set (key v) v = m := JsMap.set_of_get h
  simp only [put, hset]

theorem get_modify {t : Table key} {k : String} {f : α → α}
    (hf : ∀ v, key (f v) = key v) (k' : String) :
    (t.modify k f).get k' = if k' = k then (t.get k).map f else t.get k' := by
  unfold modify
  cases h : t.get k with
  | none =>
      by_cases hk : k' = k
      · rw [if_pos hk, hk, h, Option.map_none]
      · rw [if_neg hk]
  | some v =>
      have hkey : key (f v) = k := by rw [hf, key_of_get h]
      by_cases hk : k' = k
      · rw [if_pos hk, hk, ← hkey, get_put_self, Option.map_some]
      · rw [if_neg hk, get_put_of_ne (by rw [hkey]; exact hk)]

theorem mem_values_iff {t : Table key} {v : α} :
    v ∈ t.values ↔ t.get (key v) = some v := by
  constructor
  · intro h
    obtain ⟨k, hk⟩ := (JsMap.mem_values_iff t.map v).1 h
    rw [key_of_get hk]
    exact hk
  · exact JsMap.mem_values_of_get

theorem mem_values_of_get {t : Table key} {k : String} {v : α} (h : t.get k = some v) :
    v ∈ t.values := JsMap.mem_values_of_get h

/-- A row under a fresh key goes to the end. -/
theorem values_put_of_none {t : Table key} {v : α} (h : t.get (key v) = none) :
    (t.put v).values = t.values ++ [v] := JsMap.values_set_of_none h

theorem nodup_keys (t : Table key) : (t.values.map key).Nodup := by
  have hkeys : t.values.map key = t.map.entries.map Prod.fst := by
    rw [values, JsMap.values, List.map_map]
    refine List.map_congr_left ?_
    rintro ⟨k, v⟩ he
    exact t.keyed k v ((JsMap.mem_entries_iff t.map k v).1 he)
  rw [hkeys]
  exact t.map.nodup

theorem get_eq_some_iff {t : Table key} {k : String} {v : α} :
    t.get k = some v ↔ v ∈ t.values ∧ key v = k := by
  constructor
  · intro h
    exact ⟨mem_values_of_get h, key_of_get h⟩
  · rintro ⟨hmem, rfl⟩
    exact mem_values_iff.1 hmem

/-- Tables with the same rows, in whatever order, answer alike. -/
theorem get_eq_of_perm {t t' : Table key} (h : t.values.Perm t'.values) (k : String) :
    t.get k = t'.get k := by
  ext v
  rw [get_eq_some_iff, get_eq_some_iff, h.mem_iff]

/-- Tables that answer alike have the same rows, in some order. -/
theorem values_perm {t t' : Table key} (h : ∀ k, t.get k = t'.get k) :
    t.values.Perm t'.values := by
  have hperm : t.map.values.Perm (t'.map.values.map id) :=
    JsMap.values_perm_of_get_eq fun k => by rw [Option.map_id]; exact h k
  rwa [List.map_id] at hperm

theorem nodup_values (t : Table key) : t.values.Nodup := t.nodup_keys.of_map

/-- Rows under fresh and distinct keys go to the end, one after another. -/
theorem values_foldl_put {t : Table key} {vs : List α} (hkeys : (vs.map key).Nodup)
    (hfresh : ∀ v ∈ vs, t.get (key v) = none) :
    (vs.foldl put t).values = t.values ++ vs := by
  induction vs generalizing t with
  | nil => simp
  | cons v vs ih =>
      obtain ⟨hnew, hrest⟩ := List.nodup_cons.1 hkeys
      have hv := hfresh v (List.mem_cons_self ..)
      rw [List.foldl_cons, ih hrest, values_put_of_none hv, List.append_assoc]
      · rfl
      · intro w hw
        rw [get_put_of_ne]
        · exact hfresh w (List.mem_cons_of_mem _ hw)
        · intro heq
          exact hnew (heq ▸ List.mem_map_of_mem hw)

/-- A nonnegative weight summed over rows named by distinct keys is at most its
sum over all rows. -/
theorem sum_le_sum_values {w : α → ℚ} (t : Table key) (hw : ∀ v ∈ t.values, 0 ≤ w v)
    (ks : List (String × ℚ)) (hnd : (ks.map Prod.fst).Nodup)
    (hks : ∀ e ∈ ks, ∃ v, t.get e.1 = some v ∧ e.2 ≤ w v) :
    (ks.map Prod.snd).sum ≤ (t.values.map w).sum :=
  t.map.sum_keys_le hw ks hnd hks

/-- A sum over selected rows, as a sum over all rows. -/
theorem sum_filter {l : List α} (p : α → Bool) (w : α → ℚ) :
    ((l.filter p).map w).sum = (l.map fun v => if p v then w v else 0).sum := by
  induction l with
  | nil => rfl
  | cons v l ih =>
      by_cases hv : p v = true
      · rw [List.filter_cons_of_pos hv, List.map_cons, List.sum_cons, ih, List.map_cons,
          List.sum_cons, if_pos hv]
      · rw [List.filter_cons_of_neg hv, ih, List.map_cons, List.sum_cons, if_neg hv, zero_add]

/-- The same over the rows that satisfy a test, which the named rows do. -/
theorem sum_le_sum_filter {w : α → ℚ} (t : Table key) (p : α → Bool)
    (hw : ∀ v ∈ t.values, p v = true → 0 ≤ w v) (ks : List (String × ℚ))
    (hnd : (ks.map Prod.fst).Nodup)
    (hks : ∀ e ∈ ks, ∃ v, t.get e.1 = some v ∧ p v = true ∧ e.2 ≤ w v) :
    (ks.map Prod.snd).sum ≤ ((t.values.filter p).map w).sum := by
  rw [sum_filter]
  refine t.sum_le_sum_values ?_ ks hnd ?_
  · intro v hv
    by_cases hp : p v = true
    · rw [if_pos hp]
      exact hw v hv hp
    · rw [if_neg hp]
  · intro e he
    obtain ⟨v, hget, hp, hle⟩ := hks e he
    exact ⟨v, hget, by rw [if_pos hp]; exact hle⟩

/-! ## Images -/

variable {β : Type} {key' : β → String}

/-- The rows changed, each under its own key. -/
def image (f : α → β) (hf : ∀ v, key' (f v) = key v) (t : Table key) : Table key' where
  map := t.map.mapValues f
  keyed := by
    intro k w h
    rw [JsMap.get_mapValues] at h
    obtain ⟨v, hv, rfl⟩ := Option.map_eq_some_iff.1 h
    rw [hf, t.keyed k v hv]

variable {f : α → β} {hf : ∀ v, key' (f v) = key v}

theorem get_image (t : Table key) (k : String) : (t.image f hf).get k = (t.get k).map f :=
  JsMap.get_mapValues f t.map k

theorem values_image (t : Table key) : (t.image f hf).values = t.values.map f :=
  JsMap.values_mapValues f t.map

theorem image_put (t : Table key) (v : α) : (t.put v).image f hf = (t.image f hf).put (f v) := by
  simp only [image, put, JsMap.mapValues_set, hf]

end Table

end AgentWorth.Js
