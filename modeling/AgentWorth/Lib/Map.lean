import Mathlib.Data.List.Induction
import Mathlib.Data.List.Nodup
import Mathlib.Data.List.Perm.Subperm
import Mathlib.Algebra.Order.BigOperators.Group.List
import Mathlib.Algebra.Order.Ring.Unbundled.Rat
import Mathlib.Algebra.Ring.Rat

/-!
# Insertion-ordered maps

The ECMAScript `Map` with string keys: `set` on a present key keeps the key's
position, `values()` lists in insertion order.  Keys are distinct by
construction, so a map built through `set` never needs a separate argument that
a key names one entry.
-/

namespace AgentWorth.Js

/-- Replace the value at `k` in place, or append the entry. -/
def setEntry {α : Type} (k : String) (v : α) : List (String × α) → List (String × α)
  | [] => [(k, v)]
  | (k', v') :: rest => if k' = k then (k, v) :: rest else (k', v') :: setEntry k v rest

theorem keys_setEntry {α : Type} (k : String) (v : α) (es : List (String × α)) :
    (setEntry k v es).map Prod.fst =
      if k ∈ es.map Prod.fst then es.map Prod.fst else es.map Prod.fst ++ [k] := by
  induction es with
  | nil => simp [setEntry]
  | cons e es ih =>
      obtain ⟨k', v'⟩ := e
      by_cases hk : k' = k
      · simp [setEntry, hk]
      · have hk' : ¬ k = k' := fun h => hk h.symm
        simp only [setEntry, hk, if_false, List.map_cons, ih, List.mem_cons, hk', false_or]
        split <;> rfl

/-- A `Map<string, α>`. -/
structure JsMap (α : Type) where
  entries : List (String × α)
  nodup : (entries.map Prod.fst).Nodup
  deriving DecidableEq

namespace JsMap

variable {α : Type}

/-- `new Map()`. -/
def empty : JsMap α := ⟨[], List.nodup_nil⟩

instance : Inhabited (JsMap α) := ⟨empty⟩

/-- `m.get(k)`. -/
def get (m : JsMap α) (k : String) : Option α := m.entries.lookup k

/-- `m.has(k)`. -/
def has (m : JsMap α) (k : String) : Bool := (m.get k).isSome

/-- `[...m.keys()]`. -/
def keys (m : JsMap α) : List String := m.entries.map Prod.fst

/-- `[...m.values()]`. -/
def values (m : JsMap α) : List α := m.entries.map Prod.snd

/-- `m.set(k, v)`. -/
def set (m : JsMap α) (k : String) (v : α) : JsMap α where
  entries := setEntry k v m.entries
  nodup := by
    rw [keys_setEntry]
    split
    · exact m.nodup
    · next h =>
        exact m.nodup.append (List.nodup_singleton k) (List.disjoint_singleton.2 h)

/-- `Object.fromEntries(es)`, `new Map(es)`: a repeated key takes its last value. -/
def ofEntries (es : List (String × α)) : JsMap α :=
  es.foldl (fun m e => m.set e.1 e.2) empty

@[simp] theorem get_empty (k : String) : (empty : JsMap α).get k = none := rfl

@[simp] theorem values_empty : (empty : JsMap α).values = [] := rfl

theorem lookup_setEntry (k k' : String) (v : α) (es : List (String × α)) :
    (setEntry k v es).lookup k' = if k' = k then some v else es.lookup k' := by
  induction es with
  | nil =>
      by_cases h : k' = k
      · simp [setEntry, h]
      · have hb : (k' == k) = false := by simpa using h
        simp [setEntry, List.lookup_cons, h, hb]
  | cons e es ih =>
      obtain ⟨k₀, v₀⟩ := e
      by_cases h₀ : k₀ = k
      · subst h₀
        by_cases h : k' = k₀
        · simp [setEntry, h]
        · have hb : (k' == k₀) = false := by simpa using h
          simp [setEntry, List.lookup_cons, h, hb]
      · simp only [setEntry, h₀, if_false, List.lookup_cons]
        by_cases h : k' = k₀
        · subst h
          simp [h₀]
        · have hb : (k' == k₀) = false := by simpa using h
          simp only [hb, ih]

@[simp] theorem get_set (m : JsMap α) (k k' : String) (v : α) :
    (m.set k v).get k' = if k' = k then some v else m.get k' :=
  lookup_setEntry k k' v m.entries

theorem get_set_self (m : JsMap α) (k : String) (v : α) :
    (m.set k v).get k = some v := by simp

theorem setEntry_of_lookup {k : String} {v : α} {es : List (String × α)}
    (h : es.lookup k = some v) : setEntry k v es = es := by
  induction es with
  | nil => cases h
  | cons e es ih =>
      obtain ⟨k', v'⟩ := e
      rw [List.lookup_cons] at h
      by_cases hk : k' = k
      · subst hk
        rw [beq_self_eq_true] at h
        cases h
        simp [setEntry]
      · have hb : (k == k') = false := by simpa using fun h => hk h.symm
        rw [hb] at h
        simp [setEntry, hk, ih h]

/-- Writing what is there changes nothing. -/
theorem set_of_get {m : JsMap α} {k : String} {v : α} (h : m.get k = some v) :
    m.set k v = m := by
  obtain ⟨es, hnd⟩ := m
  simp only [set, setEntry_of_lookup h]

theorem mem_entries_iff (m : JsMap α) (k : String) (v : α) :
    (k, v) ∈ m.entries ↔ m.get k = some v := by
  obtain ⟨es, hnd⟩ := m
  simp only [get]
  induction es with
  | nil => simp
  | cons e es ih =>
      obtain ⟨k', v'⟩ := e
      simp only [List.map_cons, List.nodup_cons] at hnd
      have ih' := ih hnd.2
      by_cases h : k = k'
      · subst h
        have hout : (k, v) ∉ es := fun hmem => hnd.1 (List.mem_map_of_mem hmem)
        simp [hout, eq_comm]
      · have hb : (k == k') = false := by simpa using h
        simp [List.lookup_cons, hb, h, ih']

theorem mem_values_iff (m : JsMap α) (v : α) :
    v ∈ m.values ↔ ∃ k, m.get k = some v := by
  simp only [values, List.mem_map, Prod.exists, exists_eq_right]
  constructor
  · rintro ⟨k, h⟩
    exact ⟨k, (mem_entries_iff m k v).1 h⟩
  · rintro ⟨k, h⟩
    exact ⟨k, (mem_entries_iff m k v).2 h⟩

theorem mem_values_of_get {m : JsMap α} {k : String} {v : α} (h : m.get k = some v) :
    v ∈ m.values := (mem_values_iff m v).2 ⟨k, h⟩

theorem nodup_entries (m : JsMap α) : m.entries.Nodup := m.nodup.of_map

/-- Maps that agree through `f` hold the same values through `f`, in some
order. -/
theorem values_perm_of_get_eq {β : Type} {m : JsMap β} {m' : JsMap α} {f : α → β}
    (h : ∀ k, m.get k = (m'.get k).map f) : m.values.Perm (m'.values.map f) := by
  have hentries : m.entries.Perm (m'.entries.map fun e => (e.1, f e.2)) := by
    refine (List.perm_ext_iff_of_nodup m.nodup_entries ?_).2 ?_
    · refine List.Nodup.of_map Prod.fst ?_
      rw [List.map_map]
      exact m'.nodup
    · rintro ⟨k, v⟩
      rw [mem_entries_iff, h, Option.map_eq_some_iff, List.mem_map]
      constructor
      · rintro ⟨a, ha, rfl⟩
        exact ⟨(k, a), (mem_entries_iff m' k a).2 ha, rfl⟩
      · rintro ⟨⟨k', a⟩, ha, heq⟩
        cases heq
        exact ⟨a, (mem_entries_iff m' _ a).1 ha, rfl⟩
  have hvalues := hentries.map Prod.snd
  rwa [List.map_map, show Prod.snd ∘ (fun e : String × α => (e.1, f e.2)) = f ∘ Prod.snd from rfl,
    ← List.map_map] at hvalues

theorem setEntry_of_not_mem {k : String} {v : α} {es : List (String × α)}
    (h : k ∉ es.map Prod.fst) : setEntry k v es = es ++ [(k, v)] := by
  induction es with
  | nil => rfl
  | cons e es ih =>
      simp only [List.map_cons, List.mem_cons, not_or] at h
      simp only [setEntry, if_neg (Ne.symm h.1), ih h.2, List.cons_append]

theorem not_mem_keys_of_get {m : JsMap α} {k : String} (h : m.get k = none) :
    k ∉ m.keys := by
  intro hmem
  obtain ⟨⟨k', v⟩, he, rfl⟩ := List.mem_map.1 hmem
  rw [(mem_entries_iff m k' v).1 he] at h
  cases h

/-- A fresh key is appended. -/
theorem values_set_of_none {m : JsMap α} {k : String} {v : α} (h : m.get k = none) :
    (m.set k v).values = m.values ++ [v] := by
  simp only [values, set, setEntry_of_not_mem (not_mem_keys_of_get h), List.map_append,
    List.map_cons, List.map_nil]

/-- A map is rebuilt from its entries. -/
theorem ofEntries_entries (m : JsMap α) : ofEntries m.entries = m := by
  have key : ∀ (es : List (String × α)) (acc : JsMap α),
      ((acc.entries ++ es).map Prod.fst).Nodup →
        (es.foldl (fun m e => m.set e.1 e.2) acc).entries = acc.entries ++ es := by
    intro es
    induction es with
    | nil => intro acc _; simp
    | cons e es ih =>
        intro acc hnd
        have hout : e.1 ∉ acc.entries.map Prod.fst := by
          rw [List.map_append, List.nodup_append] at hnd
          intro hmem
          exact hnd.2.2 _ hmem _ (by simp) rfl
        have hset : (acc.set e.1 e.2).entries = acc.entries ++ [e] :=
          setEntry_of_not_mem hout
        rw [List.foldl_cons, ih _ (by rw [hset]; simpa using hnd), hset]
        simp
  have h := key m.entries empty (by simpa [empty] using m.nodup)
  obtain ⟨es, hnd⟩ := m
  simp only [ofEntries, empty, List.nil_append] at h ⊢
  generalize es.foldl _ _ = built at h
  cases built
  cases h
  rfl

theorem ofEntries_snoc (es : List (String × α)) (e : String × α) :
    ofEntries (es ++ [e]) = (ofEntries es).set e.1 e.2 := by
  simp [ofEntries]

/-- What is read was written. -/
theorem mem_of_get_ofEntries {es : List (String × α)} {k : String} {v : α}
    (h : (ofEntries es).get k = some v) : (k, v) ∈ es := by
  induction es using List.reverseRecOn with
  | nil => cases h
  | append_singleton es e ih =>
      rw [ofEntries_snoc, get_set] at h
      by_cases hk : k = e.1
      · rw [if_pos hk] at h
        cases h
        rw [hk]
        simp
      · rw [if_neg hk] at h
        exact List.mem_append_left _ (ih h)

/-- A key whose entries agree reads as their common value. -/
theorem get_ofEntries {es : List (String × α)} {k : String} {v : α}
    (h : ∀ e ∈ es, e.1 = k → e.2 = v) :
    (ofEntries es).get k = if k ∈ es.map Prod.fst then some v else none := by
  induction es using List.reverseRecOn with
  | nil => rfl
  | append_singleton es e ih =>
      rw [ofEntries_snoc, get_set, ih fun e' he' => h e' (List.mem_append_left _ he')]
      by_cases hk : k = e.1
      · have hv : e.2 = v := h e (by simp) hk.symm
        simp [hk, hv]
      · simp only [List.map_append, List.map_cons, List.map_nil, List.mem_append, if_false,
          List.mem_singleton, hk, or_false]

/-- Entries that name a key at most once, read in any order. -/
theorem get_ofEntries_of_mem_iff {es : List (String × α)} {k : String} {o : Option α}
    (h : ∀ v, (k, v) ∈ es ↔ o = some v) : (ofEntries es).get k = o := by
  cases o with
  | some v =>
      rw [get_ofEntries (v := v), if_pos]
      · exact List.mem_map_of_mem ((h v).2 rfl)
      · rintro ⟨k', v'⟩ he rfl
        exact (Option.some.inj ((h v').1 he)).symm
  | none =>
      cases hget : (ofEntries es).get k with
      | none => rfl
      | some v =>
          have hmem : k ∈ es.map Prod.fst := by
            by_contra hout
            rw [get_ofEntries (v := v), if_neg hout] at hget
            · cases hget
            · rintro ⟨k', v'⟩ he rfl
              exact absurd (List.mem_map_of_mem he) hout
          obtain ⟨⟨k', v'⟩, he, rfl⟩ := List.mem_map.1 hmem
          exact absurd ((h v').1 he) (by simp)

/-- Setting a key again to the same value changes nothing. -/
theorem set_set (m : JsMap α) (k : String) (v : α) : (m.set k v).set k v = m.set k v := by
  have key : ∀ es : List (String × α),
      setEntry k v (setEntry k v es) = setEntry k v es := by
    intro es
    induction es with
    | nil => simp [setEntry]
    | cons e es ih =>
        by_cases h : e.1 = k
        · simp [setEntry, h]
        · simp [setEntry, h, ih]
  have h := key m.entries
  unfold set
  congr 1

/-! ### Sums over distinct keys -/

/-- A nonnegative weight summed over distinct present keys is at most its sum
over all values. -/
theorem sum_keys_le {w : α → ℚ} (m : JsMap α) (hw : ∀ v ∈ m.values, 0 ≤ w v)
    (ks : List (String × ℚ)) (hnd : (ks.map Prod.fst).Nodup)
    (hks : ∀ e ∈ ks, ∃ v, m.get e.1 = some v ∧ e.2 ≤ w v) :
    (ks.map Prod.snd).sum ≤ (m.values.map w).sum := by
  classical
  let at_ : String → ℚ := fun k => ((m.get k).map w).getD 0
  have hat : ∀ e ∈ ks, e.2 ≤ at_ e.1 := by
    intro e he
    obtain ⟨v, hv, hle⟩ := hks e he
    simpa [at_, hv] using hle
  have hsub : (ks.map Prod.fst).Subperm m.keys := by
    apply hnd.subperm
    intro k hk
    obtain ⟨e, he, rfl⟩ := List.mem_map.1 hk
    obtain ⟨v, hv, _⟩ := hks e he
    exact List.mem_map.2 ⟨(e.1, v), (mem_entries_iff m e.1 v).2 hv, rfl⟩
  have hkeys : m.keys.map at_ = m.values.map w := by
    simp only [keys, values, List.map_map]
    apply List.map_congr_left
    rintro ⟨k, v⟩ he
    simp [at_, (mem_entries_iff m k v).1 he]
  obtain ⟨l, hperm, hl⟩ := hsub
  calc (ks.map Prod.snd).sum
      ≤ (ks.map (fun e => at_ e.1)).sum := List.sum_le_sum hat
    _ = ((ks.map Prod.fst).map at_).sum := by rw [List.map_map]; rfl
    _ = (l.map at_).sum := (hperm.map at_).sum_eq.symm
    _ ≤ (m.keys.map at_).sum := by
        apply (hl.map at_).sum_le_sum
        intro q hq
        rw [hkeys] at hq
        obtain ⟨v, hv, rfl⟩ := List.mem_map.1 hq
        exact hw v hv
    _ = (m.values.map w).sum := by rw [hkeys]

/-! ## Images -/

variable {β : Type}

theorem setEntry_map (f : α → β) (k : String) (v : α) (es : List (String × α)) :
    (setEntry k v es).map (fun e => (e.1, f e.2)) =
      setEntry k (f v) (es.map fun e => (e.1, f e.2)) := by
  induction es with
  | nil => rfl
  | cons e es ih =>
      by_cases hk : e.1 = k
      · simp [setEntry, hk]
      · simp [setEntry, hk, ih]

/-- The map with every value changed. -/
def mapValues (f : α → β) (m : JsMap α) : JsMap β where
  entries := m.entries.map fun e => (e.1, f e.2)
  nodup := by
    rw [List.map_map]
    exact m.nodup

theorem get_mapValues (f : α → β) (m : JsMap α) (k : String) :
    (m.mapValues f).get k = (m.get k).map f := by
  obtain ⟨es, hnd⟩ := m
  simp only [get, mapValues]
  clear hnd
  induction es with
  | nil => rfl
  | cons e es ih =>
      obtain ⟨k', v⟩ := e
      by_cases hk : k = k'
      · simp [hk]
      · have hb : (k == k') = false := by simpa using hk
        simp [List.lookup_cons, hb, ih]

theorem values_mapValues (f : α → β) (m : JsMap α) :
    (m.mapValues f).values = m.values.map f := by
  simp only [values, mapValues, List.map_map]
  rfl

theorem mapValues_set (f : α → β) (m : JsMap α) (k : String) (v : α) :
    (m.set k v).mapValues f = (m.mapValues f).set k (f v) := by
  simp only [set, mapValues, setEntry_map]

/-! ## Restrictions -/

theorem setEntry_filter (p : String → Bool) (k : String) (v : α) (es : List (String × α)) :
    (setEntry k v es).filter (fun e => p e.1) =
      if p k then setEntry k v (es.filter fun e => p e.1) else es.filter fun e => p e.1 := by
  induction es with
  | nil => by_cases hp : p k <;> simp [setEntry, hp]
  | cons e es ih =>
      by_cases hk : e.1 = k
      · subst hk
        by_cases hp : p e.1 <;> simp [setEntry, hp]
      · by_cases hp : p k <;> by_cases hpe : p e.1 <;> simp_all [setEntry]

/-- The map on the keys that `p` holds of. -/
def restrict (p : String → Bool) (m : JsMap α) : JsMap α where
  entries := m.entries.filter fun e => p e.1
  nodup := m.nodup.sublist (List.filter_sublist.map Prod.fst)

theorem get_restrict {p : String → Bool} {k : String} (m : JsMap α) (hk : p k = true) :
    (m.restrict p).get k = m.get k := by
  obtain ⟨es, hnd⟩ := m
  simp only [get, restrict]
  clear hnd
  induction es with
  | nil => rfl
  | cons e es ih =>
      obtain ⟨k', v⟩ := e
      by_cases hkk : k = k'
      · subst hkk
        simp [hk]
      · have hb : (k == k') = false := by simpa using hkk
        by_cases hp : p k' <;> simp [hp, List.lookup_cons, hb, ih]

theorem restrict_set_of (p : String → Bool) {k : String} (hk : p k = true) (v : α)
    (m : JsMap α) : (m.set k v).restrict p = (m.restrict p).set k v := by
  simp only [set, restrict, setEntry_filter, if_pos hk]

theorem restrict_set_of_not (p : String → Bool) {k : String} (hk : p k = false) (v : α)
    (m : JsMap α) : (m.set k v).restrict p = m.restrict p := by
  simp only [set, restrict, setEntry_filter, hk, Bool.false_eq_true, if_false]

end JsMap

end AgentWorth.Js
