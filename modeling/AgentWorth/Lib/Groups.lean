import AgentWorth.Lib.Map

/-!
# Grouping into a map

A loop that reads the entry at an element's key and writes it back updated.
What the loop leaves at a key depends on the elements of that key alone, in
their order, and the keys are those that occur.
-/

namespace AgentWorth.Js

variable {α β : Type}

/-- `for (const x of xs) groups.set(key(x), update(groups.get(key(x)), x))`. -/
def groupInto (key : α → String) (update : Option β → α → β) (xs : List α) (m : JsMap β) :
    JsMap β :=
  xs.foldl (fun m x => m.set (key x) (update (m.get (key x)) x)) m

variable {key : α → String} {update : Option β → α → β}

/-- **A group is made of its own elements.** -/
theorem get_groupInto (xs : List α) (m : JsMap β) (k : String) :
    (groupInto key update xs m).get k =
      (xs.filter fun x => key x == k).foldl (fun entry x => some (update entry x)) (m.get k) := by
  induction xs generalizing m with
  | nil => rfl
  | cons x xs ih =>
      have hstep : groupInto key update (x :: xs) m =
          groupInto key update xs (m.set (key x) (update (m.get (key x)) x)) := rfl
      rw [hstep, ih, JsMap.get_set]
      by_cases hk : key x = k
      · subst hk
        simp
      · simp [hk, Ne.symm hk]

/-- The keys are those of the elements. -/
theorem mem_keys_groupInto {xs : List α} {k : String} :
    k ∈ (groupInto key update xs .empty).keys ↔ ∃ x ∈ xs, key x = k := by
  have hfold : ∀ (ys : List α) (entry : Option β),
      (ys.foldl (fun entry x => some (update entry x)) entry).isSome =
        (entry.isSome || !ys.isEmpty) := by
    intro ys
    induction ys with
    | nil => simp
    | cons y ys ih =>
        intro entry
        rw [List.foldl_cons, ih]
        simp
  have hkeys : k ∈ (groupInto key update xs .empty).keys ↔
      ((groupInto key update xs .empty).get k).isSome = true := by
    constructor
    · intro hk
      by_contra hnone
      rw [Bool.not_eq_true, Option.isSome_eq_false_iff, Option.isNone_iff_eq_none] at hnone
      exact JsMap.not_mem_keys_of_get hnone hk
    · intro hsome
      obtain ⟨v, hv⟩ := Option.isSome_iff_exists.1 hsome
      exact List.mem_map.2 ⟨(k, v), (JsMap.mem_entries_iff _ k v).2 hv, rfl⟩
  rw [hkeys, get_groupInto, hfold]
  simp [List.filter_eq_nil_iff]

end AgentWorth.Js
