import AgentWorth.Lib.Value

/-!
# Sets and maps with any keys

The ECMAScript `Set` and `Map` whose keys are arbitrary values.  Iteration is
in insertion order, and an object is the same key as nothing read elsewhere.
-/

namespace AgentWorth.Js

/-! ## Sets -/

structure ValueSet where
  items : List JsValue

namespace ValueSet

/-- `new Set()`. -/
def empty : ValueSet := ⟨[]⟩

/-- `s.has(v)`. -/
def has (s : ValueSet) (v : JsValue) : Bool := s.items.any fun w => w.sameKey v

/-- `s.add(v)`. -/
def add (s : ValueSet) (v : JsValue) : ValueSet :=
  if s.has v then s else ⟨s.items ++ [v]⟩

@[simp] theorem items_empty : empty.items = [] := rfl

theorem has_iff {s : ValueSet} {v : JsValue} :
    s.has v = true ↔ v ∈ s.items ∧ v.isScalar = true := by
  simp only [has, List.any_eq_true, JsValue.sameKey_iff]
  constructor
  · rintro ⟨w, hw, rfl, hscalar⟩
    exact ⟨hw, hscalar⟩
  · rintro ⟨hv, hscalar⟩
    exact ⟨v, hv, rfl, hscalar⟩

@[simp] theorem mem_add {s : ValueSet} {v w : JsValue} :
    w ∈ (s.add v).items ↔ w ∈ s.items ∨ w = v := by
  unfold add
  by_cases h : s.has v = true
  · rw [if_pos h]
    constructor
    · exact Or.inl
    · rintro (hw | rfl)
      · exact hw
      · exact (has_iff.1 h).1
  · rw [if_neg h]
    simp

end ValueSet

/-! ## Maps -/

/-- Replace the value at a key in place, or append the entry. -/
def setKey {α : Type} (k : JsValue) (v : α) : List (JsValue × α) → List (JsValue × α)
  | [] => [(k, v)]
  | (k', v') :: rest => if k'.sameKey k then (k', v) :: rest else (k', v') :: setKey k v rest

/-- The value at a key. -/
def findKey {α : Type} (k : JsValue) : List (JsValue × α) → Option α
  | [] => none
  | (k', v') :: rest => if k'.sameKey k then some v' else findKey k rest

theorem findKey_setKey {α : Type} (k k' : JsValue) (v : α) (es : List (JsValue × α)) :
    findKey k' (setKey k v es) = if k.sameKey k' then some v else findKey k' es := by
  induction es with
  | nil => rfl
  | cons e es ih =>
      obtain ⟨k₀, v₀⟩ := e
      by_cases h : k₀.sameKey k = true
      · obtain ⟨rfl, -⟩ := JsValue.sameKey_iff.1 h
        simp only [setKey, if_pos h, findKey]
        split <;> rfl
      · simp only [setKey, if_neg h, findKey, ih]
        by_cases h₀ : k₀.sameKey k' = true
        · have hne : ¬ k.sameKey k' = true := by
            intro hk
            obtain ⟨rfl, hscalar⟩ := JsValue.sameKey_iff.1 h₀
            obtain ⟨rfl, -⟩ := JsValue.sameKey_iff.1 hk
            exact h (JsValue.sameKey_iff.2 ⟨rfl, hscalar⟩)
          rw [if_pos h₀, if_neg hne, if_pos h₀]
        · rw [if_neg h₀, if_neg h₀]

structure ValueMap (α : Type) where
  entries : List (JsValue × α)

namespace ValueMap

variable {α : Type}

/-- `new Map()`. -/
def empty : ValueMap α := ⟨[]⟩

/-- `m.get(k)`. -/
def get (m : ValueMap α) (k : JsValue) : Option α := findKey k m.entries

/-- `m.set(k, v)`. -/
def set (m : ValueMap α) (k : JsValue) (v : α) : ValueMap α := ⟨setKey k v m.entries⟩

@[simp] theorem get_empty (k : JsValue) : (empty : ValueMap α).get k = none := rfl

@[simp] theorem get_set (m : ValueMap α) (k k' : JsValue) (v : α) :
    (m.set k v).get k' = if k.sameKey k' then some v else m.get k' :=
  findKey_setKey k k' v m.entries

end ValueMap

end AgentWorth.Js
