import AgentWorth.Lib.Codec
import AgentWorth.Lib.Json

/-!
# Records that JSON can carry

A value is well formed when no object in it names a member twice.  Scalars are;
an array is when its items are; an object is when its keys are distinct and its
members are.  Codecs built from such codecs write such values, so a record needs
its keys looked at once, whichever of its optional members are present.
-/

namespace AgentWorth.Js

namespace JsValue

theorem wellFormedItems_iff {vs : List JsValue} :
    WellFormedItems vs ↔ ∀ v ∈ vs, v.WellFormed := by
  induction vs with
  | nil => simp [WellFormedItems]
  | cons v vs ih => simp [WellFormedItems, ih]

theorem wellFormedMembers_iff {ms : List (String × JsValue)} :
    WellFormedMembers ms ↔ ∀ m ∈ ms, m.2.WellFormed := by
  induction ms with
  | nil => simp [WellFormedMembers]
  | cons m ms ih => simp [WellFormedMembers, ih]

@[simp] theorem wellFormed_str (s : String) : (JsValue.str s).WellFormed := trivial

@[simp] theorem wellFormed_num (x : JsNumber) : (JsValue.num x).WellFormed := trivial

@[simp] theorem wellFormed_bool (b : Bool) : (JsValue.bool b).WellFormed := trivial

@[simp] theorem wellFormed_undefined : JsValue.undefined.WellFormed := trivial

@[simp] theorem wellFormed_arr {vs : List JsValue} :
    (JsValue.arr vs).WellFormed ↔ ∀ v ∈ vs, v.WellFormed := by
  rw [WellFormed, wellFormedItems_iff]

@[simp] theorem wellFormed_obj_iff {ms : List (String × JsValue)} :
    (JsValue.obj ms).WellFormed ↔ (ms.map Prod.fst).Nodup ∧ ∀ m ∈ ms, m.2.WellFormed := by
  rw [WellFormed, wellFormedMembers_iff]

/-- Keys that are found in order among distinct ones are distinct. -/
theorem wellFormed_obj {ms : List (String × JsValue)} (keys : List String)
    (hkeys : (ms.map Prod.fst).Sublist keys) (hnodup : keys.Nodup)
    (hms : ∀ m ∈ ms, m.2.WellFormed) : (JsValue.obj ms).WellFormed :=
  wellFormed_obj_iff.2 ⟨hkeys.nodup hnodup, hms⟩

@[simp] theorem wellFormed_ofStrings (ss : List String) : (ofStrings ss).WellFormed := by
  simp [ofStrings]

@[simp] theorem wellFormed_optional (s : Option String) :
    ((s.map JsValue.str).getD .undefined).WellFormed := by
  cases s <;> trivial

theorem setEntry_cases {α : Type} {k : String} {v : α} {es : List (String × α)}
    {m : String × α} (h : m ∈ setEntry k v es) : m ∈ es ∨ m = (k, v) := by
  induction es with
  | nil => exact Or.inr (List.mem_singleton.1 h)
  | cons e es ih =>
      rw [setEntry] at h
      split at h
      · rcases List.mem_cons.1 h with rfl | h
        · exact Or.inr rfl
        · exact Or.inl (List.mem_cons_of_mem _ h)
      · rcases List.mem_cons.1 h with rfl | h
        · exact Or.inl List.mem_cons_self
        · exact (ih h).imp_left (List.mem_cons_of_mem _)

/-- Assigning a member keeps an object well formed. -/
theorem wellFormed_withMember {v x : JsValue} {k : String} (hv : v.WellFormed)
    (hx : x.WellFormed) : (v.withMember k x).WellFormed := by
  cases v with
  | obj members =>
      obtain ⟨hnodup, hmembers⟩ := wellFormed_obj_iff.1 hv
      refine wellFormed_obj_iff.2 ⟨(JsMap.set ⟨members, hnodup⟩ k x).nodup, ?_⟩
      intro m hm
      rcases setEntry_cases hm with hm | rfl
      · exact hmembers m hm
      · exact hx
  | _ => exact ⟨List.nodup_singleton k, hx, trivial⟩

end JsValue

namespace Codec

open JsValue

variable {α : Type}

/-- The codec writes well-formed values. -/
def Plain (c : Codec α) : Prop := ∀ a, (c.encode a).WellFormed

theorem plain_str : str.Plain := fun _ => trivial

theorem plain_num : num.Plain := fun _ => trivial

theorem plain_int : int.Plain := fun _ => trivial

theorem plain_literal {cases : List α} {text : α → String}
    {h : ∀ a, cases.find? (fun b => text b == text a) = some a} :
    (literal cases text h).Plain := fun _ => trivial

variable {c : Codec α} (hc : c.Plain)
include hc

theorem Plain.list : (list c).Plain := by
  intro as
  refine wellFormed_arr.2 ?_
  intro v hv
  obtain ⟨a, -, rfl⟩ := List.mem_map.1 hv
  exact hc a

theorem Plain.record : (record c).Plain := by
  intro m
  refine wellFormed_obj m.keys ?_ m.nodup ?_
  · rw [List.map_map]
    exact List.Sublist.refl _
  · intro e he
    obtain ⟨a, -, rfl⟩ := List.mem_map.1 he
    exact hc a.2

theorem Plain.nullable {h : ∀ a, c.encode a ≠ .null} : (nullable c h).Plain := by
  intro a
  cases a with
  | none => trivial
  | some a => exact hc a

theorem Plain.optMember {k : String} {a : Option α} :
    ∀ m ∈ c.optMember k a, m.2.WellFormed := by
  intro m hm
  cases a with
  | none => cases hm
  | some a =>
      rw [List.mem_singleton.1 hm]
      exact hc a

omit hc

/-- A member that is spread by hand. -/
theorem keys_spread (k : String) (f : α → JsValue) (a : Option α) :
    (((a.map fun x => (k, f x)).toList).map Prod.fst).Sublist [k] := by
  cases a with
  | none => exact List.nil_sublist _
  | some a => exact List.Sublist.refl _

theorem plain_spread {k : String} {f : α → JsValue} {a : Option α}
    (hf : ∀ x, (f x).WellFormed) : ∀ m ∈ (a.map fun x => (k, f x)).toList, m.2.WellFormed := by
  intro m hm
  cases a with
  | none => cases hm
  | some a =>
      rw [List.mem_singleton.1 hm]
      exact hf a

theorem keys_optMember (c : Codec α) (k : String) (a : Option α) :
    ((c.optMember k a).map Prod.fst).Sublist [k] := by
  cases a with
  | none => exact List.nil_sublist _
  | some a => exact List.Sublist.refl _

end Codec

end AgentWorth.Js
