import AgentWorth.Lib.Value

/-!
# Typed views of untyped payloads

A program that stores typed records in an `unknown` payload and reads them back
with a cast relies on the two being inverse.  A codec carries that law with it,
so a record built from codecs needs one proof, at the record.
-/

namespace AgentWorth.Js

/-- A type carried by values that are never `undefined`, with the law that it
reads back. -/
structure Codec (α : Type) where
  encode : α → JsValue
  decode : JsValue → Option α
  decode_encode : ∀ x, decode (encode x) = some x
  encode_ne : ∀ x, encode x ≠ .undefined

namespace Codec

attribute [simp] Codec.decode_encode

variable {α : Type}

def str : Codec String where
  encode := .str
  decode
    | .str s => some s
    | _ => none
  decode_encode _ := rfl
  encode_ne _ := JsValue.noConfusion

def num : Codec JsNumber where
  encode := .num
  decode
    | .num x => some x
    | _ => none
  decode_encode _ := rfl
  encode_ne _ := JsValue.noConfusion

@[simp] theorem decode_str (s : String) : str.decode (.str s) = some s := rfl

@[simp] theorem decode_num (x : JsNumber) : num.decode (.num x) = some x := rfl

/-- Integers within numbers. -/
def int : Codec Int where
  encode n := .num (n : JsNumber)
  decode
    | .num (.fin q) => if q.den = 1 then some q.num else none
    | _ => none
  decode_encode n := by
    show (if ((n : ℚ)).den = 1 then some ((n : ℚ)).num else none) = some n
    simp
  encode_ne _ := JsValue.noConfusion

/-- A union of string literals: the first listed case with the given spelling. -/
def literal (cases : List α) (text : α → String)
    (h : ∀ a, cases.find? (fun b => text b == text a) = some a) : Codec α where
  encode a := .str (text a)
  decode
    | .str s => cases.find? fun b => text b == s
    | _ => none
  decode_encode := h
  encode_ne _ := JsValue.noConfusion

/-- Decode every element or fail. -/
def decodeAll (c : Codec α) : List JsValue → Option (List α)
  | [] => some []
  | v :: vs => (c.decode v).bind fun a => (decodeAll c vs).map fun as => a :: as

theorem decodeAll_map (c : Codec α) (as : List α) :
    c.decodeAll (as.map c.encode) = some as := by
  induction as with
  | nil => rfl
  | cons a as ih => simp [decodeAll, ih]

/-- `T[]`. -/
def list (c : Codec α) : Codec (List α) where
  encode as := .arr (as.map c.encode)
  decode
    | .arr vs => c.decodeAll vs
    | _ => none
  decode_encode := decodeAll_map c
  encode_ne _ := JsValue.noConfusion

/-- Decode every member or fail. -/
def decodeMembers (c : Codec α) : List (String × JsValue) → Option (List (String × α))
  | [] => some []
  | (k, v) :: vs =>
      (c.decode v).bind fun a => (decodeMembers c vs).map fun as => (k, a) :: as

theorem decodeMembers_map (c : Codec α) (es : List (String × α)) :
    c.decodeMembers (es.map fun e => (e.1, c.encode e.2)) = some es := by
  induction es with
  | nil => rfl
  | cons e es ih => simp [decodeMembers, ih]

/-- `Record<string, T>`. -/
def record (c : Codec α) : Codec (JsMap α) where
  encode m := .obj (m.entries.map fun e => (e.1, c.encode e.2))
  decode
    | .obj members => (c.decodeMembers members).map JsMap.ofEntries
    | _ => none
  decode_encode m := by
    simp [decodeMembers_map, JsMap.ofEntries_entries]
  encode_ne _ := JsValue.noConfusion

/-- `T | null`. -/
def nullable (c : Codec α) (h : ∀ a, c.encode a ≠ .null) : Codec (Option α) where
  encode
    | some a => c.encode a
    | none => .null
  decode
    | .null => some none
    | v => (c.decode v).map some
  decode_encode
    | none => rfl
    | some a => by
        cases hv : c.encode a
        case null => exact absurd hv (h a)
        all_goals
          have hd := c.decode_encode a
          rw [hv] at hd
          simp [hv, hd]
  encode_ne
    | some a => c.encode_ne a
    | none => JsValue.noConfusion

/-- A member that may be absent: `some none` when it is. -/
def optional (c : Codec α) : JsValue → Option (Option α)
  | .undefined => some none
  | v => (c.decode v).map some

/-- A present member is never taken for an absent one. -/
@[simp] theorem optional_elim (c : Codec α) (a : Option α) :
    c.optional (a.elim .undefined c.encode) = some a := by
  cases a with
  | none => rfl
  | some a =>
      simp only [Option.elim_some]
      have hd := c.decode_encode a
      cases hv : c.encode a
      case undefined => exact absurd hv (c.encode_ne a)
      all_goals
        rw [hv] at hd
        simp [optional, hd]

/-- The members a spread of `present ? { [k]: v } : {}` adds. -/
def optMember (c : Codec α) (k : String) : Option α → List (String × JsValue)
  | some a => [(k, c.encode a)]
  | none => []

/-- A spread member reads as its value when present, else as what follows. -/
@[simp] theorem get_optMember_append (c : Codec α) (k k' : String) (a : Option α)
    (ms : List (String × JsValue)) :
    (JsValue.obj (c.optMember k' a ++ ms)).get k =
      if k = k' then a.elim ((JsValue.obj ms).get k) c.encode else (JsValue.obj ms).get k := by
  cases a with
  | none => simp [optMember]
  | some a => simp [optMember]

@[simp] theorem get_optMember (c : Codec α) (k k' : String) (a : Option α) :
    (JsValue.obj (c.optMember k' a)).get k =
      if k = k' then a.elim .undefined c.encode else .undefined := by
  have h := get_optMember_append c k k' a []
  simpa using h

end Codec

end AgentWorth.Js
