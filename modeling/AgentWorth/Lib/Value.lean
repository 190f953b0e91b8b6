import AgentWorth.Lib.Map
import AgentWorth.Lib.Number

/-!
# ECMAScript values

The values an `unknown` payload can hold: JSON data, and the `undefined`,
function and symbol members that serialisers drop.  Object members keep their
creation order; reading an absent member gives `undefined`.
-/

namespace AgentWorth.Js

inductive JsValue where
  | undefined
  | null
  | bool (b : Bool)
  | num (x : JsNumber)
  | str (s : String)
  | function
  | symbol
  | arr (items : List JsValue)
  | obj (members : List (String × JsValue))
  deriving Repr, Inhabited

namespace JsValue

/-- `v[k]`, with `undefined` for anything that has no such member. -/
def get (v : JsValue) (k : String) : JsValue :=
  match v with
  | .obj members => (members.lookup k).getD .undefined
  | _ => .undefined

/-- `{ ...v, [k]: x }`. -/
def withMember (v : JsValue) (k : String) (x : JsValue) : JsValue :=
  match v with
  | .obj members => .obj (setEntry k x members)
  | _ => .obj [(k, x)]

/-- The coercion a condition applies. -/
def truthy : JsValue → Bool
  | .undefined | .null => false
  | .bool b => b
  | .num x => x != .nan && x != 0
  | .str s => s != ""
  | _ => true

/-- `typeof v === "object" && v`. -/
def isObject : JsValue → Bool
  | .arr _ | .obj _ => true
  | _ => false

/-- `v === w`.  Two object values read from different places are different
objects. -/
def strictEq : JsValue → JsValue → Bool
  | .undefined, .undefined | .null, .null => true
  | .bool a, .bool b => a == b
  | .num a, .num b => a.strictEq b
  | .str a, .str b => a == b
  | _, _ => false

/-- The values two places can hold the same one of: everything but objects. -/
def isScalar : JsValue → Bool
  | .undefined | .null | .bool _ | .num _ | .str _ => true
  | _ => false

/-- Whether a `Set` or `Map` takes two values for one key. -/
def sameKey : JsValue → JsValue → Bool
  | .num .nan, .num .nan => true
  | v, w => v.strictEq w

/-- The number of elements of `new Set(vs)`. -/
def distinctCount (vs : List JsValue) : Nat :=
  (vs.foldl (fun seen v =>
    if seen.any (fun w => w.strictEq v) then seen else v :: seen) []).length

/-- `v` as an operand of numeric `+`; only numbers have a value. -/
def toNumber : JsValue → JsNumber
  | .num x => x
  | _ => .nan

/-- `${v}` for the primitive values a message interpolates. -/
def toText : JsValue → String
  | .str s => s
  | .num x => x.toString
  | .bool true => "true"
  | .bool false => "false"
  | .null => "null"
  | .undefined => "undefined"
  | _ => "[object Object]"

def ofStrings (ss : List String) : JsValue := .arr (ss.map .str)

/-- `string | null`. -/
def orNull : Option String → JsValue
  | some s => .str s
  | none => .null

/-- An optional member: `undefined` when absent. -/
def orUndefined : Option JsValue → JsValue
  | some v => v
  | none => .undefined

@[simp] theorem get_obj_nil (k : String) : (JsValue.obj []).get k = .undefined := rfl

@[simp] theorem get_obj_cons (k k' : String) (v : JsValue) (ms : List (String × JsValue)) :
    (JsValue.obj ((k', v) :: ms)).get k = if k = k' then v else (JsValue.obj ms).get k := by
  by_cases h : k = k'
  · simp [get, h]
  · have hb : (k == k') = false := by simpa using h
    simp [get, List.lookup_cons, h, hb]

@[simp] theorem get_withMember (ms : List (String × JsValue)) (k k' : String) (x : JsValue) :
    ((JsValue.obj ms).withMember k x).get k' =
      if k' = k then x else (JsValue.obj ms).get k' := by
  simp only [withMember, get, JsMap.lookup_setEntry]
  split <;> rfl

@[simp] theorem isObject_withMember (v : JsValue) (k : String) (x : JsValue) :
    (v.withMember k x).isObject = true := by
  cases v <;> rfl

@[simp] theorem strictEq_str (v : JsValue) (s : String) :
    v.strictEq (.str s) = true ↔ v = .str s := by
  cases v <;> simp [strictEq]

theorem sameKey_iff {v w : JsValue} : v.sameKey w = true ↔ v = w ∧ v.isScalar = true := by
  cases v with
  | num x =>
      cases w with
      | num y => cases x <;> cases y <;> simp [sameKey, strictEq, isScalar, JsNumber.strictEq]
      | _ => simp [sameKey, strictEq]
  | _ => cases w <;> simp [sameKey, strictEq, isScalar]

end JsValue

end AgentWorth.Js
