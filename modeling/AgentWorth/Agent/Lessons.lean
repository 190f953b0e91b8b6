import AgentWorth.Ingress.Server
import AgentWorth.Lib.Plain
import AgentWorth.Lib.Recency

/-!
# What else the store's meta table holds

The executor keeps its kill switch and its failure count in a key-value table of
the store that others write to as well: `src/agent/lessons.ts`, the advice an
agent leaves to its later runs; `src/finance/profileStore.ts`, what is known of
the operator; the token of `src/ingress/auth.ts` and the keys of
`src/ingress/idempotency.ts`.
-/

namespace AgentWorth

open AgentWorth.Js AgentWorth.Js.Json AgentWorth.Lib

variable {σ : Type}

/-! ## JSON under a key -/

/-- `raw ? JSON.parse(raw) : fallback`. -/
def parseMeta (raw : Option String) (fallback : JsValue) : Except String JsValue :=
  match raw.filter (· ≠ "") with
  | none => .ok fallback
  | some text => (parse text).elim (.error "invalid JSON") .ok

/-- `xs.filter(keep)` then `push(x)`, on what the table holds. -/
def pushKept (keep : JsValue → Bool) (x : JsValue) : JsValue → Except String (List JsValue)
  | .arr items => .ok (items.filter keep ++ [x])
  | _ => .error "filter is not a function"

/-- `store.setMeta(key, JSON.stringify(items))`. -/
def setItems (S : Store σ) (s : σ) (key : String) (items : List JsValue) : σ :=
  (stringify 0 (.arr items)).elim s (S.setMeta s key)

/-! ## `lessons.ts` -/

def lessonsKey : String := "agent.lessons"

def maxLessons : Nat := 20

def getLessons (S : Store σ) (s : σ) : Except String JsValue :=
  parseMeta (S.getMeta s lessonsKey) (.arr [])

def addLesson (S : Store σ) (s : σ) (text : String) : Except String σ :=
  let t := trim text
  if t = "" then .ok s
  else
    (getLessons S s).bind fun lessons =>
      (pushKept (fun l => !l.strictEq (.str t)) (.str t) lessons).map fun items =>
        setItems S s lessonsKey (items.rtake maxLessons)

/-! ## `profileStore.ts` -/

def profileKey : String := "finance.profile"

def goalsKey : String := "finance.goals"

def getProfile (S : Store σ) (s : σ) : Except String JsValue :=
  parseMeta (S.getMeta s profileKey) .undefined

/-- The profile is a record. -/
def setProfile (S : Store σ) (s : σ) (members : List (String × JsValue)) : σ :=
  (stringify 0 (.obj members)).elim s (S.setMeta s profileKey)

def listGoals (S : Store σ) (s : σ) : Except String JsValue :=
  parseMeta (S.getMeta s goalsKey) (.arr [])

def saveGoal (S : Store σ) (s : σ) (goal : List (String × JsValue)) : Except String σ :=
  (listGoals S s).bind fun goals =>
    (pushKept (fun g => !(g.get "id").strictEq ((JsValue.obj goal).get "id")) (.obj goal)
      goals).map fun items => setItems S s goalsKey items

/-! ## `auth.ts` -/

def ingressTokenKey : String := "ingress_token"

def getIngressToken (S : Store σ) (s : σ) : Option String :=
  (S.getMeta s ingressTokenKey).filter (· ≠ "")

def setIngressToken (S : Store σ) (s : σ) (token : String) : σ :=
  S.setMeta s ingressTokenKey token

/-! ## The keys -/

/-- A key that the executor does not use. -/
def NoteKey (k : String) : Prop := k ≠ killKey ∧ k ≠ failKey

instance (k : String) : Decidable (NoteKey k) := inferInstanceAs (Decidable (_ ∧ _))

/-- What the others write. -/
inductive NoteCall where
  | addLesson (text : String)
  | setProfile (members : List (String × JsValue))
  | saveGoal (goal : List (String × JsValue))
  | setIngressToken (token : String)
  | recordIdempotent (key intentId : String)

def NoteCall.write (d : ExecutorDeps σ) (s : σ) : NoteCall → Except String σ
  | .addLesson text => AgentWorth.addLesson d.store s text
  | .setProfile members => .ok (AgentWorth.setProfile d.store s members)
  | .saveGoal goal => AgentWorth.saveGoal d.store s goal
  | .setIngressToken token => .ok (AgentWorth.setIngressToken d.store s token)
  | .recordIdempotent key intentId => .ok (rememberKey d s key intentId)

/-- The key that a call writes under. -/
def NoteCall.key : NoteCall → String
  | .addLesson _ => lessonsKey
  | .setProfile _ => profileKey
  | .saveGoal _ => goalsKey
  | .setIngressToken _ => ingressTokenKey
  | .recordIdempotent key _ => idempotencyMetaKey key

theorem NoteCall.noteKey (call : NoteCall) : NoteKey call.key := by
  cases call with
  | recordIdempotent key intentId =>
      have hne : ∀ k, k ∈ ["kill_switch", "consecutive_failures"] →
          idempotencyMetaKey key ≠ k := by
        intro k hk h
        have hchars := congrArg String.toList h
        simp only [List.mem_cons, List.not_mem_nil, or_false] at hk
        rcases hk with rfl | rfl <;> simp [idempotencyMetaKey] at hchars
      exact ⟨hne _ (by simp [killKey]), hne _ (by simp [failKey])⟩
  | addLesson text => exact (by decide : NoteKey lessonsKey)
  | setProfile members => exact (by decide : NoteKey profileKey)
  | saveGoal goal => exact (by decide : NoteKey goalsKey)
  | setIngressToken token => exact (by decide : NoteKey ingressTokenKey)

/-- A store as it was, or with one more value under the key. -/
inductive NoteWrite (S : Store σ) (key : String) (s : σ) : σ → Prop
  | same : NoteWrite S key s s
  | set (v : String) : NoteWrite S key s (S.setMeta s key v)

theorem setItems_noteWrite (S : Store σ) (s : σ) (key : String) (items : List JsValue) :
    NoteWrite S key s (setItems S s key items) := by
  unfold setItems
  cases stringify 0 (.arr items) with
  | none => exact .same
  | some text => exact .set text

/-- **A call writes under its own key only.** -/
theorem NoteCall.noteWrite {d : ExecutorDeps σ} {s s' : σ} {call : NoteCall}
    (h : call.write d s = .ok s') : NoteWrite d.store call.key s s' := by
  cases call with
  | addLesson text =>
      simp only [NoteCall.write, AgentWorth.addLesson] at h
      split at h
      · cases h
        exact .same
      · obtain ⟨lessons, -, h⟩ := except_bind_eq_ok.1 h
        obtain ⟨items, -, rfl⟩ := except_map_eq_ok.1 h
        exact setItems_noteWrite _ _ _ _
  | setProfile members =>
      cases h
      unfold AgentWorth.setProfile
      cases stringify 0 (.obj members) with
      | none => exact .same
      | some text => exact .set text
  | saveGoal goal =>
      obtain ⟨goals, -, h⟩ := except_bind_eq_ok.1 h
      obtain ⟨items, -, rfl⟩ := except_map_eq_ok.1 h
      exact setItems_noteWrite _ _ _ _
  | setIngressToken token =>
      cases h
      exact .set token
  | recordIdempotent key intentId =>
      cases h
      exact .set intentId

end AgentWorth
