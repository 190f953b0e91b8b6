import AgentWorth.Executor.System
import AgentWorth.Lib.Json

/-!
# The event ingress

`src/ingress/server.ts`, the `POST /payment-intent` branch of `handleIngress`
with a store, for requests that `authorizeIngress` lets through.  A request has
two awaits: the attestation lookup and `executor.execute`.  Between them, and
while its payment is under way, other requests are handled.
-/

namespace AgentWorth

open AgentWorth.Js AgentWorth.Lib

/-! ## The draft schema -/

/-- `PaymentIntentDraft`. -/
structure PaymentIntentDraft where
  payee : String
  payeeClass : String
  amount : JsNumber
  currency : String
  rail : RailKind
  rationale : String

/-- `z.string().min(1)`. -/
def nonEmptyString (v : JsValue) : Option String := (Codec.str.decode v).filter (· != "")

def maxSafeInteger : JsNumber := .fin 9007199254740991

/-- `z.number().int().positive()`: the schema takes safe integers only. -/
def positiveInteger (v : JsValue) : Option JsNumber :=
  (Codec.num.decode v).filter fun x =>
    x.isInteger && decide (x ≤ maxSafeInteger) && decide (0 < x)

/-- `PaymentIntentDraftSchema.parse`; members it does not name are dropped. -/
def parsePaymentIntentDraft (v : JsValue) : Option PaymentIntentDraft := do
  let payee ← nonEmptyString (v.get "payee")
  let payeeClass ← nonEmptyString (v.get "payeeClass")
  let amount ← positiveInteger (v.get "amount")
  let currency ← nonEmptyString (v.get "currency")
  let rail ← railCodec.decode (v.get "rail")
  let rationale ← nonEmptyString (v.get "rationale")
  return { payee, payeeClass, amount, currency, rail, rationale }

/-- The draft in the body of a request, if the body is valid. -/
def bodyDraft (rawBody : String) : Option PaymentIntentDraft :=
  (Json.parse rawBody).bind parsePaymentIntentDraft

/-- `{ ...draft, id, createdAt }`. -/
def PaymentIntentDraft.intent (draft : PaymentIntentDraft) (id createdAt : String) :
    PaymentIntent where
  id := id
  payee := draft.payee
  payeeClass := draft.payeeClass
  amount := draft.amount
  currency := draft.currency
  rail := draft.rail
  rationale := draft.rationale
  createdAt := createdAt

/-! ## Responses -/

structure IngressResponse where
  status : Nat
  body : JsValue

/-- `httpStatusForIntentStatus`. -/
def httpStatusForIntentStatus : IntentStatus → Nat
  | .settled => 200
  | .pending => 202
  | .failed => 502
  | .blocked => 403

def idempotencyMetaKey (key : String) : String := "idem:" ++ key

variable {σ : Type} (d : ExecutorDeps σ)

/-- The answer rebuilt from the stored intent, if the key was used before. -/
def replayIfSeen (store : σ) (key : String) : Option IngressResponse :=
  match d.store.getMeta store (idempotencyMetaKey key) with
  | none => none
  | some priorId =>
      if priorId = "" then none
      else (d.store.getIntent store priorId).map fun si =>
        { status := httpStatusForIntentStatus si.status
          body := .obj
            [("intentId", .str si.intent.id), ("outcome", .str si.status.text),
              ("reasons", .ofStrings si.reasons), ("receiptId", .orNull si.receiptId),
              ("verified", .null), ("idempotentReplay", .bool true)] }

def rememberKey (store : σ) (key intentId : String) : σ :=
  d.store.setMeta store (idempotencyMetaKey key) intentId

def invalidBody : IngressResponse :=
  { status := 400, body := .obj [("error", .str "invalid payment-intent")] }

/-- The answer to the request that ran the gate. -/
def executeResponse (result : ExecuteResult) : IngressResponse where
  status := httpStatusForIntentStatus result.status
  body := .obj
    [("intentId", .str result.intentId), ("outcome", .str result.status.text),
      ("reasons", .ofStrings result.decision.reasons),
      ("receiptId", .orNull (result.receipt.map Receipt.id)),
      ("verified", (result.verified.map JsValue.bool).getD .null)]

/-! ## Requests under way -/

/-- Where a request stands: at its attestation lookup, in `executor.execute`, or
about to resume from it. -/
inductive Phase where
  | attesting
  | executing
  | executed (outcome : Except String ExecuteResult)

structure Handling where
  idempotencyKey : Option String
  intent : PaymentIntent
  phase : Phase

structure Ingress (σ : Type) where
  executor : State σ
  requests : List Handling := []

/-- Requests are named by their position. -/
inductive IngressAction where
  /-- a request arrives and runs to its first `await`; `newId` and `createdAt`
  are what the injected sources answer -/
  | receive (rawBody : String) (idempotencyKey : Option String) (newId createdAt : String)
  /-- the attestation lookup returns and `executor.execute` is called -/
  | attest (i : Nat) (now : String) (src : Sources)
      (attestation : Except String (Option Attestation))
  /-- `executor.execute` has returned or thrown and the request resumes -/
  | respond (i : Nat)
  /-- any other step of the executor -/
  | run (a : Action)

inductive IngressEvent where
  /-- `executor.execute` is called -/
  | invoked (idempotencyKey : Option String) (intentId : String)
  /-- a request is answered, whose body was valid or not -/
  | answered (idempotencyKey : Option String) (valid : Bool) (response : IngressResponse)
  /-- a request with a valid body throws -/
  | rejected (idempotencyKey : Option String) (error : String)

/-- How an event ends an `execute` call. -/
def Event.outcome : Event → Option (Except String ExecuteResult)
  | .returned result => some (.ok result)
  | .finished _ result => some (.ok result)
  | .threw error => some (.error error)
  | _ => none

def phaseAfter (es : List Event) : Phase :=
  match es.findSome? Event.outcome with
  | some outcome => .executed outcome
  | none => .executing

/-- The position of the call that an executor step resumes. -/
def Action.slot : Action → Option Nat
  | .railReturns k _ _ | .railThrows k _ | .resume k => some k
  | _ => none

/-- The `execute` call that a step of the executor ends, and how. -/
def endedCall (s : State σ) (a : Action) (es : List Event) :
    Option (String × Except String ExecuteResult) :=
  ((a.slot.bind fun k => s.calls[k]?).filter fun call => call.entry == .execute).bind fun call =>
    (es.findSome? Event.outcome).map fun outcome => (call.intent.id, outcome)

/-- The request whose payment has ended knows how. -/
def Handling.told (ended : Option (String × Except String ExecuteResult)) (h : Handling) :
    Handling :=
  match ended, h.phase with
  | some (id, outcome), .executing =>
      if h.intent.id = id then { h with phase := .executed outcome } else h
  | _, _ => h

def ingressStep (t : Ingress σ) : IngressAction → Option (Ingress σ × List IngressEvent)
  | .receive rawBody key newId createdAt =>
      match (key.filter (· != "")).bind (replayIfSeen d t.executor.world.store) with
      | some replay => some (t, [.answered key (bodyDraft rawBody).isSome replay])
      | none =>
          match bodyDraft rawBody with
          | none => some (t, [.answered key false invalidBody])
          | some draft =>
              some ({ t with requests := t.requests ++
                [{ idempotencyKey := key
                   intent := draft.intent newId createdAt
                   phase := .attesting }] }, [])
  | .attest i now src attestation =>
      t.requests[i]?.bind fun h =>
        match h.phase, attestation with
        | .attesting, .error e =>
            some ({ t with requests := t.requests.eraseIdx i }, [.rejected h.idempotencyKey e])
        | .attesting, .ok found =>
            (step d t.executor (.execute now src h.intent (some (found.getD .none)))).map
              fun (s, es) =>
                ({ executor := s, requests := t.requests.set i { h with phase := phaseAfter es } },
                  [.invoked h.idempotencyKey h.intent.id])
        | _, _ => none
  | .respond i =>
      t.requests[i]?.bind fun h =>
        match h.phase with
        | .executed (.ok result) =>
            let store :=
              match h.idempotencyKey.filter (· != "") with
              | some key => rememberKey d t.executor.world.store key result.intentId
              | none => t.executor.world.store
            some ({ executor := { t.executor with world := { t.executor.world with store } }
                    requests := t.requests.eraseIdx i },
              [.answered h.idempotencyKey true (executeResponse result)])
        | .executed (.error e) =>
            some ({ t with requests := t.requests.eraseIdx i }, [.rejected h.idempotencyKey e])
        | _ => none
  | .run a =>
      (step d t.executor a).map fun (s, es) =>
        ({ executor := s
           requests := t.requests.map (Handling.told (endedCall t.executor a es)) }, [])

/-- The ingress over one executor. -/
def ingress : System (Ingress σ) IngressAction IngressEvent := ⟨ingressStep d⟩

end AgentWorth
