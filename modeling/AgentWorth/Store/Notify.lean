import AgentWorth.Lib.Runs
import AgentWorth.Store.Calls
import AgentWorth.Store.Postgres

/-!
# Change notifications

`src/store/postgresStore.ts` with a notification listener.  A write is enqueued
together with its announcement, and announcements come back to the store that
made them.  A reload reads the row of the entity at one time and updates the
mirror at a later one.
-/

namespace AgentWorth

open AgentWorth.Js AgentWorth.Lib

inductive EntityKind where
  | mandate
  | intent
  | receipt
  | meta'
  deriving DecidableEq, Repr

def EntityKind.text : EntityKind → String
  | .mandate => "mandate"
  | .intent => "intent"
  | .receipt => "receipt"
  | .meta' => "meta"

structure Entity where
  kind : EntityKind
  id : String
  deriving DecidableEq, Repr

/-- An enqueued closure: a write, or `pg_notify`. -/
inductive Job where
  | write (w : Write)
  | notify (payload : String)

/-- A call of `reloadEntity`: its query is on its way, or has read the row. -/
inductive Reload where
  | asked (e : Entity)
  | read (e : Entity) (row : Option JsValue)

def Reload.entity : Reload → Entity
  | .asked e => e
  | .read e _ => e

namespace Postgres

/-! ## Payloads -/

/-- What `notify` publishes. -/
def payload (e : Entity) : String := e.kind.text ++ ":" ++ e.id

/-- The payload before and after its first colon. -/
def splitPayload (payload : String) : Option (String × String) :=
  match payload.toList.span (· != ':') with
  | (_, []) => none
  | (kind, _ :: id) => some (String.ofList kind, String.ofList id)

def kindOf (kind : String) : Option EntityKind :=
  if kind = "mandate" then some .mandate
  else if kind = "intent" then some .intent
  else if kind = "receipt" then some .receipt
  else if kind = "meta" then some .meta'
  else none

/-- The entity that a payload asks to reload. -/
def entityOf (payload : String) : Option Entity :=
  (splitPayload payload).bind fun (kind, id) => (kindOf kind).map fun kind => { kind, id }

/-! ## The queue -/

/-- The entity whose change a write announces; the audit chain is not
published. -/
def announces : Write → Option Entity
  | .meta' k _ => some { kind := .meta', id := k }
  | .mandate id _ => some { kind := .mandate, id }
  | .intent id _ => some { kind := .intent, id }
  | .receipt data => some { kind := .receipt, id := data.id }
  | .audit _ => none

/-- The closures that a write enqueues. -/
def jobs (w : Write) : List Job :=
  .write w :: ((announces w).map fun e => .notify (payload e)).toList

/-! ## Reloading -/

/-- The row of an entity, if there is one. -/
def rowOf (t : Tables) (e : Entity) : Option JsValue :=
  match e.kind with
  | .mandate => t.mandates.get e.id
  | .intent => t.intents.get e.id
  | .receipt => t.receipts.get e.id
  | .meta' => (t.meta'.get e.id).map JsValue.str

/-- A whole record as a patch. -/
def wholeMandate (m : Mandate) : MandatePatch where
  label := some m.label
  scope := some m.scope
  currency := some m.currency
  allowedRails := some m.allowedRails
  perTxCap := some m.perTxCap
  perPeriodCap := some m.perPeriodCap
  period := some m.period
  grantedAt := some m.grantedAt
  expiresAt := some m.expiresAt
  status := some m.status

/-- What `reloadEntity` copies from the row of a known intent. -/
def reloadedIntent (x : StoredIntent) : IntentUpdate where
  status := some x.status
  settledAt := x.settledAt
  receiptId := x.receiptId
  reasons := some x.reasons
  refundedMinor := x.refundedMinor

/-- The second half of `reloadEntity`.  A row that is no record is refused here,
where the source would cast it. -/
def applyRow (b : Books) (e : Entity) (data : JsValue) : Except String Books :=
  match e.kind with
  | .mandate =>
      match mandateCodec.decode data with
      | none => .error "ill-typed row"
      | some m =>
          if (memoryStore.getMandate b e.id).isSome then
            memoryStore.updateMandate b e.id (wholeMandate m)
          else memoryStore.insertMandate b m
  | .intent =>
      match storedIntentCodec.decode data with
      | none => .error "ill-typed row"
      | some x =>
          if (memoryStore.getIntent b e.id).isSome then
            memoryStore.updateIntent b e.id (reloadedIntent x)
          else memoryStore.insertIntent b x
  | .receipt =>
      match receiptCodec.decode data with
      | none => .error "ill-typed row"
      | some r => memoryStore.insertReceipt b r
  | .meta' =>
      match Codec.str.decode data with
      | none => .error "ill-typed row"
      | some v => .ok (memoryStore.setMeta b e.id v)

end Postgres

open Postgres

/-! ## The store and its database -/

structure NotifyingSession where
  tables : Tables
  operatorKey : String
  mirror : Books
  queue : List Job
  /-- published, and not delivered yet -/
  notices : List String := []
  reloads : List Reload := []

/-- A call does what it does without a listener, and announces its writes. -/
def NotifyingSession.call (w : NotifyingSession) (c : StoreCall) :
    Except String Answer × NotifyingSession :=
  let r := postgresStore.call { operatorKey := w.operatorKey, mirror := w.mirror, queue := [] } c
  (r.1, { w with mirror := r.2.mirror, queue := w.queue ++ r.2.queue.flatMap jobs })

/-- Notices and reloads are named by their position. -/
inductive NotifyAction where
  | call (c : StoreCall)
  /-- the database takes the closure at the head of the queue; without its answer
  the closure stays there -/
  | query (answered : Bool)
  /-- a notice reaches the listener, which sends its query -/
  | deliver (i : Nat)
  /-- the database answers the query of a reload -/
  | read (i : Nat)
  /-- the reload resumes and updates the mirror -/
  | update (i : Nat)

/-- The events are what the calls return or throw. -/
def notifying : System NotifyingSession NotifyAction (Except String Answer) where
  step w
    | .call c => some ((w.call c).2, [(w.call c).1])
    | .query answered =>
        match w.queue with
        | [] => none
        | job :: rest =>
            let queue := if answered then rest else w.queue
            match job with
            | .notify payload =>
                some ({ w with queue, notices := w.notices ++ [payload] }, [])
            | .write write =>
                match Postgres.execute w.tables write with
                | .error _ => some (w, [])
                | .ok tables => some ({ w with tables, queue }, [])
    | .deliver i =>
        w.notices[i]?.map fun payload =>
          ({ w with
              notices := w.notices.eraseIdx i
              reloads := w.reloads ++ ((entityOf payload).map Reload.asked).toList }, [])
    | .read i =>
        match w.reloads[i]? with
        | some (.asked e) =>
            some ({ w with reloads := w.reloads.set i (.read e (rowOf w.tables e)) }, [])
        | _ => none
    | .update i =>
        match w.reloads[i]? with
        | some (.read e row) =>
            let w := { w with reloads := w.reloads.eraseIdx i }
            match row.map (applyRow w.mirror e) with
            | some (.ok mirror) => some ({ w with mirror }, [])
            | _ => some (w, [])
        | _ => none

end AgentWorth
