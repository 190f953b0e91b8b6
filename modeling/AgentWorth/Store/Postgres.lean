import AgentWorth.Core.Records
import AgentWorth.Store.Contract

/-!
# The Postgres store

`src/store/postgresStore.ts` without notifications: an in-memory mirror that
answers every read, and a queue of writes that a flush executes in order.  The
database executes the given statements: primary keys, `NOT NULL`, and what
`ON CONFLICT` asks for; a `SELECT` without an order returns its rows in any.
-/

namespace AgentWorth

open AgentWorth.Js AgentWorth.Js.Json AgentWorth.Lib

/-! ## The database -/

/-- The five tables.  A `JSONB` column holds a parsed value; the audit rows are
in the order of their primary key. -/
structure Tables where
  meta' : JsMap String
  mandates : JsMap JsValue
  intents : JsMap JsValue
  receipts : JsMap JsValue
  audit : List (JsNumber × JsValue)

def Tables.empty : Tables where
  meta' := .empty
  mandates := .empty
  intents := .empty
  receipts := .empty
  audit := []

/-- An enqueued closure, with the record it captured. -/
inductive Write where
  | meta' (k v : String)
  | mandate (id : String) (data : Option Mandate)
  | intent (id : String) (data : Option StoredIntent)
  | receipt (data : Receipt)
  | audit (e : AuditEntry)

namespace Postgres

/-- Binding `JSON.stringify(data)` to a `JSONB NOT NULL` column. -/
def jsonb (data : Option JsValue) : Except String JsValue :=
  match data.bind (stringify 0) with
  | none => .error "null value in column \"data\" violates not-null constraint"
  | some text =>
      match parse text with
      | none => .error "invalid input syntax for type json"
      | some v => .ok v

/-- `upsert`. -/
def upsert (rows : JsMap JsValue) (id : String) (data : Option JsValue) :
    Except String (JsMap JsValue) :=
  (jsonb data).map fun v => rows.set id v

/-- Rows by ascending `seq`. -/
def insertBySeq (row : JsNumber × JsValue) : List (JsNumber × JsValue) → List (JsNumber × JsValue)
  | [] => [row]
  | r :: rows => if row.1 < r.1 then row :: r :: rows else r :: insertBySeq row rows

/-- Binding a number to an `INTEGER` column. -/
def bindInteger (x : JsNumber) : Except String Unit :=
  if x.isInteger = false then .error "invalid input syntax for type integer"
  else if x < (-2147483648 : Int) ∨ ((2147483647 : Int) : JsNumber) < x then
    .error "value out of range for type integer"
  else .ok ()

/-- `appendAuditRow`: a second entry under a number must be the first one
again. -/
def appendAuditRow (rows : List (JsNumber × JsValue)) (e : AuditEntry) :
    Except String (List (JsNumber × JsValue)) :=
  (jsonb (some (entryCodec.encode e))).bind fun data =>
    (bindInteger e.seq).bind fun _ =>
      match rows.lookup e.seq with
      | none => .ok (insertBySeq (e.seq, data) rows)
      | some durable =>
          if canonicalize durable = canonicalize data then .ok rows
          else .error ("audit fork at seq " ++ toString e.seq ++
            ": durable entry differs from the local chain")

/-- One statement. -/
def execute (t : Tables) : Write → Except String Tables
  | .meta' k v => .ok { t with meta' := t.meta'.set k v }
  | .mandate id data =>
      (upsert t.mandates id (data.map mandateCodec.encode)).map fun rows =>
        { t with mandates := rows }
  | .intent id data =>
      (upsert t.intents id (data.map storedIntentCodec.encode)).map fun rows =>
        { t with intents := rows }
  | .receipt data =>
      (upsert t.receipts data.id (some (receiptCodec.encode data))).map fun rows =>
        { t with receipts := rows }
  | .audit e => (appendAuditRow t.audit e).map fun rows => { t with audit := rows }

/-- A flush that is not interrupted: every write in turn. -/
def drain (t : Tables) : List Write → Except String Tables
  | [] => .ok t
  | w :: ws => (execute t w).bind fun t => drain t ws

end Postgres

/-! ## The store -/

/-- A ready store. -/
structure PostgresStore where
  operatorKey : String
  mirror : Books
  queue : List Write

namespace Postgres

def enqueue (s : PostgresStore) (mirror : Books) (w : Write) : PostgresStore :=
  { s with mirror := mirror, queue := s.queue ++ [w] }

/-- What is persisted is read back from the mirror. -/
def persistMandate (s : PostgresStore) (mirror : Books) (id : String) : PostgresStore :=
  enqueue s mirror (.mandate id (mirror.mandates.get id))

def persistIntent (s : PostgresStore) (mirror : Books) (id : String) : PostgresStore :=
  enqueue s mirror (.intent id (mirror.intents.get id))

end Postgres

open Postgres in
/-- The `store` of `createPostgresStore`, once ready. -/
def postgresStore : Store PostgresStore where
  getMeta s := memoryStore.getMeta s.mirror
  setMeta s k v := enqueue s (memoryStore.setMeta s.mirror k v) (.meta' k v)
  insertMandate s m :=
    (memoryStore.insertMandate s.mirror m).map fun mirror => persistMandate s mirror m.id
  getMandate s := memoryStore.getMandate s.mirror
  listMandates s := memoryStore.listMandates s.mirror
  listActiveMandates s := memoryStore.listActiveMandates s.mirror
  revokeMandate s id := persistMandate s (memoryStore.revokeMandate s.mirror id) id
  updateMandate s id patch :=
    (memoryStore.updateMandate s.mirror id patch).map fun mirror => persistMandate s mirror id
  insertIntent s x :=
    (memoryStore.insertIntent s.mirror x).map fun mirror => persistIntent s mirror x.intent.id
  getIntent s := memoryStore.getIntent s.mirror
  listPendingIntents s := memoryStore.listPendingIntents s.mirror
  updateIntent s id update :=
    (memoryStore.updateIntent s.mirror id update).map fun mirror => persistIntent s mirror id
  insertReceipt s r :=
    (memoryStore.insertReceipt s.mirror r).map fun mirror => enqueue s mirror (.receipt r)
  getReceipt s := memoryStore.getReceipt s.mirror
  periodSpend s := memoryStore.periodSpend s.mirror
  knownPayees s := memoryStore.knownPayees s.mirror
  payeeSettledCount s := memoryStore.payeeSettledCount s.mirror
  appendAudit s e :=
    (memoryStore.appendAudit s.mirror e).map fun mirror => enqueue s mirror (.audit e)
  loadAudit s := memoryStore.loadAudit s.mirror

/-! ## Initialisation -/

/-- What the `SELECT`s of `init` return. -/
structure Rows where
  meta' : List (String × String)
  mandates : List JsValue
  intents : List JsValue
  receipts : List JsValue
  audit : List JsValue

/-- Only the audit rows are asked for in an order. -/
structure Rows.Answers (rows : Rows) (t : Tables) : Prop where
  meta' : rows.meta'.Perm t.meta'.entries
  mandates : rows.mandates.Perm t.mandates.values
  intents : rows.intents.Perm t.intents.values
  receipts : rows.receipts.Perm t.receipts.values
  audit : rows.audit = t.audit.map Prod.snd

namespace Postgres

def operatorKeyRow : String := "operator_key"

/-- The operator key, generated and inserted when there is none. -/
def loadKey (fresh : String) (t : Tables) : Except String (String × Tables) :=
  match t.meta'.get operatorKeyRow with
  | none => .ok (fresh, { t with meta' := t.meta'.set operatorKeyRow fresh })
  | some key =>
      if key = "" then .error "duplicate key value violates unique constraint \"os_meta_pkey\""
      else .ok (key, t)

/-- Write rows into the mirror one by one.  A row that is no record is refused
here, where the source would cast it. -/
def insertRows {α : Type} (c : Codec α) (insert : Books → α → Except String Books) :
    List JsValue → Books → Except String Books
  | [], b => .ok b
  | data :: rows, b =>
      match c.decode data with
      | none => .error "ill-typed row"
      | some x => (insert b x).bind (insertRows c insert rows)

def insertMeta (rows : List (String × String)) (b : Books) : Books :=
  rows.foldl (fun b row => if row.1 = operatorKeyRow then b else b.setMeta row.1 row.2) b

/-- The mirror that the rows hydrate. -/
def hydrate (rows : Rows) : Except String Books :=
  (insertRows mandateCodec memoryStore.insertMandate rows.mandates
      (insertMeta rows.meta' Books.empty)).bind fun b =>
    (insertRows storedIntentCodec memoryStore.insertIntent rows.intents b).bind fun b =>
      (insertRows receiptCodec memoryStore.insertReceipt rows.receipts b).bind fun b =>
        insertRows entryCodec memoryStore.appendAudit rows.audit b

/-- The store `init` makes ready, from what the database answers. -/
def init (key : String) (rows : Rows) : Except String PostgresStore :=
  (hydrate rows).map fun mirror => { operatorKey := key, mirror := mirror, queue := [] }

end Postgres

end AgentWorth
