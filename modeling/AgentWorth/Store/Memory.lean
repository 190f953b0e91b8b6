import AgentWorth.Core.Gate
import AgentWorth.Core.Store
import AgentWorth.Lib.Table

/-!
# The in-memory store

`src/store/memoryStore.ts`, the reference implementation of the persistence
contract.  Its state is the five collections the closures share; mandates,
intents and receipts are maps written under the row's own id.
-/

namespace AgentWorth

open AgentWorth.Js

/-- The key of a stored intent. -/
def StoredIntent.id (s : StoredIntent) : String := s.intent.id

/-- What a store holds. -/
structure Books where
  mandates : Table Mandate.id
  intents : Table StoredIntent.id
  receipts : Table Receipt.id
  meta' : JsMap String
  audit : List AuditEntry

/-- The row an update leaves: a present member replaces the stored one. -/
def IntentUpdate.apply (update : IntentUpdate) (s : StoredIntent) : StoredIntent where
  intent := s.intent
  status := update.status.getD s.status
  mandateId := s.mandateId
  settledAt := update.settledAt.or s.settledAt
  receiptId := update.receiptId.or s.receiptId
  reasons := update.reasons.getD s.reasons
  refundedMinor := update.refundedMinor.or s.refundedMinor

/-- The filter of `periodSpend`: settled under the mandate, since `start`. -/
def countsFor (mandateId start : String) (s : StoredIntent) : Bool :=
  s.status == .settled && s.mandateId == some mandateId &&
    match s.settledAt with
    | some settledAt => !strLt settledAt start
    | none => false

/-- The spend a settled intent stands for, net of refunds. -/
def priorSpend (s : StoredIntent) : PriorSpend where
  amount := s.intent.amount - s.refundedMinor.getD 0
  at' := s.settledAt.getD ""

namespace Books

def empty : Books where
  mandates := .empty
  intents := .empty
  receipts := .empty
  meta' := .empty
  audit := []

def setMeta (b : Books) (k v : String) : Books :=
  { b with meta' := b.meta'.set k v }

def insertMandate (b : Books) (m : Mandate) : Except String Books :=
  if (b.mandates.get m.id).isSome then .error ("mandate " ++ m.id ++ " already exists")
  else .ok { b with mandates := b.mandates.put m }

def listActiveMandates (b : Books) (now : String) : List Mandate :=
  b.mandates.values.filter fun m => isLiveMandate m now

def revokeMandate (b : Books) (id : String) : Books :=
  { b with mandates := b.mandates.modify id fun m => { m with status := .revoked } }

def updateMandate (b : Books) (id : String) (patch : MandatePatch) : Books :=
  { b with mandates := b.mandates.modify id patch.apply }

def insertIntent (b : Books) (s : StoredIntent) : Except String Books :=
  if (b.intents.get s.id).isSome then .error ("intent " ++ s.id ++ " already exists")
  else .ok { b with intents := b.intents.put s }

def listPendingIntents (b : Books) : List StoredIntent :=
  b.intents.values.filter fun s => s.status == .pending

def updateIntent (b : Books) (id : String) (update : IntentUpdate) : Except String Books :=
  match b.intents.get id with
  | none => .error ("intent " ++ id ++ " not found")
  | some s => .ok { b with intents := b.intents.put (update.apply s) }

def insertReceipt (b : Books) (r : Receipt) : Books :=
  { b with receipts := b.receipts.put r }

/-- The settled intents that count against a mandate since `start`. -/
def spendRows (b : Books) (mandateId start : String) : List StoredIntent :=
  b.intents.values.filter (countsFor mandateId start)

def periodSpend (b : Books) (mandateId now : String) : Except String (List PriorSpend) :=
  match b.mandates.get mandateId with
  | none => .ok []
  | some m =>
      (periodStart now m.period).map fun start => (b.spendRows mandateId start).map priorSpend

def settledPayees (b : Books) : List String :=
  (b.intents.values.filter fun s => s.status == .settled).map fun s => s.intent.payee

def payeeSettledCount (b : Books) (payee : String) : Nat :=
  (b.intents.values.filter fun s => s.status == .settled && s.intent.payee == payee).length

def appendAudit (b : Books) (e : AuditEntry) : Books :=
  { b with audit := b.audit ++ [e] }

end Books

/-- `createMemoryStore`. -/
def memoryStore : Store Books where
  getMeta b k := b.meta'.get k
  setMeta := Books.setMeta
  insertMandate := Books.insertMandate
  getMandate b id := b.mandates.get id
  listMandates b := b.mandates.values
  listActiveMandates := Books.listActiveMandates
  revokeMandate := Books.revokeMandate
  updateMandate b id patch := .ok (b.updateMandate id patch)
  insertIntent := Books.insertIntent
  getIntent b id := b.intents.get id
  listPendingIntents := Books.listPendingIntents
  updateIntent := Books.updateIntent
  insertReceipt b r := .ok (b.insertReceipt r)
  getReceipt b id := b.receipts.get id
  periodSpend := Books.periodSpend
  -- insertion into a `Set` keeps the first occurrence of each payee
  knownPayees b := b.settledPayees.reverse.dedup.reverse
  payeeSettledCount := Books.payeeSettledCount
  appendAudit b e := .ok (b.appendAudit e)
  loadAudit b := b.audit

/-! ## Rows under updates -/

@[simp] theorem IntentUpdate.apply_intent (u : IntentUpdate) (s : StoredIntent) :
    (u.apply s).intent = s.intent := rfl

@[simp] theorem IntentUpdate.apply_id (u : IntentUpdate) (s : StoredIntent) :
    (u.apply s).id = s.id := rfl

@[simp] theorem IntentUpdate.apply_mandateId (u : IntentUpdate) (s : StoredIntent) :
    (u.apply s).mandateId = s.mandateId := rfl

@[simp] theorem MandatePatch.apply_id (patch : MandatePatch) (m : Mandate) :
    (patch.apply m).id = m.id := rfl

theorem countsFor_iff {mandateId start : String} {s : StoredIntent} :
    countsFor mandateId start s = true ↔
      s.status = .settled ∧ s.mandateId = some mandateId ∧
        ∃ settledAt, s.settledAt = some settledAt ∧ strLt settledAt start = false := by
  unfold countsFor
  cases s.settledAt <;> simp [and_assoc]

theorem Books.mem_spendRows {b : Books} {mandateId start : String} {s : StoredIntent} :
    s ∈ b.spendRows mandateId start ↔
      b.intents.get s.id = some s ∧ countsFor mandateId start s = true := by
  rw [Books.spendRows, List.mem_filter, Table.mem_values_iff]

end AgentWorth
