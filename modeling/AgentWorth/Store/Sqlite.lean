import AgentWorth.Store.Contract
import AgentWorth.Lib.Effect

/-!
# The SQLite store

`src/store/sqliteStore.ts`.  Each table holds its rows as the `SELECT` mappers
read them back, so a column the schema does not have is missing from the row.
The constraints that can refuse a statement are those of the schema: primary
keys, the unique `intent_id` of a receipt, and `NOT NULL`, which a bound `NaN`
violates because SQLite stores it as `NULL`.
-/

namespace AgentWorth

open AgentWorth.Js AgentWorth.Js.Json AgentWorth.Lib

namespace Sqlite

def notNull (column : String) : String := "NOT NULL constraint failed: " ++ column

def unique (column : String) : String := "UNIQUE constraint failed: " ++ column

/-- What binding `undefined` throws. -/
def unboundParameter : String := "Provided value cannot be bound to SQLite parameter 4."

/-- Binding a number to a `NOT NULL` column. -/
def bindNumber (column : String) (x : JsNumber) : Except String Unit :=
  if x = .nan then .error (notNull column) else .ok ()

def bindMandate (m : Mandate) : Except String Unit :=
  (bindNumber "mandates.per_tx_cap" m.perTxCap).bind fun _ =>
    bindNumber "mandates.per_period_cap" m.perPeriodCap

def insertMandate (b : Books) (m : Mandate) : Except String Books :=
  (bindMandate m).bind fun _ =>
    if (b.mandates.get m.id).isSome then .error (unique "mandates.id")
    else .ok { b with mandates := b.mandates.put m }

def updateMandate (b : Books) (id : String) (patch : MandatePatch) : Except String Books :=
  match b.mandates.get id with
  | none => .ok b
  | some current => (bindMandate (patch.apply current)).map fun _ => b.updateMandate id patch

/-- The row of an intent: `refunded_minor` is never null. -/
def intentRow (s : StoredIntent) : StoredIntent :=
  { s with refundedMinor := some (s.refundedMinor.getD 0) }

def insertIntent (b : Books) (s : StoredIntent) : Except String Books :=
  (bindNumber "intents.amount" s.intent.amount).bind fun _ =>
    (bindNumber "intents.refunded_minor" (s.refundedMinor.getD 0)).bind fun _ =>
      if (b.intents.get s.id).isSome then .error (unique "intents.id")
      else .ok { b with intents := b.intents.put (intentRow s) }

def updateIntent (b : Books) (id : String) (update : IntentUpdate) : Except String Books :=
  match b.intents.get id with
  | none => .error ("intent " ++ id ++ " not found")
  | some current =>
      (bindNumber "intents.refunded_minor" (update.refundedMinor.getD 0)).map fun _ =>
        { b with intents := b.intents.put (update.apply current) }

/-- The row of a receipt: the table has no column for the issuer. -/
def receiptRow (r : Receipt) : Receipt := { r with providerId := none }

def insertReceipt (b : Books) (r : Receipt) : Except String Books :=
  (bindNumber "receipts.amount" r.amount).bind fun _ =>
    if (b.receipts.get r.id).isSome then .error (unique "receipts.id")
    else if b.receipts.values.any (fun r' => r'.intentId == r.intentId) then
      .error (unique "receipts.intent_id")
    else .ok (b.insertReceipt (receiptRow r))

/-- The row of an audit entry: the payload is JSON text, and the table has no
column for the key version. -/
def auditRow (e : AuditEntry) : AuditEntry :=
  { e with payload := e.payload.persisted, keyVersion := none }

/-- Rows are read `ORDER BY seq ASC`. -/
def insertRow (e : AuditEntry) : List AuditEntry → List AuditEntry
  | [] => [e]
  | r :: rows => if e.seq < r.seq then e :: r :: rows else r :: insertRow e rows

/-- A payload without a JSON text cannot be bound. -/
def appendAudit (b : Books) (e : AuditEntry) : Except String Books :=
  if isDropped e.payload then .error unboundParameter
  else if b.audit.any (fun r => r.seq == e.seq) then .error (unique "audit.seq")
  else .ok { b with audit := insertRow (auditRow e) b.audit }

theorem insertRow_perm (e : AuditEntry) (rows : List AuditEntry) :
    (insertRow e rows).Perm (e :: rows) := by
  induction rows with
  | nil => exact List.Perm.refl _
  | cons r rows ih =>
      unfold insertRow
      split
      · exact List.Perm.refl _
      · exact (ih.cons r).trans (List.Perm.swap e r rows)

theorem bindNumber_of_ne {column : String} {x : JsNumber} (hx : x ≠ .nan) :
    bindNumber column x = .ok () := if_neg hx

end Sqlite

open Sqlite in
/-- `createSqliteStore`. -/
def sqliteStore : Store Books where
  getMeta b k := b.meta'.get k
  setMeta := Books.setMeta
  insertMandate := Sqlite.insertMandate
  getMandate b id := b.mandates.get id
  listMandates b := b.mandates.values
  listActiveMandates := Books.listActiveMandates
  revokeMandate := Books.revokeMandate
  updateMandate := Sqlite.updateMandate
  insertIntent := Sqlite.insertIntent
  getIntent b id := b.intents.get id
  listPendingIntents := Books.listPendingIntents
  updateIntent := Sqlite.updateIntent
  insertReceipt := Sqlite.insertReceipt
  getReceipt b id := b.receipts.get id
  periodSpend := Books.periodSpend
  knownPayees b := b.settledPayees.dedup
  payeeSettledCount := Books.payeeSettledCount
  appendAudit := Sqlite.appendAudit
  loadAudit b := b.audit

open Sqlite in
/-- The SQLite store keeps the contract; receipts lose their issuer and audit
entries their key version. -/
def sqliteContract : Contract sqliteStore where
  books := id
  saved := intentRow
  savedReceipt := receiptRow
  savedEntry := auditRow
  saved_eq _ := rfl
  saved_refunded _ := rfl
  savedReceipt_eq _ := rfl
  savedReceipt_issuer _ := Or.inr rfl
  savedEntry_eq _ := rfl
  savedEntry_payload e := canonicalize_persisted e.payload
  getMeta _ _ := rfl
  getMandate _ _ := rfl
  listMandates _ := rfl
  listActiveMandates _ _ := rfl
  getIntent _ _ := rfl
  listPendingIntents _ := rfl
  getReceipt _ _ := rfl
  periodSpend _ _ _ := rfl
  knownPayees b p := by simp [sqliteStore]
  payeeSettledCount _ _ := rfl
  loadAudit _ := rfl
  setMeta _ _ _ := rfl
  revokeMandate _ _ := rfl
  insertMandate {b m b'} h := by
    obtain ⟨_, -, h⟩ := except_bind_eq_ok.1 h
    simp only [id, Books.insertMandate]
    split at h
    · cases h
    · next hfresh => rw [if_neg hfresh, h]
  updateMandate {b id p b'} h := by
    simp only [sqliteStore, Sqlite.updateMandate] at h
    split at h
    · next hnone =>
        cases h
        simp [Books.updateMandate, Table.modify, hnone]
    · obtain ⟨_, -, h⟩ := except_map_eq_ok.1 h
      exact h.symm
  insertIntent {b x b'} h := by
    obtain ⟨_, -, h⟩ := except_bind_eq_ok.1 h
    obtain ⟨_, -, h⟩ := except_bind_eq_ok.1 h
    simp only [id, Books.insertIntent]
    split at h
    · cases h
    · next hfresh =>
        rw [if_neg (show ¬ (b.intents.get (intentRow x).id).isSome = true from hfresh), h]
  updateIntent {b id u b'} h := by
    simp only [sqliteStore, Sqlite.updateIntent] at h
    show b.updateIntent id u = .ok b'
    cases hcur : b.intents.get id with
    | none =>
        rw [hcur] at h
        cases h
    | some current =>
        rw [hcur] at h
        obtain ⟨_, -, h⟩ := except_map_eq_ok.1 h
        simp only [Books.updateIntent, hcur]
        exact congrArg Except.ok h
  insertReceipt {b r b'} h := by
    obtain ⟨_, -, h⟩ := except_bind_eq_ok.1 h
    split at h
    · cases h
    · split at h
      · cases h
      · exact (Except.ok.inj h).symm
  appendAudit {b e b'} h := by
    simp only [sqliteStore, Sqlite.appendAudit] at h
    split at h
    · cases h
    · split at h
      · cases h
      · cases h
        exact ⟨insertRow (auditRow e) b.audit, insertRow_perm _ _, rfl⟩
  insertIntent_fresh b x hfresh hamount hrefunded := by
    refine ⟨{ b with intents := b.intents.put (intentRow x) }, ?_⟩
    have hget : ¬ (b.intents.get x.id).isSome = true := by
      rw [show b.intents.get x.id = none from hfresh]
      simp
    simp only [sqliteStore, Sqlite.insertIntent, bindNumber_of_ne hamount,
      bindNumber_of_ne hrefunded, Except.bind, if_neg hget]
  updateIntent_found b id u x hx hu := by
    refine ⟨{ b with intents := b.intents.put (u.apply x) }, ?_⟩
    have hget : b.intents.get id = some x := hx
    have hrefunded : u.refundedMinor.getD 0 ≠ .nan := by
      cases hr : u.refundedMinor with
      | none => simp
      | some r =>
          rw [hr] at hu
          simpa using hu
    simp only [sqliteStore, Sqlite.updateIntent, hget, bindNumber_of_ne hrefunded,
      Except.map]
  appendAudit_fresh b e hkept hfresh := by
    refine ⟨{ b with audit := insertRow (auditRow e) b.audit }, ?_⟩
    have hany : b.audit.any (fun r => r.seq == e.seq) = false := by
      simpa using hfresh
    simp [sqliteStore, Sqlite.appendAudit, hkept, hany]

end AgentWorth
