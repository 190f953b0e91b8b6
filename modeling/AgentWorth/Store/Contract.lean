import AgentWorth.Store.Memory
import Mathlib.Data.List.Dedup

/-!
# The persistence contract

What the executor may rely on in a store: through a view of its state as
`Books`, every read answers as the in-memory store would, and every write that
succeeds leaves the books the in-memory write leaves.  A store is free to keep
less of a record than it was given, as long as the fields named here survive,
and to refuse a write; the contract says which writes may not be refused.
-/

namespace AgentWorth

open AgentWorth.Js AgentWorth.Js.Json

structure Contract {σ : Type} (S : Store σ) where
  /-- the store's state, seen as books -/
  books : σ → Books
  /-- what a written intent, receipt or audit entry reads back as -/
  saved : StoredIntent → StoredIntent
  savedReceipt : Receipt → Receipt
  savedEntry : AuditEntry → AuditEntry
  saved_eq : ∀ x, { saved x with refundedMinor := x.refundedMinor } = x
  saved_refunded : ∀ x, (saved x).refundedMinor.getD 0 = x.refundedMinor.getD 0
  savedReceipt_eq : ∀ r, { savedReceipt r with providerId := r.providerId } = r
  savedReceipt_issuer : ∀ r, (savedReceipt r).providerId = r.providerId ∨
    (savedReceipt r).providerId = none
  savedEntry_eq : ∀ e, { savedEntry e with
    payload := e.payload, keyVersion := e.keyVersion } = e
  savedEntry_payload : ∀ e, canonicalize (savedEntry e).payload = canonicalize e.payload
  /- reads -/
  getMeta : ∀ s k, S.getMeta s k = (books s).meta'.get k
  getMandate : ∀ s id, S.getMandate s id = (books s).mandates.get id
  listMandates : ∀ s, S.listMandates s = (books s).mandates.values
  listActiveMandates : ∀ s now, S.listActiveMandates s now = (books s).listActiveMandates now
  getIntent : ∀ s id, S.getIntent s id = (books s).intents.get id
  listPendingIntents : ∀ s, S.listPendingIntents s = (books s).listPendingIntents
  getReceipt : ∀ s id, S.getReceipt s id = (books s).receipts.get id
  periodSpend : ∀ s id now, S.periodSpend s id now = (books s).periodSpend id now
  knownPayees : ∀ s p, p ∈ S.knownPayees s ↔ p ∈ (books s).settledPayees
  payeeSettledCount : ∀ s p, S.payeeSettledCount s p = (books s).payeeSettledCount p
  loadAudit : ∀ s, S.loadAudit s = (books s).audit
  /- writes -/
  setMeta : ∀ s k v, books (S.setMeta s k v) = (books s).setMeta k v
  revokeMandate : ∀ s id, books (S.revokeMandate s id) = (books s).revokeMandate id
  insertMandate : ∀ {s m s'}, S.insertMandate s m = .ok s' →
    (books s).insertMandate m = .ok (books s')
  updateMandate : ∀ {s id p s'}, S.updateMandate s id p = .ok s' →
    books s' = (books s).updateMandate id p
  insertIntent : ∀ {s x s'}, S.insertIntent s x = .ok s' →
    (books s).insertIntent (saved x) = .ok (books s')
  updateIntent : ∀ {s id u s'}, S.updateIntent s id u = .ok s' →
    (books s).updateIntent id u = .ok (books s')
  insertReceipt : ∀ {s r s'}, S.insertReceipt s r = .ok s' →
    books s' = (books s).insertReceipt (savedReceipt r)
  appendAudit : ∀ {s e s'}, S.appendAudit s e = .ok s' →
    ∃ rows, rows.Perm (savedEntry e :: (books s).audit) ∧
      books s' = { books s with audit := rows }
  /- writes that may not be refused -/
  insertIntent_fresh : ∀ s x, (books s).intents.get x.id = none →
    x.intent.amount ≠ .nan → x.refundedMinor.getD 0 ≠ .nan →
    ∃ s', S.insertIntent s x = .ok s'
  updateIntent_found : ∀ s id u x, (books s).intents.get id = some x →
    u.refundedMinor ≠ some .nan → ∃ s', S.updateIntent s id u = .ok s'
  appendAudit_fresh : ∀ s e, isDropped e.payload = false →
    (∀ r ∈ (books s).audit, r.seq ≠ e.seq) →
    ∃ s', S.appendAudit s e = .ok s'

namespace Contract

variable {σ : Type} {S : Store σ} (C : Contract S)

@[simp] theorem saved_intent (x : StoredIntent) : (C.saved x).intent = x.intent := by
  have h := congrArg StoredIntent.intent (C.saved_eq x)
  exact h

@[simp] theorem saved_id (x : StoredIntent) : (C.saved x).id = x.id := by
  simp [StoredIntent.id]

@[simp] theorem saved_status (x : StoredIntent) : (C.saved x).status = x.status := by
  have h := congrArg StoredIntent.status (C.saved_eq x)
  exact h

@[simp] theorem saved_mandateId (x : StoredIntent) : (C.saved x).mandateId = x.mandateId := by
  have h := congrArg StoredIntent.mandateId (C.saved_eq x)
  exact h

@[simp] theorem saved_settledAt (x : StoredIntent) : (C.saved x).settledAt = x.settledAt := by
  have h := congrArg StoredIntent.settledAt (C.saved_eq x)
  exact h

@[simp] theorem saved_receiptId (x : StoredIntent) : (C.saved x).receiptId = x.receiptId := by
  have h := congrArg StoredIntent.receiptId (C.saved_eq x)
  exact h

@[simp] theorem savedReceipt_id (r : Receipt) : (C.savedReceipt r).id = r.id := by
  have h := congrArg Receipt.id (C.savedReceipt_eq r)
  exact h

@[simp] theorem savedEntry_seq (e : AuditEntry) : (C.savedEntry e).seq = e.seq := by
  have h := congrArg AuditEntry.seq (C.savedEntry_eq e)
  exact h

/-- An intent is only written under an id nothing is stored under. -/
theorem insertIntent_spec {s s' : σ} {x : StoredIntent} (h : S.insertIntent s x = .ok s') :
    (C.books s).intents.get x.id = none ∧
      C.books s' = { C.books s with intents := (C.books s).intents.put (C.saved x) } := by
  have hb := C.insertIntent h
  simp only [Books.insertIntent, saved_id] at hb
  split at hb
  · cases hb
  · next hfresh =>
      exact ⟨by simpa using hfresh, (Except.ok.inj hb).symm⟩

/-- An update rewrites the one row it names. -/
theorem updateIntent_spec {s s' : σ} {id : String} {u : IntentUpdate}
    (h : S.updateIntent s id u = .ok s') :
    ∃ x, (C.books s).intents.get id = some x ∧
      C.books s' = { C.books s with intents := (C.books s).intents.put (u.apply x) } := by
  have hb := C.updateIntent h
  simp only [Books.updateIntent] at hb
  split at hb
  · cases hb
  · next x hx =>
      exact ⟨x, hx, (Except.ok.inj hb).symm⟩

theorem insertMandate_spec {s s' : σ} {m : Mandate} (h : S.insertMandate s m = .ok s') :
    (C.books s).mandates.get m.id = none ∧
      C.books s' = { C.books s with mandates := (C.books s).mandates.put m } := by
  have hb := C.insertMandate h
  simp only [Books.insertMandate] at hb
  split at hb
  · cases hb
  · next hfresh =>
      exact ⟨by simpa using hfresh, (Except.ok.inj hb).symm⟩

end Contract

/-- The in-memory store keeps the contract and every record whole. -/
def memoryContract : Contract memoryStore where
  books := id
  saved := id
  savedReceipt := id
  savedEntry := id
  saved_eq _ := rfl
  saved_refunded _ := rfl
  savedReceipt_eq _ := rfl
  savedReceipt_issuer _ := Or.inl rfl
  savedEntry_eq _ := rfl
  savedEntry_payload _ := rfl
  getMeta _ _ := rfl
  getMandate _ _ := rfl
  listMandates _ := rfl
  listActiveMandates _ _ := rfl
  getIntent _ _ := rfl
  listPendingIntents _ := rfl
  getReceipt _ _ := rfl
  periodSpend _ _ _ := rfl
  knownPayees b p := by simp [memoryStore]
  payeeSettledCount _ _ := rfl
  loadAudit _ := rfl
  setMeta _ _ _ := rfl
  revokeMandate _ _ := rfl
  insertMandate h := h
  updateMandate h := (Except.ok.inj h).symm
  insertIntent h := h
  updateIntent h := h
  insertReceipt h := (Except.ok.inj h).symm
  appendAudit {b e b'} h := by
    cases h
    exact ⟨b.audit ++ [e], List.perm_append_singleton e b.audit, rfl⟩
  insertIntent_fresh b x hfresh _ _ := by
    refine ⟨{ b with intents := b.intents.put x }, ?_⟩
    have hget : b.intents.get x.id = none := hfresh
    simp [memoryStore, Books.insertIntent, hget]
  updateIntent_found b id u x hx _ := by
    refine ⟨{ b with intents := b.intents.put (u.apply x) }, ?_⟩
    have hget : b.intents.get id = some x := hx
    simp [memoryStore, Books.updateIntent, hget]
  appendAudit_fresh b e _ _ := ⟨b.appendAudit e, rfl⟩

end AgentWorth
