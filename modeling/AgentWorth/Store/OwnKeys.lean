import AgentWorth.Executor.Natural
import AgentWorth.Store.Postgres
import AgentWorth.Store.Sqlite

/-!
# Stores without their notes

The meta table is the executor's for two keys only.  Dropping every other key
from a store's state leaves what the executor can see of it; a write under one
of the dropped keys changes nothing then.  Each of the three stores can be seen
so.
-/

namespace AgentWorth

open AgentWorth.Js AgentWorth.Lib

variable {σ τ : Type}

/-- A view of a store that hides what is written under other keys. -/
structure NotesHidden (S : Store σ) (T : Store τ) extends StoreMap S T where
  note : ∀ s k v, k ≠ killKey → k ≠ failKey → app (S.setMeta s k v) = app s

/-- A view of a view. -/
def StoreMap.comp {υ : Type} {S : Store σ} {T : Store τ} {U : Store υ} (f : StoreMap S T)
    (g : StoreMap T U) : StoreMap S U where
  app s := g.app (f.app s)
  getMeta s k h := (g.getMeta _ k h).trans (f.getMeta s k h)
  getMandate s := (g.getMandate _).trans (f.getMandate s)
  listMandates s := (g.listMandates _).trans (f.listMandates s)
  listActiveMandates s := (g.listActiveMandates _).trans (f.listActiveMandates s)
  getIntent s := (g.getIntent _).trans (f.getIntent s)
  getReceipt s := (g.getReceipt _).trans (f.getReceipt s)
  periodSpend s := (g.periodSpend _).trans (f.periodSpend s)
  knownPayees s := (g.knownPayees _).trans (f.knownPayees s)
  payeeSettledCount s := (g.payeeSettledCount _).trans (f.payeeSettledCount s)
  setMeta s k v h := by rw [g.setMeta _ k v h, f.setMeta s k v h]
  revokeMandate s id := by rw [g.revokeMandate, f.revokeMandate]
  insertMandate s m := by rw [g.insertMandate, f.insertMandate, except_map_map]
  updateMandate s id patch := by rw [g.updateMandate, f.updateMandate, except_map_map]
  insertIntent s x := by rw [g.insertIntent, f.insertIntent, except_map_map]
  updateIntent s id update := by rw [g.updateIntent, f.updateIntent, except_map_map]
  insertReceipt s r := by rw [g.insertReceipt, f.insertReceipt, except_map_map]
  appendAudit s e := by rw [g.appendAudit, f.appendAudit, except_map_map]

def isOwnKey (k : String) : Bool := k == killKey || k == failKey

theorem isOwnKey_of {k : String} (h : k = killKey ∨ k = failKey) : isOwnKey k = true := by
  rcases h with rfl | rfl <;> rfl

theorem isOwnKey_of_ne {k : String} (hkill : k ≠ killKey) (hfail : k ≠ failKey) :
    isOwnKey k = false := by
  simp [isOwnKey, hkill, hfail]

/-- The books with the executor's own keys. -/
def Books.ownKeys (b : Books) : Books := { b with meta' := b.meta'.restrict isOwnKey }

namespace Books

variable (b : Books)

theorem get_ownKeys {k : String} (h : k = killKey ∨ k = failKey) :
    b.ownKeys.meta'.get k = b.meta'.get k := b.meta'.get_restrict (isOwnKey_of h)

theorem setMeta_ownKeys {k : String} (h : k = killKey ∨ k = failKey) (v : String) :
    b.ownKeys.setMeta k v = (b.setMeta k v).ownKeys := by
  simp only [setMeta, ownKeys, JsMap.restrict_set_of _ (isOwnKey_of h)]

theorem ownKeys_setMeta {k : String} (hkill : k ≠ killKey) (hfail : k ≠ failKey) (v : String) :
    (b.setMeta k v).ownKeys = b.ownKeys := by
  simp only [setMeta, ownKeys, JsMap.restrict_set_of_not _ (isOwnKey_of_ne hkill hfail)]

theorem insertMandate_ownKeys (m : Mandate) :
    b.ownKeys.insertMandate m = (b.insertMandate m).map ownKeys := by
  unfold insertMandate
  rw [apply_ite (Except.map ownKeys)]
  rfl

theorem insertIntent_ownKeys (x : StoredIntent) :
    b.ownKeys.insertIntent x = (b.insertIntent x).map ownKeys := by
  unfold insertIntent
  rw [apply_ite (Except.map ownKeys)]
  rfl

theorem updateIntent_ownKeys (id : String) (update : IntentUpdate) :
    b.ownKeys.updateIntent id update = (b.updateIntent id update).map ownKeys := by
  unfold updateIntent
  rw [show b.ownKeys.intents = b.intents from rfl]
  cases b.intents.get id <;> rfl

end Books

def memoryNotesHidden : NotesHidden memoryStore memoryStore where
  app := Books.ownKeys
  getMeta b _ h := b.get_ownKeys h
  getMandate _ := rfl
  listMandates _ := rfl
  listActiveMandates _ := rfl
  getIntent _ := rfl
  getReceipt _ := rfl
  periodSpend _ := rfl
  knownPayees _ := rfl
  payeeSettledCount _ := rfl
  setMeta b _ v h := b.setMeta_ownKeys h v
  revokeMandate _ _ := rfl
  insertMandate b m := b.insertMandate_ownKeys m
  updateMandate _ _ _ := rfl
  insertIntent b x := b.insertIntent_ownKeys x
  updateIntent b id update := b.updateIntent_ownKeys id update
  insertReceipt _ _ := rfl
  appendAudit _ _ := rfl
  note b _ v hkill hfail := b.ownKeys_setMeta hkill hfail v

namespace Sqlite

variable (b : Books)

theorem insertMandate_ownKeys (m : Mandate) :
    insertMandate b.ownKeys m = (insertMandate b m).map Books.ownKeys := by
  unfold insertMandate
  cases bindMandate m with
  | error e => rfl
  | ok bound =>
      simp only [Except.bind, apply_ite (Except.map Books.ownKeys)]
      rfl

theorem updateMandate_ownKeys (id : String) (patch : MandatePatch) :
    updateMandate b.ownKeys id patch = (updateMandate b id patch).map Books.ownKeys := by
  unfold updateMandate
  rw [show b.ownKeys.mandates = b.mandates from rfl]
  cases b.mandates.get id with
  | none => rfl
  | some current =>
      simp only
      cases bindMandate (patch.apply current) <;> rfl

theorem insertIntent_ownKeys (x : StoredIntent) :
    insertIntent b.ownKeys x = (insertIntent b x).map Books.ownKeys := by
  unfold insertIntent
  cases bindNumber "intents.amount" x.intent.amount with
  | error e => rfl
  | ok bound =>
      cases bindNumber "intents.refunded_minor" (x.refundedMinor.getD 0) with
      | error e => rfl
      | ok bound =>
          simp only [Except.bind, apply_ite (Except.map Books.ownKeys)]
          rfl

theorem updateIntent_ownKeys (id : String) (update : IntentUpdate) :
    updateIntent b.ownKeys id update = (updateIntent b id update).map Books.ownKeys := by
  unfold updateIntent
  rw [show b.ownKeys.intents = b.intents from rfl]
  cases b.intents.get id with
  | none => rfl
  | some current =>
      simp only
      cases bindNumber "intents.refunded_minor" (update.refundedMinor.getD 0) <;> rfl

theorem insertReceipt_ownKeys (r : Receipt) :
    insertReceipt b.ownKeys r = (insertReceipt b r).map Books.ownKeys := by
  unfold insertReceipt
  cases bindNumber "receipts.amount" r.amount with
  | error e => rfl
  | ok bound =>
      simp only [Except.bind, apply_ite (Except.map Books.ownKeys)]
      rfl

theorem appendAudit_ownKeys (e : AuditEntry) :
    appendAudit b.ownKeys e = (appendAudit b e).map Books.ownKeys := by
  unfold appendAudit
  simp only [apply_ite (Except.map Books.ownKeys)]
  rfl

end Sqlite

def sqliteNotesHidden : NotesHidden sqliteStore sqliteStore where
  app := Books.ownKeys
  getMeta b _ h := b.get_ownKeys h
  getMandate _ := rfl
  listMandates _ := rfl
  listActiveMandates _ := rfl
  getIntent _ := rfl
  getReceipt _ := rfl
  periodSpend _ := rfl
  knownPayees _ := rfl
  payeeSettledCount _ := rfl
  setMeta b _ v h := b.setMeta_ownKeys h v
  revokeMandate _ _ := rfl
  insertMandate := Sqlite.insertMandate_ownKeys
  updateMandate := Sqlite.updateMandate_ownKeys
  insertIntent := Sqlite.insertIntent_ownKeys
  updateIntent := Sqlite.updateIntent_ownKeys
  insertReceipt := Sqlite.insertReceipt_ownKeys
  appendAudit := Sqlite.appendAudit_ownKeys
  note b _ v hkill hfail := b.ownKeys_setMeta hkill hfail v

/-- The mirror of a Postgres store answers for it. -/
def postgresMirrored : StoreMap postgresStore memoryStore where
  app s := s.mirror
  getMeta _ _ _ := rfl
  getMandate _ := rfl
  listMandates _ := rfl
  listActiveMandates _ := rfl
  getIntent _ := rfl
  getReceipt _ := rfl
  periodSpend _ := rfl
  knownPayees _ := rfl
  payeeSettledCount _ := rfl
  setMeta _ _ _ _ := rfl
  revokeMandate _ _ := rfl
  insertMandate s m := by
    show memoryStore.insertMandate s.mirror m = ((memoryStore.insertMandate s.mirror m).map _).map _
    cases memoryStore.insertMandate s.mirror m <;> rfl
  updateMandate _ _ _ := rfl
  insertIntent s x := by
    show memoryStore.insertIntent s.mirror x = ((memoryStore.insertIntent s.mirror x).map _).map _
    cases memoryStore.insertIntent s.mirror x <;> rfl
  updateIntent s id update := by
    show memoryStore.updateIntent s.mirror id update =
      ((memoryStore.updateIntent s.mirror id update).map _).map _
    cases memoryStore.updateIntent s.mirror id update <;> rfl
  insertReceipt _ _ := rfl
  appendAudit _ _ := rfl

def postgresNotesHidden : NotesHidden postgresStore memoryStore where
  toStoreMap := postgresMirrored.comp memoryNotesHidden.toStoreMap
  note s _ v hkill hfail := s.mirror.ownKeys_setMeta hkill hfail v

end AgentWorth
