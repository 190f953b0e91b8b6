import AgentWorth.Core.Store

/-!
# Calls of a store

The operations of the persistence contract as data, so that one sequence of
calls can be made to two stores, or to one store over its lifetime.
-/

namespace AgentWorth

open AgentWorth.Js

inductive StoreCall where
  | getMeta (k : String)
  | setMeta (k v : String)
  | insertMandate (m : Mandate)
  | getMandate (id : String)
  | listMandates
  | listActiveMandates (now : String)
  | revokeMandate (id : String)
  | updateMandate (id : String) (patch : MandatePatch)
  | insertIntent (s : StoredIntent)
  | getIntent (id : String)
  | listPendingIntents
  | updateIntent (id : String) (update : IntentUpdate)
  | insertReceipt (r : Receipt)
  | getReceipt (id : String)
  | periodSpend (mandateId now : String)
  | knownPayees
  | payeeSettledCount (payee : String)
  | appendAudit (e : AuditEntry)
  | loadAudit

/-- What a call returns. -/
inductive Answer where
  | done
  | text (value : Option String)
  | mandate (m : Option Mandate)
  | mandates (ms : List Mandate)
  | intent (s : Option StoredIntent)
  | intents (ss : List StoredIntent)
  | receipt (r : Option Receipt)
  | spend (rows : List PriorSpend)
  | payees (ps : List String)
  | count (n : Nat)
  | entries (es : List AuditEntry)

variable {σ : Type} (S : Store σ)

/-- A write that may throw, and leaves the store as it was when it does. -/
def wrote (s : σ) : Except String σ → Except String Answer × σ
  | .ok s' => (.ok .done, s')
  | .error e => (.error e, s)

/-- Make a call: what it returns or throws, and the store it leaves. -/
def Store.call (s : σ) : StoreCall → Except String Answer × σ
  | .getMeta k => (.ok (.text (S.getMeta s k)), s)
  | .setMeta k v => (.ok .done, S.setMeta s k v)
  | .insertMandate m => wrote s (S.insertMandate s m)
  | .getMandate id => (.ok (.mandate (S.getMandate s id)), s)
  | .listMandates => (.ok (.mandates (S.listMandates s)), s)
  | .listActiveMandates now => (.ok (.mandates (S.listActiveMandates s now)), s)
  | .revokeMandate id => (.ok .done, S.revokeMandate s id)
  | .updateMandate id patch => wrote s (S.updateMandate s id patch)
  | .insertIntent x => wrote s (S.insertIntent s x)
  | .getIntent id => (.ok (.intent (S.getIntent s id)), s)
  | .listPendingIntents => (.ok (.intents (S.listPendingIntents s)), s)
  | .updateIntent id update => wrote s (S.updateIntent s id update)
  | .insertReceipt r => wrote s (S.insertReceipt s r)
  | .getReceipt id => (.ok (.receipt (S.getReceipt s id)), s)
  | .periodSpend mandateId now => ((S.periodSpend s mandateId now).map .spend, s)
  | .knownPayees => (.ok (.payees (S.knownPayees s)), s)
  | .payeeSettledCount payee => (.ok (.count (S.payeeSettledCount s payee)), s)
  | .appendAudit e => wrote s (S.appendAudit s e)
  | .loadAudit => (.ok (.entries (S.loadAudit s)), s)

end AgentWorth
