import AgentWorth.Executor.Effect

/-!
# Deployments

How an executor starts: over a store, with an audit log that the operator's key
signs.  A small deployment with one card rail serves the executable examples.
-/

namespace AgentWorth

open AgentWorth.Js AgentWorth.Lib

/-- An executor over a store, before any call. -/
def deploy {σ : Type} (key : String) (store : σ) : State σ where
  world := { store := store, audit := { signer := operatorSigner key, entries := [] } }

/-- Every deployment over a store with an empty audit table starts in step. -/
theorem synced_deploy {σ : Type} {d : ExecutorDeps σ} (C : Contract d.store) (key : String)
    {store : σ} (h : (C.books store).audit = []) : Synced C (deploy key store).world := by
  refine ⟨⟨_, rfl⟩, ?_⟩
  intro r hr
  have hr' : r ∈ (C.books store).audit := hr
  rw [h] at hr'
  cases hr'

/-! ## A sample deployment -/

namespace Sample

def cardRail : PaymentProvider where
  capabilities := { id := "acp", rail := .card, reversibility := .reversible }
  canRefund := true

/-- Digests that keep their input's length out of the examples. -/
def crypto : Crypto where
  sha256 _ := "digest"
  hmacSha256 _ _ := "signature"
  jcs _ := ""

def deps : ExecutorDeps Books where
  store := memoryStore
  rails := { providers := [cardRail], routes := fun _ => none }
  crypto := crypto
  config := defaultGateConfig
  denyRules := []

/-- 100 a month, 60 a payment. -/
def mandate : Mandate where
  id := "m"
  label := "team"
  scope := .class "saas"
  currency := "USD"
  allowedRails := [.card]
  perTxCap := 60
  perPeriodCap := 100
  period := .month
  grantedAt := "2026-01-01T00:00:00.000Z"
  expiresAt := "2027-01-01T00:00:00.000Z"
  status := .active

def intent (id : String) (amount : JsNumber) : PaymentIntent where
  id := id
  payee := "acme"
  payeeClass := "saas"
  amount := amount
  currency := "USD"
  rail := .card
  rationale := "monthly seats"
  createdAt := "2026-03-01T00:00:00.000Z"

/-- An earlier payment, so that the payee is not new. -/
def history : StoredIntent where
  intent := intent "earlier" 10
  status := .settled
  mandateId := none
  reasons := []
  settledAt := some "2026-02-01T00:00:00.000Z"
  receiptId := none
  refundedMinor := none

def books : Books :=
  { Books.empty with
    mandates := Table.empty.put mandate
    intents := Table.empty.put history }

def start : State Books := deploy "key" books

theorem synced_start : Synced (d := deps) memoryContract start.world :=
  synced_deploy (d := deps) memoryContract "key" rfl

def noon : String := "2026-03-05T12:00:00.000Z"

def receipt (id : String) (amount : JsNumber) : Receipt where
  id := "receipt-" ++ id
  intentId := id
  rail := .card
  amount := amount
  currency := "USD"
  settledAt := noon
  providerRef := "ref"
  finality := .final
  providerId := none

/-- `execute` of a payment of the given amount. -/
def pay (id : String) (amount : JsNumber) : Action :=
  .execute noon {} (intent id amount) none

/-- The rail of the `k`th call returns a receipt that verifies. -/
def settles (k : Nat) (id : String) (amount : JsNumber) : Action :=
  .railReturns k (receipt id amount) (.ok true)

end Sample

end AgentWorth
