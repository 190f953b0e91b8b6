import AgentWorth.Lib.Strings
import AgentWorth.Rails.Registry

/-!
# The x402 rail

`src/rails/clients/x402Client.ts` under `createX402Rail`.  The client asks for
the offers itself, takes the first one whose price the amount does not exceed,
and has the facilitator authorize and settle it.  What it asks of the
facilitator is kept as a list of calls next to the result.
-/

namespace AgentWorth

open AgentWorth.Js

/-- `extra`: the EIP-712 domain of the asset. -/
structure AssetDomain where
  name : Option String
  version : Option String
  deriving DecidableEq, Repr

/-- An x402 `accepts[]` entry: `PaymentRequirements` of the client and
`X402Requirement` of the proxy. -/
structure PaymentRequirements where
  scheme : String
  network : String
  asset : String
  payTo : String
  maxAmountRequired : String
  resource : Option String
  description : Option String
  mimeType : Option String
  maxTimeoutSeconds : Option JsNumber
  extra : Option AssetDomain
  deriving DecidableEq, Repr

/-- `Number(r.maxAmountRequired)`. -/
def PaymentRequirements.price (r : PaymentRequirements) : JsNumber :=
  stringToNumber r.maxAmountRequired.toList

/-- A list of networks lets a network pass; no list lets all pass. -/
def networkAllowed (networks : Option (List String)) (network : String) : Bool :=
  match networks with
  | some names => names.contains network
  | none => true

structure SettledPayment where
  txRef : String
  network : String
  success : Option Bool
  payer : Option String
  deriving DecidableEq, Repr

/-- The wallet and facilitator behind the client; a verb that throws answers
with its message. -/
structure X402Facilitator where
  authorize : PaymentRequirements → JsNumber → String → Except String String
  settle : PaymentRequirements → String → Except String SettledPayment

structure X402RailConfig where
  facilitator : X402Facilitator
  quote : PaymentIntent → Except String (List PaymentRequirements)
  networks : Option (List String)

/-- What the client asks of the facilitator. -/
inductive FacilitatorCall where
  | authorize (requirement : PaymentRequirements) (amountMinor : JsNumber) (reference : String)
  | settle (requirement : PaymentRequirements) (paymentHeader : String)
  deriving DecidableEq, Repr

def FacilitatorCall.requirement : FacilitatorCall → PaymentRequirements
  | .authorize requirement _ _ => requirement
  | .settle requirement _ => requirement

structure RailSettlement where
  providerRef : String
  finality : Option SettlementFinality
  deriving DecidableEq, Repr

namespace X402Client

/-- The offer is on a network of the list, at a finite price that the amount
does not exceed. -/
def payable (networks : Option (List String)) (amountMinor : JsNumber)
    (r : PaymentRequirements) : Bool :=
  networkAllowed networks r.network && (r.price.isFinite && decide (amountMinor ≤ r.price))

/-- `selectRequirement` of the client: the first such offer. -/
def selectRequirement (accepts : List PaymentRequirements) (amountMinor : JsNumber)
    (networks : Option (List String)) : Option PaymentRequirements :=
  accepts.find? (payable networks amountMinor)

/-- `settle` of `createX402RailClient`, with the calls it makes. -/
def settle (config : X402RailConfig) (intent : PaymentIntent) :
    Except String RailSettlement × List FacilitatorCall :=
  match config.quote intent with
  | .error e => (.error e, [])
  | .ok accepts =>
      match selectRequirement accepts intent.amount config.networks with
      | none =>
          (.error ("x402 rail: no acceptable payment requirement for intent " ++ intent.id ++
            " (amount " ++ toString intent.amount ++ ", networks " ++
            ((config.networks.map fun names => ",".intercalate names).getD "any") ++ ")"), [])
      | some requirement =>
          let asked := FacilitatorCall.authorize requirement intent.amount intent.id
          match config.facilitator.authorize requirement intent.amount intent.id with
          | .error e => (.error e, [asked])
          | .ok paymentHeader =>
              let calls := [asked, .settle requirement paymentHeader]
              match config.facilitator.settle requirement paymentHeader with
              | .error e => (.error e, calls)
              | .ok settled =>
                  if settled.success = some false then
                    (.error ("x402 rail: facilitator reported settlement failure for " ++
                      intent.id), calls)
                  else (.ok { providerRef := settled.txRef, finality := some .final }, calls)

/-- **Every call is for the selected offer**, and there is one whenever an offer
is selected. -/
theorem settle_calls (config : X402RailConfig) (intent : PaymentIntent)
    {p : PaymentRequirements → Prop} :
    (∀ call ∈ (settle config intent).2, p call.requirement) ↔
      ∀ accepts, config.quote intent = .ok accepts →
        ∀ r, selectRequirement accepts intent.amount config.networks = some r → p r := by
  unfold settle
  cases config.quote intent with
  | error e => simp
  | ok accepts =>
      cases hselect : selectRequirement accepts intent.amount config.networks with
      | none => simp [hselect]
      | some requirement =>
          have hasked : ∀ calls : List FacilitatorCall,
              (∀ call ∈ FacilitatorCall.authorize requirement intent.amount intent.id :: calls,
                call.requirement = requirement) →
              ((∀ call ∈ FacilitatorCall.authorize requirement intent.amount intent.id :: calls,
                p call.requirement) ↔ p requirement) := by
            intro calls hcalls
            constructor
            · intro h
              exact h _ (List.mem_cons_self ..)
            · intro h call hcall
              rw [hcalls call hcall]
              exact h
          simp only [hselect, Except.ok.injEq, Option.some.injEq, forall_eq']
          cases config.facilitator.authorize requirement intent.amount intent.id with
          | error e => exact hasked [] (by simp [FacilitatorCall.requirement])
          | ok header =>
              have hboth := hasked [.settle requirement header]
                (by simp [FacilitatorCall.requirement])
              cases hsettle : config.facilitator.settle requirement header with
              | error e =>
                  simp only [hsettle]
                  exact hboth
              | ok settled =>
                  by_cases hfailed : settled.success = some false
                  · simp only [hsettle, hfailed, if_true]
                    exact hboth
                  · simp only [hsettle, hfailed, if_false]
                    exact hboth

end X402Client

/-- `createX402Rail`: its capabilities. -/
def x402Rail : PaymentProvider where
  capabilities := { id := "x402", rail := .onchain, reversibility := .irreversible }
  canRefund := false

/-- `settle` of the provider `createNetworkRail` builds around the client. -/
def x402Settle (config : X402RailConfig) (intent : PaymentIntent) (now : String) :
    Except String Receipt × List FacilitatorCall :=
  let settlement := X402Client.settle config intent
  (settlement.1.map fun s =>
    { id := "rcpt_x402_" ++ intent.id
      intentId := intent.id
      rail := .onchain
      amount := intent.amount
      currency := intent.currency
      settledAt := now
      providerRef := s.providerRef
      finality := s.finality.getD .final
      providerId := none }, settlement.2)

end AgentWorth
