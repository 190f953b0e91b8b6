import AgentWorth.Lib.Bytes
import AgentWorth.Lib.Dialogue
import AgentWorth.Rails.X402

/-!
# Network rails

`src/rails/networkRail.ts`, the adapters over it, and the clients of
`src/rails/clients` and `src/rails/ap2`.  A client settles a payment in a
dialogue with the outside: a wallet, a card issuer, a facilitator, a credential
provider.  Some of its questions move money; what a client may order for a
payment, and that it orders once, is part of being a client.
-/

namespace AgentWorth

open AgentWorth.Js AgentWorth.Lib

/-! ## What clients ask -/

structure Ap2Merchant where
  id : String
  name : String
  deriving DecidableEq, Repr

structure Ap2Amount where
  amount : JsNumber
  currency : String
  deriving DecidableEq, Repr

structure Ap2PaymentInstrument where
  id : String
  type : String
  description : Option String := none
  deriving DecidableEq, Repr

/-- The closed payment mandate. -/
structure Ap2PaymentMandateContent where
  payee : Ap2Merchant
  paymentAmount : Ap2Amount
  paymentInstrument : Ap2PaymentInstrument
  executionDate : Option String
  iat : Option JsNumber
  exp : Option JsNumber
  deriving DecidableEq, Repr

inductive Ap2Status where
  | success
  | error
  deriving DecidableEq, Repr

structure Ap2PaymentReceipt where
  status : Ap2Status
  paymentId : String
  error : Option String
  deriving DecidableEq, Repr

structure IssuedCard where
  cardId : String
  spendLimitMinor : JsNumber
  deriving DecidableEq, Repr

/-- What a client asks of the operator's wallet, issuer or facilitator. -/
inductive RailQuestion where
  /-- the offers of the resource -/
  | quote (intent : PaymentIntent)
  | authorize (requirement : PaymentRequirements) (amountMinor : JsNumber) (reference : String)
  | settle (requirement : PaymentRequirements) (paymentHeader : String)
  /-- `transfer(to, amount)` of the token contract -/
  | writeContract (address recipient : String) (amount : Int)
  | createCard (spendLimitMinor : JsNumber) (currency : String) (merchant : Option String)
      (reference : String)
  | present (intent : PaymentIntent) (mandate : Ap2PaymentMandateContent)
  deriving DecidableEq, Repr

namespace RailQuestion

/-- What the question is answered with. -/
abbrev Answer : RailQuestion → Type
  | quote _ => List PaymentRequirements
  | authorize .. => String
  | settle .. => SettledPayment
  | writeContract .. => String
  | createCard .. => IssuedCard
  | present .. => Ap2PaymentReceipt

/-- The question is an order: when it is answered, money has moved. -/
def isOrder : RailQuestion → Bool
  | quote _ | authorize .. => false
  | settle .. | writeContract .. | createCard .. | present .. => true

/-- The reference under which an order went through. -/
def reference : (q : RailQuestion) → Except String q.Answer → Option String
  | settle .., .ok (settled : SettledPayment) =>
      if settled.success = some false then none else some settled.txRef
  | writeContract .., .ok (txHash : String) => some txHash
  | createCard .., .ok (card : IssuedCard) => some card.cardId
  | present .., .ok (receipt : Ap2PaymentReceipt) =>
      match receipt.status with
      | .success => some receipt.paymentId
      | .error => none
  | _, _ => none

end RailQuestion

abbrev RailDialogue : Type → Type := Dialogue RailQuestion RailQuestion.Answer

abbrev RailReply : Type := Reply RailQuestion RailQuestion.Answer

/-! ## How a client conducts itself -/

/-- How far the settlement of a payment has come. -/
inductive PaymentPhase where
  /-- nothing is signed or ordered -/
  | fresh
  /-- the facilitator has signed a payment of the requirement -/
  | signed (requirement : PaymentRequirements) (paymentHeader : String)
  | ordered (order : RailQuestion) (answer : Except String order.Answer)

/-- The conduct of a client that settles `intent` and may place the given orders:
it asks for offers and signatures of this payment, and orders once. -/
def payment (intent : PaymentIntent) (places : RailQuestion → Prop) :
    Conduct RailQuestion RailQuestion.Answer PaymentPhase where
  may
    | .fresh, .quote i => i = intent
    | .fresh, .authorize _ amountMinor reference =>
        amountMinor = intent.amount ∧ reference = intent.id
    | .fresh, .settle .. => False
    | .fresh, order => places order
    | .signed requirement paymentHeader, q => q = .settle requirement paymentHeader ∧ places q
    | .ordered .., _ => False
  after
    | .fresh, .authorize requirement _ _, .ok (paymentHeader : String) =>
        .signed requirement paymentHeader
    | p, q, answer => if q.isOrder then .ordered q answer else p

/-- The order went through under the reference of the settlement. -/
def Ordered (p : PaymentPhase) (s : RailSettlement) : Prop :=
  ∃ order answer, p = .ordered order answer ∧ order.reference answer = some s.providerRef

/-- `RailClient`, with what it may order for an intent. -/
structure RailClient where
  settle : PaymentIntent → RailDialogue RailSettlement
  verifyReceipt : Option (Receipt → Bool)
  places : PaymentIntent → RailQuestion → Prop
  keeps : ∀ intent, (settle intent).Keeps (payment intent (places intent)) Ordered .fresh

/-! ## The clients -/

structure OnchainRailConfig where
  tokenAddress : String
  resolvePayee : String → Option String

/-- `createOnchainRailClient`: a transfer of the token to the payee's address. -/
def createOnchainRailClient (config : OnchainRailConfig) : RailClient where
  settle intent :=
    match (config.resolvePayee intent.payee).filter (· != "") with
    | none =>
        .done (.error ("onchain rail: no address registered for payee " ++ intent.payee))
    | some recipient =>
        match toBigInt intent.amount with
        | .error e => .done (.error e)
        | .ok amount =>
            .await (.writeContract config.tokenAddress recipient amount) fun txHash =>
              .done (.ok { providerRef := txHash, finality := some .final })
  verifyReceipt := some fun receipt =>
    receipt.providerRef.startsWith "0x" && decide (4 ≤ strLength receipt.providerRef)
  places intent q := ∃ recipient amount, config.resolvePayee intent.payee = some recipient ∧
    toBigInt intent.amount = .ok amount ∧ q = .writeContract config.tokenAddress recipient amount
  keeps intent := by
    cases hrecipient : (config.resolvePayee intent.payee).filter (· != "") with
    | none => trivial
    | some recipient =>
        cases hamount : toBigInt intent.amount with
        | error e => trivial
        | ok amount =>
            have hresolved := (Option.filter_eq_some_iff.1 hrecipient).1
            refine Dialogue.keeps_await ⟨recipient, amount, hresolved, rfl, rfl⟩ ?_
            intro txHash
            exact ⟨_, _, rfl, rfl⟩

structure VirtualCardRailConfig where
  resolveMerchant : String → Option String

/-- `createVirtualCardRailClient`: a card for this payment alone. -/
def createVirtualCardRailClient (config : VirtualCardRailConfig) : RailClient where
  settle intent :=
    .await (.createCard intent.amount intent.currency (config.resolveMerchant intent.payee)
      intent.id) fun card =>
        .done (.ok { providerRef := card.cardId, finality := some .reversible })
  verifyReceipt := some fun receipt => receipt.providerRef != ""
  places intent q := q =
    .createCard intent.amount intent.currency (config.resolveMerchant intent.payee) intent.id
  keeps intent := by
    refine Dialogue.keeps_await rfl ?_
    intro card
    exact ⟨_, _, rfl, rfl⟩

/-- `createX402RailClient`: the dialogue of `X402Client.settle`. -/
def createX402RailClient (networks : Option (List String)) : RailClient where
  settle intent :=
    .await (.quote intent) fun accepts =>
      match X402Client.selectRequirement accepts intent.amount networks with
      | none =>
          .done (.error ("x402 rail: no acceptable payment requirement for intent " ++
            intent.id ++ " (amount " ++ toString intent.amount ++ ", networks " ++
            ((networks.map fun names => ",".intercalate names).getD "any") ++ ")"))
      | some requirement =>
          .await (.authorize requirement intent.amount intent.id) fun paymentHeader =>
            .await (.settle requirement paymentHeader) fun settled =>
              .done (if settled.success = some false then
                .error ("x402 rail: facilitator reported settlement failure for " ++ intent.id)
              else .ok { providerRef := settled.txRef, finality := some .final })
  verifyReceipt := some fun receipt => receipt.providerRef != ""
  places intent q := ∃ requirement paymentHeader,
    X402Client.payable networks intent.amount requirement = true ∧
      q = .settle requirement paymentHeader
  keeps intent := by
    refine Dialogue.keeps_await rfl ?_
    intro accepts
    cases hselect : X402Client.selectRequirement accepts intent.amount networks with
    | none => trivial
    | some requirement =>
        refine Dialogue.keeps_await ⟨rfl, rfl⟩ ?_
        intro paymentHeader
        refine Dialogue.keeps_await ⟨rfl, requirement, paymentHeader, ?_, rfl⟩ ?_
        · exact List.find?_some hselect
        · intro settled
          by_cases hfailed : settled.success = some false
          · rw [if_pos hfailed]
            trivial
          · rw [if_neg hfailed]
            exact ⟨_, _, rfl, if_neg hfailed⟩

/-- `buildPaymentMandateContent`, as the AP2 rail calls it. -/
def buildPaymentMandateContent (intent : PaymentIntent) (instrument : Ap2PaymentInstrument) :
    Ap2PaymentMandateContent where
  payee := { id := intent.payee, name := intent.payee }
  paymentAmount := { amount := intent.amount, currency := intent.currency }
  paymentInstrument := instrument
  executionDate := none
  iat := none
  exp := none

structure Ap2RailOptions where
  /-- `client` is given -/
  connected : Bool
  instrument : Ap2PaymentInstrument := { id := "default", type := "card" }
  rail : RailKind := .checkout
  reversibility : Reversibility := .reversible

/-- What a settlement over AP2 counts as. -/
def Ap2RailOptions.finality (options : Ap2RailOptions) : SettlementFinality :=
  match options.reversibility with
  | .irreversible => .final
  | .reversible => .reversible

/-- The client `createAp2Rail` builds around the operator's `Ap2Client`. -/
def ap2RailClient (options : Ap2RailOptions) : RailClient where
  settle intent :=
    .await (.present intent (buildPaymentMandateContent intent options.instrument)) fun receipt =>
      .done (match receipt.status with
        | .success => .ok { providerRef := receipt.paymentId, finality := some options.finality }
        | .error => .error ("ap2: " ++ receipt.error.getD "payment declined"))
  verifyReceipt := some fun receipt => receipt.providerRef != ""
  places intent q := q = .present intent (buildPaymentMandateContent intent options.instrument)
  keeps intent := by
    refine Dialogue.keeps_await rfl ?_
    intro receipt
    cases hstatus : receipt.status with
    | success =>
        refine ⟨_, _, rfl, ?_⟩
        simp [RailQuestion.reference, hstatus]
    | error => trivial

/-! ## The rails -/

structure NetworkRailSpec where
  id : String
  rail : RailKind
  reversibility : Reversibility
  defaultFinality : SettlementFinality
  client : Option RailClient

/-- `createNetworkRail`: its capabilities.  No network rail has a `refund`. -/
def createNetworkRail (spec : NetworkRailSpec) : PaymentProvider where
  capabilities := { id := spec.id, rail := spec.rail, reversibility := spec.reversibility }
  canRefund := false

namespace NetworkRailSpec

def receipt (spec : NetworkRailSpec) (intent : PaymentIntent) (now : String)
    (settlement : RailSettlement) : Receipt where
  id := "rcpt_" ++ spec.id ++ "_" ++ intent.id
  intentId := intent.id
  rail := spec.rail
  amount := intent.amount
  currency := intent.currency
  settledAt := now
  providerRef := settlement.providerRef
  finality := settlement.finality.getD spec.defaultFinality
  providerId := none

/-- `settle` of the provider: without a client it throws. -/
def settle (spec : NetworkRailSpec) (intent : PaymentIntent) (now : String) :
    RailDialogue Receipt :=
  match spec.client with
  | none =>
      .done (.error (spec.id ++ " rail not configured: provide a RailClient with live " ++
        "credentials. Refusing to fabricate a settlement."))
  | some client => (client.settle intent).map (spec.receipt intent now)

def verifyReceipt (spec : NetworkRailSpec) (receipt : Receipt) : Bool :=
  match spec.client.bind RailClient.verifyReceipt with
  | some verify => verify receipt
  | none =>
      receipt.id == "rcpt_" ++ spec.id ++ "_" ++ receipt.intentId && receipt.providerRef != ""

/-- What the rail may order for an intent: nothing without a client. -/
def Places (spec : NetworkRailSpec) (intent : PaymentIntent) (order : RailQuestion) : Prop :=
  ∃ client, spec.client = some client ∧ client.places intent order

/-- The order went through, and this is its receipt. -/
def Receipts (spec : NetworkRailSpec) (intent : PaymentIntent) (now : String)
    (p : PaymentPhase) (r : Receipt) : Prop :=
  ∃ settlement, r = spec.receipt intent now settlement ∧ Ordered p settlement

/-- **Every rail keeps the conduct of a payment**, configured or not. -/
theorem settle_keeps (spec : NetworkRailSpec) (intent : PaymentIntent) (now : String) :
    (spec.settle intent now).Keeps (payment intent (spec.Places intent))
      (spec.Receipts intent now) .fresh := by
  unfold settle Places Receipts
  cases hclient : spec.client with
  | none => trivial
  | some client =>
      refine Dialogue.keeps_map _ ?_
      have hplaces : client.places intent = fun order =>
          ∃ c, some client = some c ∧ c.places intent order := by
        funext order
        simp
      rw [← hplaces]
      refine (client.keeps intent).mono ?_
      intro p settlement h
      exact ⟨settlement, rfl, h⟩

end NetworkRailSpec

/-! ## The adapters -/

def createX402Rail (client : Option RailClient) : NetworkRailSpec where
  id := "x402"
  rail := .onchain
  reversibility := .irreversible
  defaultFinality := .final
  client := client

/-- A direct transfer signed by the operator. -/
def createOnchainRail (client : Option RailClient) : NetworkRailSpec where
  id := "direct-onchain"
  rail := .onchain
  reversibility := .irreversible
  defaultFinality := .final
  client := client

def createAgenticCommerceRail (client : Option RailClient) : NetworkRailSpec where
  id := "agentic-commerce"
  rail := .checkout
  reversibility := .reversible
  defaultFinality := .reversible
  client := client

def createUcpRail (client : Option RailClient) : NetworkRailSpec where
  id := "ucp"
  rail := .checkout
  reversibility := .irreversible
  defaultFinality := .pending
  client := client

def createMppRail (client : Option RailClient) : NetworkRailSpec where
  id := "mpp"
  rail := .checkout
  reversibility := .irreversible
  defaultFinality := .pending
  client := client

def createVisaIntelligentCommerceRail (client : Option RailClient) : NetworkRailSpec where
  id := "visa-intelligent-commerce"
  rail := .card
  reversibility := .reversible
  defaultFinality := .reversible
  client := client

def createMastercardAgentPayRail (client : Option RailClient) : NetworkRailSpec where
  id := "mastercard-agent-pay"
  rail := .card
  reversibility := .reversible
  defaultFinality := .reversible
  client := client

def createAp2Rail (options : Ap2RailOptions) : NetworkRailSpec where
  id := "ap2"
  rail := options.rail
  reversibility := options.reversibility
  defaultFinality := options.finality
  client := if options.connected then some (ap2RailClient options) else none

/-! ## The x402 client, played against a facilitator -/

/-- The answers of a facilitator and a resource. -/
def X402RailConfig.answer (config : X402RailConfig) :
    (q : RailQuestion) → Except String q.Answer
  | .quote intent => config.quote intent
  | .authorize requirement amountMinor reference =>
      config.facilitator.authorize requirement amountMinor reference
  | .settle requirement paymentHeader => config.facilitator.settle requirement paymentHeader
  | .writeContract .. | .createCard .. | .present .. => .error "not a facilitator"

/-- The question as a call of the facilitator. -/
def RailQuestion.facilitatorCall : RailQuestion → Option FacilitatorCall
  | .authorize requirement amountMinor reference =>
      some (.authorize requirement amountMinor reference)
  | .settle requirement paymentHeader => some (.settle requirement paymentHeader)
  | _ => none

/-- The dialogue of the client gives the result and the calls of
`X402Client.settle`. -/
theorem run_createX402RailClient (config : X402RailConfig) (intent : PaymentIntent) :
    let played := ((createX402RailClient config.networks).settle intent).run config.answer
    played.2 = (X402Client.settle config intent).1 ∧
      played.1.filterMap RailQuestion.facilitatorCall = (X402Client.settle config intent).2 := by
  simp only [createX402RailClient, X402Client.settle, Dialogue.run_await]
  simp only [X402RailConfig.answer]
  cases config.quote intent with
  | error e => exact ⟨rfl, rfl⟩
  | ok accepts =>
      cases hselect : X402Client.selectRequirement accepts intent.amount config.networks with
      | none =>
          simp only [hselect, Dialogue.run]
          exact ⟨trivial, rfl⟩
      | some requirement =>
          simp only [hselect, Dialogue.run_await]
          simp only [X402RailConfig.answer]
          cases config.facilitator.authorize requirement intent.amount intent.id with
          | error e => exact ⟨rfl, rfl⟩
          | ok header =>
              dsimp only
              cases config.facilitator.settle requirement header with
              | error e => exact ⟨rfl, rfl⟩
              | ok settled =>
                  by_cases hfailed : settled.success = some false
                  · simp only [Dialogue.run, if_pos hfailed]
                    exact ⟨trivial, rfl⟩
                  · simp only [Dialogue.run, if_neg hfailed]
                    exact ⟨trivial, rfl⟩

/-- **The x402 rail is one of these**: played against a facilitator, the dialogue
of the adapter gives the result and the calls of `x402Settle`. -/
theorem run_createX402Rail (config : X402RailConfig) (intent : PaymentIntent) (now : String) :
    let played := ((createX402Rail (some (createX402RailClient config.networks))).settle
      intent now).run config.answer
    played.2 = (x402Settle config intent now).1 ∧
      played.1.filterMap RailQuestion.facilitatorCall = (x402Settle config intent now).2 := by
  obtain ⟨hresult, hcalls⟩ := run_createX402RailClient config intent
  simp only [NetworkRailSpec.settle, createX402Rail, Dialogue.run_map]
  refine ⟨?_, hcalls⟩
  rw [hresult]
  rfl

end AgentWorth
