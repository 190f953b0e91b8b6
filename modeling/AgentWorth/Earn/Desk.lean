import AgentWorth.Executor.System

/-!
# The earning desk

`src/earn/earningDesk.ts`: the inbound mirror of the gate.  A payment that
arrives is checked against the acceptance policy, then its proof by an injected
verifier, and only then recorded as earned, in the chain that the executor
writes.  `receive` is cut at its `await` as the executor's entry points are.
-/

namespace AgentWorth

open AgentWorth.Js

structure PriceQuote where
  service : String
  priceMinor : JsNumber
  currency : String
  payTo : Option String

structure InboundPayment where
  service : String
  amountMinor : JsNumber
  currency : String
  payer : Option String
  /-- proof of payment, any value of the language -/
  proof : Option {v : JsValue // v.WellFormed}

/-- What payments the agent accepts. -/
structure AcceptancePolicy where
  currency : String
  minPriceMinor : JsNumber
  allowedServices : Option (List String)

structure ReceiveResult where
  accepted : Bool
  reasons : List String
  deriving DecidableEq

/-- The policy of a desk and whether it has a verifier, whose answers are the
environment's. -/
structure EarningDesk where
  policy : AcceptancePolicy
  hasVerifier : Bool

def evaluateInbound (payment : InboundPayment) (policy : AcceptancePolicy) : ReceiveResult :=
  let reasons :=
    (if payment.currency ≠ policy.currency then
        ["currency " ++ payment.currency ++ " not accepted (want " ++ policy.currency ++ ")"]
      else []) ++
      ((if payment.amountMinor < policy.minPriceMinor then
          ["amount " ++ toString payment.amountMinor ++ " below minimum " ++
            toString policy.minPriceMinor]
        else []) ++
        (if policy.allowedServices.any fun services => !services.contains payment.service then
          ["service \"" ++ payment.service ++ "\" is not offered"]
        else []))
  { accepted := reasons.isEmpty, reasons }

/-! ## Payloads -/

def quotePayload (q : PriceQuote) : JsValue :=
  .obj
    [("service", .str q.service), ("priceMinor", .num q.priceMinor),
      ("currency", .str q.currency), ("payTo", (q.payTo.map JsValue.str).getD .undefined)]

def inboundValue (payment : InboundPayment) : JsValue :=
  .obj
    (("service", .str payment.service) :: ("amountMinor", .num payment.amountMinor) ::
      ("currency", .str payment.currency) ::
      (Codec.str.optMember "payer" payment.payer ++
        (payment.proof.map fun proof => ("proof", proof.1)).toList))

def rejectedPayload (payment : InboundPayment) (reasons : List String) : JsValue :=
  .obj [("payment", inboundValue payment), ("reasons", .ofStrings reasons)]

def receivedPayload (payment : InboundPayment) : JsValue :=
  .obj
    [("service", .str payment.service), ("amount", .num payment.amountMinor),
      ("currency", .str payment.currency),
      ("payer", (payment.payer.map JsValue.str).getD .undefined)]

/-! ## The desk -/

namespace EarningDesk

variable {σ : Type} (d : ExecutorDeps σ)

def quote (desk : EarningDesk) (service : String) (priceMinor : JsNumber)
    (payTo : Option String) (now : String) : Exec σ PriceQuote := do
  let q : PriceQuote := { service, priceMinor, currency := desk.policy.currency, payTo }
  record d .earningQuoted (quotePayload q) now
  return q

def rejectInbound (payment : InboundPayment) (reasons : List String) (now : String) :
    Exec σ ReceiveResult := do
  record d .earningRejected (rejectedPayload payment reasons) now
  return { accepted := false, reasons }

/-- The first segment of `receive`: `none` when it awaits the verifier. -/
def receive (desk : EarningDesk) (payment : InboundPayment) (now : String) :
    Exec σ (Option ReceiveResult) := do
  let policyCheck := evaluateInbound payment desk.policy
  if policyCheck.accepted = false then
    let result ← rejectInbound d payment policyCheck.reasons now
    return some result
  else if desk.hasVerifier = false then
    let result ← rejectInbound d payment
      ["no earning verifier configured — cannot confirm payment"] now
    return some result
  else return none

/-- `receive` resumed by a verifier that answered. -/
def receiveVerified (payment : InboundPayment) (verified : Bool) (now : String) :
    Exec σ ReceiveResult := do
  if verified then
    record d .earningReceived (receivedPayload payment) now
    return { accepted := true, reasons := ["payment verified and recorded"] }
  else rejectInbound d payment ["payment proof did not verify"] now

end EarningDesk

end AgentWorth
