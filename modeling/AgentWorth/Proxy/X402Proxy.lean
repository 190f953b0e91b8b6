import AgentWorth.Executor.Authority
import AgentWorth.Rails.X402

/-!
# The x402 proxy

`src/proxy/x402Proxy.ts`: a 402 challenge becomes an intent for its cheapest
offer, and the executor decides.  The rail that settles the intent asks for the
offers a second time and selects by another rule, so the payee that is governed
and the payee that is paid agree only where the two selections do.
-/

namespace AgentWorth

open AgentWorth.Js AgentWorth.Lib

/-- How a chosen requirement maps onto an intent; `id` and `createdAt` are what
`newId` and `clock` return for it. -/
structure ChallengeContext where
  id : String
  createdAt : String
  rail : Option RailKind
  currencyOf : Option (PaymentRequirements → String)
  payeeClassOf : Option (PaymentRequirements → String)
  networks : Option (List String)

/-- `Math.trunc`. -/
def mathTrunc : JsNumber → JsNumber
  | .fin q => .fin (if q < 0 then ((-((-q).floor) : ℤ) : ℚ) else (q.floor : ℚ))
  | x => x

namespace X402Proxy

/-- The cheaper of two offers, the earlier one where they cost the same. -/
def cheaper (best r : PaymentRequirements) : PaymentRequirements :=
  if r.price < best.price then r else best

/-- `selectRequirement` of the proxy: the cheapest offer on an acceptable
network. -/
def selectRequirement (accepts : List PaymentRequirements) (networks : Option (List String)) :
    Option PaymentRequirements :=
  match accepts.filter fun r => networkAllowed networks r.network && r.price.isFinite with
  | [] => none
  | r :: rs => some (rs.foldl cheaper r)

def intentFor (req : PaymentRequirements) (ctx : ChallengeContext) : PaymentIntent where
  id := ctx.id
  payee := req.payTo
  payeeClass := (ctx.payeeClassOf.map fun payeeClassOf => payeeClassOf req).getD "x402-service"
  amount := mathTrunc req.price
  currency := (ctx.currencyOf.map fun currencyOf => currencyOf req).getD "USDC"
  rail := ctx.rail.getD .onchain
  rationale := "x402 paywall: " ++ (req.description.or req.resource).getD "resource" ++ " on " ++
    req.network ++ " (" ++ req.scheme ++ ")"
  createdAt := ctx.createdAt

/-- `handleChallenge` up to `await executor.execute(intent)`. -/
def handleChallenge (accepts : List PaymentRequirements) (ctx : ChallengeContext) :
    Option (PaymentRequirements × PaymentIntent) :=
  (selectRequirement accepts ctx.networks).map fun req => (req, intentFor req ctx)

end X402Proxy

/-! ## The payee that is paid -/

/-- An offer that is paid is the one that was governed: to the intent's payee,
on a network both sides allow, at exactly the authorized amount. -/
structure PaysGoverned (config : X402RailConfig) (ctx : ChallengeContext)
    (intent : PaymentIntent) (r : PaymentRequirements) : Prop where
  payee : r.payTo = intent.payee
  clientNetwork : networkAllowed config.networks r.network = true
  proxyNetwork : networkAllowed ctx.networks r.network = true
  amount : r.price = intent.amount

/-- In every list the client may be quoted, the first offer on its networks that
costs at least the governed price is to the governed payee, costs exactly that
price, and is on a network of the proxy. -/
def OffersAgree (config : X402RailConfig) (ctx : ChallengeContext) (req : PaymentRequirements)
    (intent : PaymentIntent) : Prop :=
  ∀ before r after, config.quote intent = .ok (before ++ r :: after) →
    (∀ b ∈ before, ¬ (networkAllowed config.networks b.network = true ∧
      b.price.isFinite = true ∧ mathTrunc req.price ≤ b.price)) →
    networkAllowed config.networks r.network = true → r.price.isFinite = true →
    mathTrunc req.price ≤ r.price →
    r.payTo = req.payTo ∧ r.price = mathTrunc req.price ∧
      networkAllowed ctx.networks r.network = true

/-- The gate let the intent of a call through in the step that called the rail. -/
def GateEvaluated {σ : Type} (d : ExecutorDeps σ) (store : σ) (call : Call) : Prop :=
  ∃ src now attestation decision,
    evaluateGate call.intent (context d src store now call.intent attestation) = .ok decision ∧
      decision.outcome ≠ .block

section Runs

variable {σ : Type} {d : ExecutorDeps σ} (C : Contract d.store)

include C in
/-- What a rail is called for is what the gate evaluated in that step. -/
theorem gateEvaluated_of_railInvoked {s s' : State σ} {a : Action} {es : List Event}
    {call : Call} {provider : PaymentProvider} (htaken : step d s a = some (s', es))
    (hinvoked : .railInvoked call provider ∈ es) : GateEvaluated d s.world.store call := by
  have hnone : (∀ e ∈ es, e.isQuiet = true) → False := by
    intro h
    cases h _ hinvoked
  obtain ⟨heffect, -⟩ := step_effect C htaken
  cases heffect with
  | @executeStarted now src intent attestation decision inputs _ runs decides automatic
      recorded calls refunds =>
      obtain ⟨rfl, -⟩ := mem_invocation hinvoked
      obtain ⟨hgate, -⟩ := agentDecision_auto decides automatic
      refine ⟨src, now, attestation, decision, hgate, ?_⟩
      rw [automatic]
      exact GateOutcome.noConfusion
  | @approveStarted now src intentId rationale acknowledged x decision _ runs present pending
      decides passes unchallenged recorded calls refunds =>
      obtain ⟨rfl, -⟩ := mem_invocation hinvoked
      exact ⟨src, now, none, decision, decides, passes⟩
  | quiet same calls refunds quiet => exact absurd quiet hnone
  | filed intent_eq status unrefunded fresh mandates intents receipts calls refunds quiet =>
      exact absurd quiet hnone
  | refused present pending mandates intents receipts calls refunds quiet =>
      exact absurd quiet hnone
  | mandateChanged change intents receipts calls refunds quiet => exact absurd quiet hnone
  | refunded waiting present mandates intents receipts calls refunds quiet =>
      rcases List.mem_cons.1 hinvoked with h | h
      · cases h
      · cases quiet _ h
  | answered waiting mandates intents receipts booked calls refunds => simp at hinvoked
  | answerLost waiting outOfStep mandates intents receipts calls refunds => simp at hinvoked
  | railFailed waiting same calls refunds => simp at hinvoked
  | railFailureLost waiting outOfStep same calls refunds => simp at hinvoked
  | executeFinished waiting entry fresh mandates intents receipts calls refunds =>
      simp at hinvoked
  | approveFinished waiting entry present mandates intents receipts calls refunds =>
      simp at hinvoked
  | finishRefused waiting refusal same calls refunds => simp at hinvoked
  | refundStarted starts same calls refunds => simp at hinvoked
  | refundRefused waiting refusal same calls refunds => simp at hinvoked
  | refundFailed waiting same calls refunds => simp at hinvoked

end Runs

theorem offersAgree_iff {config : X402RailConfig} {ctx : ChallengeContext}
    {req : PaymentRequirements} {intent : PaymentIntent} (hpayee : intent.payee = req.payTo)
    (hamount : intent.amount = mathTrunc req.price) :
    (∀ accepts, config.quote intent = .ok accepts →
      ∀ r, X402Client.selectRequirement accepts intent.amount config.networks = some r →
        PaysGoverned config ctx intent r) ↔ OffersAgree config ctx req intent := by
  have hpayable : ∀ r, X402Client.payable config.networks intent.amount r = true ↔
      networkAllowed config.networks r.network = true ∧ r.price.isFinite = true ∧
        mathTrunc req.price ≤ r.price := by
    intro r
    rw [X402Client.payable, Bool.and_eq_true, Bool.and_eq_true, decide_eq_true_eq, hamount]
  constructor
  · intro h before r after hquote hbefore hnetwork hfinite hprice
    have hselect : X402Client.selectRequirement (before ++ r :: after) intent.amount
        config.networks = some r := by
      refine List.find?_eq_some_iff_append.2 ⟨(hpayable r).2 ⟨hnetwork, hfinite, hprice⟩,
        before, after, rfl, ?_⟩
      intro b hb
      rw [Bool.not_eq_true', ← Bool.not_eq_true, hpayable]
      exact hbefore b hb
    obtain ⟨hto, -, hproxy, hcost⟩ := h _ hquote r hselect
    exact ⟨hto.trans hpayee, hcost.trans hamount, hproxy⟩
  · intro h accepts hquote r hselect
    obtain ⟨hr, before, after, rfl, hbefore⟩ := List.find?_eq_some_iff_append.1 hselect
    obtain ⟨hnetwork, hfinite, hprice⟩ := (hpayable r).1 hr
    obtain ⟨hto, hcost, hproxy⟩ := h before r after hquote (by
      intro b hb hb'
      have hfalse := hbefore b hb
      rw [(hpayable b).2 hb'] at hfalse
      cases hfalse) hnetwork hfinite hprice
    exact ⟨hto.trans hpayee.symm, hnetwork, hproxy, hcost.trans hamount.symm⟩

namespace Sample

def offer (payTo maxAmountRequired : String) : PaymentRequirements where
  scheme := "exact"
  network := "base"
  asset := "0xUSDC"
  payTo := payTo
  maxAmountRequired := maxAmountRequired
  resource := none
  description := none
  mimeType := none
  maxTimeoutSeconds := none
  extra := none

def paywall : ChallengeContext where
  id := "p"
  createdAt := noon
  rail := none
  currencyOf := none
  payeeClassOf := none
  networks := none

/-- The offer the proxy selects, and the intent it makes of it. -/
def forecastIntent : PaymentIntent := X402Proxy.intentFor (offer "weather" "40") paywall

def x402Deps : ExecutorDeps Books :=
  { deps with rails := { providers := [x402Rail], routes := fun _ => none } }

def x402Start : State Books :=
  deploy "key"
    { Books.empty with
      mandates := Table.empty.put
        { mandate with
          scope := .class "x402-service"
          currency := "USDC"
          allowedRails := [.onchain] }
      intents := Table.empty.put
        { history with intent := { intent "earlier" 10 with payee := "weather" } } }

/-- A client that is quoted the given offers, with a facilitator that settles. -/
def x402Config (offers : List PaymentRequirements) : X402RailConfig where
  facilitator :=
    { authorize := fun _ _ _ => .ok "header"
      settle := fun _ _ =>
        .ok { txRef := "0x1", network := "base", success := some true, payer := none } }
  quote _ := .ok offers
  networks := none

end Sample

/-- The executor calls the rail for the proxied intent. -/
theorem forecast_reaches_rail : ∃ steps s, ∃ t ∈ steps, ∃ call provider,
    (executor Sample.x402Deps).Run anyStep Sample.x402Start steps s ∧
    .railInvoked call provider ∈ t.events ∧ call.intent = Sample.forecastIntent := by
  obtain ⟨steps, s, hrun, hfound⟩ := System.exists_run (executor Sample.x402Deps) anyStep
    Sample.x402Start [.execute Sample.noon {} Sample.forecastIntent none]
    (fun steps _ => steps.any fun t => t.events.any fun e =>
      e.railCall.any fun asked => asked.1.intent == Sample.forecastIntent) (by decide +kernel)
  obtain ⟨t, ht, hevent⟩ := List.any_eq_true.1 hfound
  obtain ⟨e, he, hasked⟩ := List.any_eq_true.1 hevent
  rw [Option.any_eq_true] at hasked
  obtain ⟨asked, hcall, hintent⟩ := hasked
  obtain ⟨call, provider, rfl⟩ :=
    railInvoked_of_isSome (Option.isSome_iff_exists.2 ⟨asked, hcall⟩)
  cases hcall
  exact ⟨steps, s, t, ht, call, provider, hrun, he, eq_of_beq hintent⟩

end AgentWorth
