import AgentWorth.Core.Enforcement
import AgentWorth.Core.RiskChain
import AgentWorth.Core.Store
import AgentWorth.Rails.Registry

/-!
# The executor

`src/core/executor.ts`: the only path from a payment intent to a rail.  The
code between two awaits runs without interruption, so each entry point is cut
at its `await`s into segments, and a segment is a computation over the store
and the audit log that may throw.  A throw keeps what was written before it.
-/

namespace AgentWorth

open AgentWorth.Js

/-- What the injected network sources answer at the time of a call. -/
structure Sources where
  fxRates : Option FxRateSource := none
  reputation : Option (String → ReputationLevel) := none

structure ExecutorDeps (σ : Type) where
  store : Store σ
  rails : RailRegistry
  crypto : Crypto
  config : GateConfig
  denyRules : List DenyRule
  circuitBreakerThreshold : Option JsNumber := none
  challengeThresholdMinor : Option JsNumber := none
  /-- minor-unit decimals of token symbols -/
  tokenDecimals : Option (JsMap Int) := none

/-- What the executor's synchronous code reads and writes. -/
structure World (σ : Type) where
  store : σ
  audit : AuditLog

abbrev Exec (σ α : Type) := EStateM String (World σ) α

variable {σ : Type} (d : ExecutorDeps σ)

/-- A store operation that may throw. -/
def write (f : σ → Except String σ) : Exec σ Unit := fun w =>
  match f w.store with
  | .ok store => .ok () { w with store := store }
  | .error e => .error e w

/-- A pure computation that may throw. -/
def eval {α : Type} (x : Except String α) : Exec σ α := fun w =>
  match x with
  | .ok a => .ok a w
  | .error e => .error e w

/-! ## Audit records -/

def policyHash (store : σ) : String :=
  computePolicyHash d.crypto
    (effectivePolicy (d.store.listMandates store) d.config d.denyRules)

/-- The entry `record` appends: a gate decision is stamped with the policy it
was evaluated under. -/
def appendEntry (type : AuditEventType) (payload : JsValue) (ts : String) (w : World σ) :
    Except String (AuditEntry × AuditLog) :=
  if type = .gateDecision then
    w.audit.appendGateDecision d.crypto payload (policyHash d w.store) ts
  else w.audit.append d.crypto type payload ts

/-- The entry joins the in-memory chain before the store is asked to keep it. -/
def record (type : AuditEventType) (payload : JsValue) (ts : String) : Exec σ Unit := fun w =>
  match appendEntry d type payload ts w with
  | .error e => .error e w
  | .ok (entry, audit) =>
      match d.store.appendAudit w.store entry with
      | .error e => .error e { w with audit := audit }
      | .ok store => .ok () { store := store, audit := audit }

/-! ## Kill switch and circuit breaker -/

def killKey : String := "kill_switch"

def failKey : String := "consecutive_failures"

def breakerThreshold : JsNumber := d.circuitBreakerThreshold.getD 4

def challengeThreshold : JsNumber := d.challengeThresholdMinor.getD 100000

def isKilled (store : σ) : Bool := d.store.getMeta store killKey == some "1"

def failures (store : σ) : JsNumber := number ((d.store.getMeta store failKey).getD "0")

def breakerOpen (store : σ) : Bool := decide (breakerThreshold d ≤ failures d store)

inductive OutcomeKind where
  | ok
  | bad

def recordOutcome (kind : OutcomeKind) : Exec σ Unit := fun w =>
  let value :=
    match kind with
    | .ok => "0"
    | .bad => toString (failures d w.store + 1)
  .ok () { w with store := d.store.setMeta w.store failKey value }

def haltReason (store : σ) : Option String :=
  if isKilled d store then some "kill switch engaged"
  else if breakerOpen d store then
    some ("circuit breaker open (" ++ toString (failures d store) ++
      " consecutive blocks/failures)")
  else none

def haltDecision (reason : String) : GateDecision where
  outcome := .block
  reasons := ["halted: " ++ reason]
  mandateId := none
  risk := noRisk
  remainingPeriodBudget := none
  suggestedFix := none

/-! ## Calls -/

inductive Entry where
  | execute
  | approve
  deriving DecidableEq, Repr

/-- Where a call that passed authorization stands: its rail has been asked, or
its settlement has come back and the entry point has still to write the
result. -/
inductive Stage where
  | rail (provider : PaymentProvider)
  | settled (outcome : Except String (Receipt × Bool))

/-- An `execute` or `approve` call suspended at an `await`. -/
structure Call where
  entry : Entry
  intentId : String
  intent : PaymentIntent
  now : String
  decision : GateDecision
  stage : Stage

structure ExecuteResult where
  intentId : String
  status : IntentStatus
  decision : GateDecision
  receipt : Option Receipt := none
  verified : Option Bool := none
  challenge : Option (List String) := none

/-- The first segment of an entry point returns, or suspends in `settle`. -/
inductive Started where
  | done (result : ExecuteResult)
  | awaiting (call : Call)

/-- `settle` up to its `await`: the provider is asked, or there is none. -/
def settle (entry : Entry) (intentId : String) (intent : PaymentIntent) (now : String)
    (decision : GateDecision) : Call where
  entry := entry
  intentId := intentId
  intent := intent
  now := now
  decision := decision
  stage :=
    match d.rails.get intent.rail with
    | some provider => .rail provider
    | none => .settled (.error ("no provider registered for rail " ++ intent.rail.text))

/-! ## The gate's context and the agent's decision -/

/-- `context`: what the gate is given. -/
def context (src : Sources) (store : σ) (now : String) (intent : PaymentIntent)
    (attestation : Option Attestation) : GateContext where
  now := now
  mandates := d.store.listActiveMandates store now
  periodSpendByMandate id := d.store.periodSpend store id now
  knownPayees := setOf (d.store.knownPayees store)
  trustOf := some fun payee => payeeTrust (d.store.payeeSettledCount store payee)
  convert := src.fxRates.map fun rate amount source target =>
    (rate source target).map fun r =>
      convertMinorCrossDecimal amount r source target d.tokenDecimals
  attestation := attestation
  reputationOf := src.reputation.map fun reputation _ => some (reputation intent.payee)
  denyRules := d.denyRules
  config := d.config
  reversibility := (d.rails.get intent.rail).map fun p => p.capabilities.reversibility

/-- Whether the authorizing mandate is a streaming one. -/
def isStreaming (store : σ) (decision : GateDecision) : Bool :=
  match decision.mandateId with
  | some id => id != "" && (d.store.getMandate store id).any fun m => m.period == .day
  | none => false

/-- A triggered risk chain turns an automatic payment into a confirmation. -/
def escalate (alert : RiskChainAlert) (decision : GateDecision) : GateDecision :=
  let reasons := decision.reasons ++ ["RiskChain: " ++ alert.reason.getD "undefined"]
  if alert.triggered then
    if decision.outcome = .autoExecute then
      { decision with
        outcome := .confirmOperator
        reasons := reasons
        suggestedFix := some
          { code := "CONFIRM_OPERATOR"
            message := "Requires operator confirmation due to multi-step risk alerts."
            parameters := some
              [("type", .str alert.type.text),
                ("reason", (alert.reason.map JsValue.str).getD .undefined)] } }
    else { decision with reasons := reasons }
  else decision

/-- The risk chain as `execute` consults it. -/
def chainAlert (w : World σ) (now : String) (intent : PaymentIntent)
    (decision : GateDecision) : RiskChainAlert :=
  evaluateRiskChain intent w.audit.entries
    { isStreaming := isStreaming d w.store decision, now := some now }

/-- The gate, then the session's risk chains. -/
def agentDecision (src : Sources) (w : World σ) (now : String) (intent : PaymentIntent)
    (attestation : Option Attestation) : Except String GateDecision :=
  (evaluateGate intent (context d src w.store now intent attestation)).map fun decision =>
    escalate (chainAlert d w now intent decision) decision

/-! ## Captured inputs -/

def fxKey (source target : String) : String := source ++ "/" ++ target

/-- The rates into the currencies of the active mandates. -/
def capturedRates (src : Sources) (store : σ) (now : String) (intent : PaymentIntent) :
    JsMap JsNumber :=
  JsMap.ofEntries ((d.store.listActiveMandates store now).filterMap fun m =>
    match src.fxRates with
    | none => none
    | some rate =>
        if m.currency = intent.currency then none
        else (rate intent.currency m.currency).map fun r => (fxKey intent.currency m.currency, r))

/-- The period spend of each mandate, in order. -/
def collectSpend (store : σ) (now : String) :
    List Mandate → Except String (List (String × List PriorSpend))
  | [] => .ok []
  | m :: ms =>
      (d.store.periodSpend store m.id now).bind fun spend =>
        (collectSpend store now ms).map fun rest => (m.id, spend) :: rest

def replayInputs (src : Sources) (store : σ) (now : String) (intent : PaymentIntent)
    (attestation : Option Attestation) : Except String ReplayInputs :=
  (collectSpend d store now (d.store.listActiveMandates store now)).map fun spends =>
    let rates := capturedRates d src store now intent
    { reversibility := some
        (((d.rails.get intent.rail).map fun p => p.capabilities.reversibility).getD
          (railReversibility intent.rail))
      attestation := attestation
      reputation := src.reputation.map fun reputation => reputation intent.payee
      trust := some (payeeTrust (d.store.payeeSettledCount store intent.payee))
      knownPayees := sortByKey id (d.store.knownPayees store)
      periodSpendByMandate := JsMap.ofEntries spends
      fxRates := if rates.entries.isEmpty then none else some rates }

def agentPayload (intent : PaymentIntent) (decision : GateDecision) (inputs : ReplayInputs) :
    JsValue :=
  .obj
    [("intentId", .str intent.id), ("phase", .str "agent"),
      ("outcome", outcomeCodec.encode decision.outcome),
      ("reasons", .ofStrings decision.reasons),
      ("mandateId", idCodec.encode decision.mandateId),
      ("riskTier", tierCodec.encode decision.risk.tier),
      ("verdict", decisionCodec.encode decision),
      ("ctxDigest", .str (computeContextDigest d.crypto (replayInputsCodec.encode inputs))),
      ("intent", intentCodec.encode intent),
      ("inputs", replayInputsCodec.encode inputs)]

def approvalPayload (intentId rationale : String) (acknowledged : Bool)
    (decision : GateDecision) : JsValue :=
  .obj
    [("intentId", .str intentId), ("phase", .str "operator_approval"),
      ("outcome", outcomeCodec.encode decision.outcome),
      ("operatorRationale", .str rationale), ("acknowledged", .bool acknowledged),
      ("reasons", .ofStrings decision.reasons),
      ("mandateId", idCodec.encode decision.mandateId)]

def haltPayload (intentId phase reason : String) : JsValue :=
  .obj [("intentId", .str intentId), ("phase", .str phase), ("reason", .str reason)]

/-! ## execute -/

/-- A stored intent that has not settled. -/
def unsettled (intent : PaymentIntent) (status : IntentStatus) (mandateId : Option String)
    (reasons : List String) : StoredIntent where
  intent := intent
  status := status
  mandateId := mandateId
  reasons := reasons
  settledAt := none
  receiptId := none
  refundedMinor := none

/-- `execute` up to its `await`. -/
def execute (src : Sources) (now : String) (intent : PaymentIntent)
    (attestation : Option Attestation) : Exec σ Started := do
  let w ← get
  match haltReason d w.store with
  | some halt =>
      record d .paymentHalted (haltPayload intent.id "agent" halt) now
      let decision := haltDecision halt
      write fun s => d.store.insertIntent s (unsettled intent .blocked none decision.reasons)
      return .done { intentId := intent.id, status := .blocked, decision }
  | none =>
      let decision ← eval (agentDecision d src w now intent attestation)
      let inputs ← eval (replayInputs d src w.store now intent attestation)
      record d .gateDecision (agentPayload d intent decision inputs) now
      match decision.outcome with
      | .block =>
          write fun s => d.store.insertIntent s
            (unsettled intent .blocked decision.mandateId decision.reasons)
          recordOutcome d .bad
          return .done { intentId := intent.id, status := .blocked, decision }
      | .confirmOperator =>
          write fun s => d.store.insertIntent s
            (unsettled intent .pending decision.mandateId decision.reasons)
          return .done { intentId := intent.id, status := .pending, decision }
      | .autoExecute => return .awaiting (settle d .execute intent.id intent now decision)

/-! ## approve -/

/-- The reversibility of the provider that will settle the intent. -/
def settlementReversibility (intent : PaymentIntent) : Reversibility :=
  ((d.rails.get intent.rail).map fun p => p.capabilities.reversibility).getD
    (railReversibility intent.rail)

def challengeFor (intent : PaymentIntent) (decision : GateDecision) : List String :=
  ["Confirm you recognise the payee \"" ++ intent.payee ++ "\" and intend to pay " ++
      toString intent.amount ++ " " ++ intent.currency ++ "."] ++
    ((if settlementReversibility d intent = .irreversible then
        ["This settles IRREVERSIBLY — confirm you accept it cannot be clawed back."]
      else []) ++
      ((if decision.risk.tier = .high then
          ["Risk is elevated (" ++ "; ".intercalate decision.risk.reasons ++
            ") — confirm anyway?"]
        else []) ++ ["Confirm there is no safer alternative you'd prefer."]))

/-- High-risk, irreversible and large payments need an acknowledgement. -/
def requiresChallenge (intent : PaymentIntent) (decision : GateDecision) : Bool :=
  decision.risk.tier == .high || settlementReversibility d intent == .irreversible ||
    decide (challengeThreshold d ≤ intent.amount)

/-- `approve` up to its `await`. -/
def approve (src : Sources) (now : String) (intentId rationale : String)
    (acknowledged : Bool) : Exec σ Started := do
  let w ← get
  match d.store.getIntent w.store intentId with
  | none => throw ("intent " ++ intentId ++ " not found")
  | some stored =>
      if stored.status ≠ .pending then
        throw ("intent " ++ intentId ++ " is " ++ stored.status.text ++ ", not pending")
      else
        match haltReason d w.store with
        | some halt =>
            record d .paymentHalted (haltPayload intentId "operator_approval" halt) now
            return .done { intentId, status := .blocked, decision := haltDecision halt }
        | none =>
            let decision ← eval
              (evaluateGate stored.intent (context d src w.store now stored.intent none))
            record d .gateDecision (approvalPayload intentId rationale acknowledged decision)
              now
            if decision.outcome = .block then
              write fun s => d.store.updateIntent s intentId
                { status := some .blocked, reasons := some decision.reasons }
              recordOutcome d .bad
              return .done { intentId, status := .blocked, decision }
            else if requiresChallenge d stored.intent decision && !acknowledged then
              return .done
                { intentId, status := .pending, decision
                  challenge := some (challengeFor d stored.intent decision) }
            else return .awaiting (settle d .approve intentId stored.intent now decision)

/-! ## settle, after the rail has answered -/

/-- The receipt as the executor books it: with the provider that issued it. -/
def issuedBy (provider : PaymentProvider) (receipt : Receipt) : Receipt :=
  { receipt with providerId := some provider.capabilities.id }

def settledPayload (intent : PaymentIntent) (receipt : Receipt) : JsValue :=
  .obj
    [("intentId", .str intent.id), ("receiptId", .str receipt.id),
      ("amount", .num intent.amount), ("currency", .str intent.currency),
      ("rail", railCodec.encode intent.rail)]

def verifiedPayload (intent : PaymentIntent) (receipt : Receipt) (verified : Bool) : JsValue :=
  .obj
    [("intentId", .str intent.id), ("receiptId", .str receipt.id), ("ok", .bool verified)]

def failedPayload (intent : PaymentIntent) (error : String) : JsValue :=
  .obj [("intentId", .str intent.id), ("error", .str error)]

/-- The rest of the `try` block once the rail has returned a receipt;
`verified` is what `verifyReceipt` answers or throws. -/
def book (intent : PaymentIntent) (receipt : Receipt) (verified : Except String Bool) :
    Exec σ (Receipt × Bool) := do
  write fun s => d.store.insertReceipt s receipt
  record d .paymentSettled (settledPayload intent receipt) receipt.settledAt
  let ok ← eval verified
  record d .paymentVerified (verifiedPayload intent receipt ok) receipt.settledAt
  return (receipt, ok)

/-- The `catch` block. -/
def settleFailed (intent : PaymentIntent) (now error : String) :
    Exec σ (Except String (Receipt × Bool)) := do
  record d .paymentFailed (failedPayload intent error) now
  return .error error

/-- `settle` resumed by a rail that returned. -/
def settleReturned (intent : PaymentIntent) (now : String) (receipt : Receipt)
    (verified : Except String Bool) : Exec σ (Except String (Receipt × Bool)) :=
  tryCatch (do return .ok (← book d intent receipt verified))
    (settleFailed d intent now)

/-! ## execute and approve, after settle has returned -/

/-- The intent an `execute` call writes when its settlement is over. -/
def executedIntent (call : Call) : Except String (Receipt × Bool) → StoredIntent
  | .error error => unsettled call.intent .failed call.decision.mandateId [error]
  | .ok (receipt, _) =>
      { intent := call.intent
        status := .settled
        mandateId := call.decision.mandateId
        reasons := call.decision.reasons
        settledAt := some receipt.settledAt
        receiptId := some receipt.id
        refundedMinor := none }

/-- The update an `approve` call makes when its settlement is over. -/
def approvedUpdate : Except String (Receipt × Bool) → IntentUpdate
  | .error error => { status := some .failed, reasons := some [error] }
  | .ok (receipt, _) =>
      { status := some .settled
        settledAt := some receipt.settledAt
        receiptId := some receipt.id }

/-- What a finished call returns. -/
def settlementResult (call : Call) : Except String (Receipt × Bool) → ExecuteResult
  | .error _ => { intentId := call.intentId, status := .failed, decision := call.decision }
  | .ok (receipt, verified) =>
      { intentId := call.intentId
        status := .settled
        decision := call.decision
        receipt := some receipt
        verified := some verified }

def settlementKind : Except String (Receipt × Bool) → OutcomeKind
  | .error _ => .bad
  | .ok _ => .ok

/-- The last segment of `execute` and `approve`. -/
def finish (call : Call) (outcome : Except String (Receipt × Bool)) : Exec σ ExecuteResult := do
  match call.entry with
  | .execute => write fun s => d.store.insertIntent s (executedIntent call outcome)
  | .approve => write fun s => d.store.updateIntent s call.intentId (approvedUpdate outcome)
  recordOutcome d (settlementKind outcome)
  return settlementResult call outcome

/-! ## refund -/

structure RefundResult where
  intentId : String
  ok : Bool
  refundedMinor : JsNumber
  reason : Option String

/-- A `refund` call suspended at `await provider.refund`. -/
structure RefundCall where
  intentId : String
  provider : PaymentProvider
  receipt : Receipt
  already : JsNumber
  amount : JsNumber
  reason : Option String
  now : String

inductive RefundStarted where
  | refused (result : RefundResult)
  | awaiting (call : RefundCall)

/-- The provider a refund of the receipt is sent to. -/
def refundProvider (receipt : Receipt) (rail : RailKind) : Option PaymentProvider :=
  (match receipt.providerId with
    | some id => if id ≠ "" then d.rails.byId id else none
    | none => none).or (d.rails.get rail)

/-- The receipt a stored intent names. -/
def storedReceipt (store : σ) (stored : StoredIntent) : Option Receipt :=
  match stored.receiptId with
  | some id => if id ≠ "" then d.store.getReceipt store id else none
  | none => none

/-- `refund` up to its `await`. -/
def refund (store : σ) (now intentId : String) (amountMinor : Option JsNumber)
    (reason : Option String) : Except String RefundStarted :=
  match d.store.getIntent store intentId with
  | none => .error ("intent " ++ intentId ++ " not found")
  | some stored =>
      let already := stored.refundedMinor.getD 0
      let refuse (why : String) : Except String RefundStarted :=
        .ok (.refused { intentId, ok := false, refundedMinor := already, reason := some why })
      if stored.status ≠ .settled then refuse ("not settled (" ++ stored.status.text ++ ")")
      else
        match storedReceipt d store stored with
        | none => refuse "no receipt"
        | some receipt =>
            match refundProvider d receipt stored.intent.rail with
            | none => refuse "no provider"
            | some provider =>
                let amount := amountMinor.getD (stored.intent.amount - already)
                if provider.capabilities.reversibility ≠ .reversible then
                  refuse "settlement is irreversible — cannot refund"
                else if provider.canRefund = false then
                  refuse "rail does not support refunds"
                else if amount ≤ 0 ∨ stored.intent.amount < already + amount then
                  refuse "invalid refund amount"
                else
                  .ok (.awaiting { intentId, provider, receipt, already, amount, reason, now })

def refundedPayload (call : RefundCall) (refundRef : String) : JsValue :=
  .obj
    [("intentId", .str call.intentId), ("amount", .num call.amount),
      ("refundRef", .str refundRef), ("reason", (call.reason.map JsValue.str).getD .undefined)]

/-- `refund` resumed by a rail that returned. -/
def refundReturned (call : RefundCall) (refundRef : String) : Exec σ RefundResult := do
  let refundedMinor := call.already + call.amount
  write fun s => d.store.updateIntent s call.intentId { refundedMinor := some refundedMinor }
  record d .paymentRefunded (refundedPayload call refundRef) call.now
  return { intentId := call.intentId, ok := true, refundedMinor, reason := none }

/-! ## Operator controls -/

def patchMembers (patch : MandatePatch) : List (String × JsValue) :=
  Codec.str.optMember "label" patch.label ++
    ((patch.scope.map fun s => ("scope", scopeValue s)).toList ++
      (Codec.str.optMember "currency" patch.currency ++
        ((Codec.list railCodec).optMember "allowedRails" patch.allowedRails ++
          (Codec.num.optMember "perTxCap" patch.perTxCap ++
            (Codec.num.optMember "perPeriodCap" patch.perPeriodCap ++
              ((patch.period.map fun p => ("period", JsValue.str p.text)).toList ++
                (Codec.str.optMember "grantedAt" patch.grantedAt ++
                  (Codec.str.optMember "expiresAt" patch.expiresAt ++
                    (patch.status.map fun s => ("status", JsValue.str s.text)).toList))))))))

def amendMandate (now id : String) (patch : MandatePatch) : Exec σ Unit := do
  write fun s => d.store.updateMandate s id patch
  record d .mandateAmended (.obj [("id", .str id), ("patch", .obj (patchMembers patch))]) now

def extendMandate (now id expiresAt : String) : Exec σ Unit := do
  write fun s => d.store.updateMandate s id { expiresAt := some expiresAt }
  record d .mandateAmended (.obj [("id", .str id), ("extendedTo", .str expiresAt)]) now

/-- `grantMandate` of `src/sdk/index.ts`, given the mandate it builds. -/
def grantMandate (now : String) (m : Mandate) : Exec σ Unit := do
  write fun s => d.store.insertMandate s m
  record d .mandateGranted (.obj [("id", .str m.id), ("label", .str m.label)]) now

/-- `revokeMandate` of `src/sdk/index.ts`. -/
def revokeMandate (now id : String) : Exec σ Unit := do
  write fun s => .ok (d.store.revokeMandate s id)
  record d .mandateRevoked (.obj [("id", .str id)]) now

def engageKillSwitch : Exec σ Unit :=
  write fun s => .ok (d.store.setMeta s killKey "1")

def disengageKillSwitch : Exec σ Unit :=
  write fun s => .ok (d.store.setMeta s killKey "0")

def resetCircuitBreaker : Exec σ Unit :=
  write fun s => .ok (d.store.setMeta s failKey "0")

end AgentWorth
