import AgentWorth.Core.Audit
import AgentWorth.Core.Fx
import AgentWorth.Core.Gate
import AgentWorth.Core.Payload

/-!
# Proof of enforcement

`src/core/enforcement.ts`: the policy a decision ran under, its hash, and the
replay of a recorded decision from its captured inputs.
-/

namespace AgentWorth

open AgentWorth.Js

/-- The risk-relevant part of the gate configuration. -/
structure RiskConfig where
  velocityWindowMinutes : JsNumber
  velocityMaxCount : JsNumber
  anomalyMultiple : JsNumber
  deriving DecidableEq

/-- The governing policy, its lists in normal order. -/
structure EffectivePolicy where
  mandates : List Mandate
  gateConfig : GateConfig
  denyRuleIds : List String
  riskConfig : RiskConfig

def effectivePolicy (mandates : List Mandate) (config : GateConfig)
    (denyRules : List DenyRule) : EffectivePolicy where
  mandates := sortByKey Mandate.id mandates
  gateConfig := config
  denyRuleIds := sortByKey id (denyRules.map DenyRule.id)
  riskConfig :=
    { velocityWindowMinutes := config.velocityWindowMinutes
      velocityMaxCount := config.velocityMaxCount
      anomalyMultiple := config.anomalyMultiple }

def scopeValue : PayeeScope → JsValue
  | .class value => .obj [("kind", .str "class"), ("value", .str value)]
  | .allowlist values => .obj [("kind", .str "allowlist"), ("values", .ofStrings values)]

/-- The fields of a mandate that the hash commits to. -/
def mandateValue (m : Mandate) : JsValue :=
  .obj
    [("id", .str m.id), ("scope", scopeValue m.scope), ("currency", .str m.currency),
      ("allowedRails", .ofStrings (sortByKey id (m.allowedRails.map RailKind.text))),
      ("perTxCap", .num m.perTxCap), ("perPeriodCap", .num m.perPeriodCap),
      ("period", .str m.period.text), ("expiresAt", .str m.expiresAt),
      ("status", .str m.status.text)]

/-- The object `computePolicyHash` serializes. -/
def normalizedPolicy (policy : EffectivePolicy) : JsValue :=
  .obj
    [("mandates", .arr ((sortByKey Mandate.id policy.mandates).map mandateValue)),
      ("gateConfig", .obj
        [("minRationaleChars", .num policy.gateConfig.minRationaleChars),
          ("velocityWindowMinutes", .num policy.gateConfig.velocityWindowMinutes),
          ("velocityMaxCount", .num policy.gateConfig.velocityMaxCount),
          ("anomalyMultiple", .num policy.gateConfig.anomalyMultiple)]),
      ("denyRuleIds", .ofStrings (sortByKey id policy.denyRuleIds)),
      ("riskConfig", .obj
        [("velocityWindowMinutes", .num policy.riskConfig.velocityWindowMinutes),
          ("velocityMaxCount", .num policy.riskConfig.velocityMaxCount),
          ("anomalyMultiple", .num policy.riskConfig.anomalyMultiple)])]

def computePolicyHash (crypto : Crypto) (policy : EffectivePolicy) : String :=
  crypto.sha256 (crypto.jcs (normalizedPolicy policy))

/-- Commitment to the captured inputs of one decision. -/
def computeContextDigest (crypto : Crypto) (inputs : JsValue) : String :=
  crypto.sha256 (crypto.jcs inputs)

/-- One recorded decision with everything replay needs. -/
structure DecisionRecord where
  intent : PaymentIntent
  ctxDigest : String
  verdict : GateDecision
  policyHash : String
  at' : String
  inputs : ReplayInputs

def decisionRecordFromAuditEntry (crypto : Crypto) (entry : AuditEntry) :
    Option DecisionRecord :=
  let payload := entry.payload
  if entry.type ≠ .gateDecision ∨ payload.isObject = false then none
  else if (payload.get "phase").strictEq (.str "agent") = false ∨
      (payload.get "intent").truthy = false ∨ (payload.get "verdict").truthy = false ∨
      (payload.get "policyHash").truthy = false ∨ (payload.get "inputs").truthy = false then
    none
  else do
    let intent ← intentCodec.decode (payload.get "intent")
    let verdict ← decisionCodec.decode (payload.get "verdict")
    let policyHash ← Codec.str.decode (payload.get "policyHash")
    let inputs ← replayInputsCodec.decode (payload.get "inputs")
    let ctxDigest ← Codec.str.optional (payload.get "ctxDigest")
    return {
      intent
      verdict
      policyHash
      at' := entry.ts
      inputs
      ctxDigest := ctxDigest.getD (computeContextDigest crypto (payload.get "inputs")) }

/-- The conversion replay uses: the captured rate, without token decimals. -/
def replayConvert (rates : JsMap JsNumber) : Convert := fun amount source target =>
  (rates.get (source ++ "/" ++ target)).map fun rate =>
    convertMinorCrossDecimal amount rate source target none

/-- The gate context rebuilt from a record and a disclosed policy. -/
def replayContext (record : DecisionRecord) (policy : EffectivePolicy)
    (policyDenyRules : List DenyRule) : GateContext where
  now := record.at'
  mandates := policy.mandates
  periodSpendByMandate id := .ok ((record.inputs.periodSpendByMandate.get id).getD [])
  knownPayees := setOf record.inputs.knownPayees
  trustOf := record.inputs.trust.map fun trust _ => trust
  convert := record.inputs.fxRates.map replayConvert
  attestation := record.inputs.attestation
  reputationOf := record.inputs.reputation.map fun reputation _ => some reputation
  denyRules := policyDenyRules
  config := policy.gateConfig
  reversibility := record.inputs.reversibility

/-- `a === b` on a budget or `null`. -/
def budgetEq : Option JsNumber → Option JsNumber → Bool
  | none, none => true
  | some a, some b => a.strictEq b
  | _, _ => false

/-- Outcome, mandate, risk tier and remaining budget; reasons are not part of
the claim. -/
def verdictsEqual (a b : GateDecision) : Bool :=
  a.outcome == b.outcome && a.mandateId == b.mandateId && a.risk.tier == b.risk.tier &&
    budgetEq a.remainingPeriodBudget b.remainingPeriodBudget

/-- Re-run the gate and compare with the signed verdict. -/
def replayDecision (record : DecisionRecord) (policy : EffectivePolicy)
    (policyDenyRules : List DenyRule) : Except String (Bool × GateDecision) :=
  (evaluateGate record.intent (replayContext record policy policyDenyRules)).map
    fun recomputed => (verdictsEqual recomputed record.verdict, recomputed)

end AgentWorth
