import AgentWorth.Lib.Value

/-!
# Domain types

`src/core/types.ts`: money, mandates, intents, receipts, gate decisions and the
context the gate decides in.  Amounts are `number` in the source and stay
numbers here; timestamps are the ISO strings the clock returns.
-/

namespace AgentWorth

open AgentWorth.Js

inductive RailKind where
  | onchain
  | card
  | checkout
  deriving DecidableEq, Repr

/-- Whether a settled payment can be clawed back. -/
inductive Reversibility where
  | reversible
  | irreversible
  deriving DecidableEq, Repr

/-- `RAIL_REVERSIBILITY`. -/
def railReversibility : RailKind → Reversibility
  | .card => .reversible
  | .checkout => .reversible
  | .onchain => .irreversible

/-- Who a mandate is allowed to pay. -/
inductive PayeeScope where
  | class (value : String)
  | allowlist (values : List String)
  deriving DecidableEq, Repr

inductive Period where
  | day
  | week
  | month
  deriving DecidableEq, Repr

inductive MandateStatus where
  | active
  | revoked
  deriving DecidableEq, Repr

/-- Operator-granted, scoped, capped, expiring, revocable spend authority. -/
structure Mandate where
  id : String
  label : String
  scope : PayeeScope
  currency : String
  allowedRails : List RailKind
  perTxCap : JsNumber
  perPeriodCap : JsNumber
  period : Period
  grantedAt : String
  expiresAt : String
  status : MandateStatus
  deriving DecidableEq, Repr

/-- A concrete payment the agent wants to make. -/
structure PaymentIntent where
  id : String
  payee : String
  payeeClass : String
  amount : JsNumber
  currency : String
  rail : RailKind
  rationale : String
  createdAt : String
  deriving DecidableEq, Repr

/-- How strongly the acting agent's identity is established. -/
inductive Attestation where
  | none
  | signed
  | registryAttested
  deriving DecidableEq, Repr

/-- A payee's standing with an injected network reputation source. -/
inductive ReputationLevel where
  | good
  | neutral
  | flagged
  | unknown
  deriving DecidableEq, Repr

/-- `src/core/trust.ts`: earned by clean settlements. -/
inductive TrustLevel where
  | new
  | seen
  | trusted
  deriving DecidableEq, Repr

inductive SpendRiskTier where
  | none
  | low
  | medium
  | high
  deriving DecidableEq, Repr

structure SpendRisk where
  tier : SpendRiskTier
  score : Int
  reasons : List String
  deriving DecidableEq, Repr

inductive SettlementFinality where
  | final
  | reversible
  | pending
  deriving DecidableEq, Repr

/-- Proof of a settled payment, returned by a rail. -/
structure Receipt where
  id : String
  intentId : String
  rail : RailKind
  amount : JsNumber
  currency : String
  settledAt : String
  providerRef : String
  finality : SettlementFinality
  /-- the provider that issued this receipt; absent on old receipts -/
  providerId : Option String
  deriving DecidableEq, Repr

inductive GateOutcome where
  | autoExecute
  | confirmOperator
  | block
  deriving DecidableEq, Repr

structure SafeFix where
  code : String
  message : String
  parameters : Option (List (String × JsValue))

structure GateDecision where
  outcome : GateOutcome
  reasons : List String
  /-- the mandate that authorized it, if any -/
  mandateId : Option String
  risk : SpendRisk
  /-- period budget left after this payment, if a mandate matched -/
  remainingPeriodBudget : Option JsNumber
  suggestedFix : Option SafeFix

structure GateConfig where
  minRationaleChars : JsNumber
  velocityWindowMinutes : JsNumber
  velocityMaxCount : JsNumber
  anomalyMultiple : JsNumber
  deriving DecidableEq, Repr

/-- `DEFAULT_GATE_CONFIG`. -/
def defaultGateConfig : GateConfig where
  minRationaleChars := 10
  velocityWindowMinutes := 60
  velocityMaxCount := 5
  anomalyMultiple := 3

/-- A prior executed payment in the current period. -/
structure PriorSpend where
  amount : JsNumber
  at' : String
  deriving DecidableEq, Repr

/-- A `ReadonlySet<string>`, observed through `has`. -/
abbrev StringSet := String → Bool

/-- `new Set(values)`. -/
def setOf (values : List String) : StringSet := fun s => values.contains s

/-- What a deny rule sees besides the intent. -/
structure DenyContext where
  knownPayees : StringSet
  reversibility : Reversibility

/-- A hard deny rule; `match'` reads the structured intent only. -/
structure DenyRule where
  id : String
  reason : String
  match' : PaymentIntent → DenyContext → Bool

/-- The conversion the gate is given for foreign-currency amounts. -/
abbrev Convert := JsNumber → String → String → Option JsNumber

/-- Everything the pure gate needs to decide.  The period-spend lookup can
throw, because the store computes a period start from `now`. -/
structure GateContext where
  now : String
  mandates : List Mandate
  periodSpendByMandate : String → Except String (List PriorSpend)
  knownPayees : StringSet
  trustOf : Option (String → TrustLevel)
  convert : Option Convert
  attestation : Option Attestation
  reputationOf : Option (String → Option ReputationLevel)
  denyRules : List DenyRule
  config : GateConfig
  reversibility : Option Reversibility

/-! ## Spellings

The literals of the source's string unions, as audit payloads carry them. -/

def RailKind.text : RailKind → String
  | .onchain => "onchain"
  | .card => "card"
  | .checkout => "checkout"

def Reversibility.text : Reversibility → String
  | .reversible => "reversible"
  | .irreversible => "irreversible"

def Period.text : Period → String
  | .day => "day"
  | .week => "week"
  | .month => "month"

def MandateStatus.text : MandateStatus → String
  | .active => "active"
  | .revoked => "revoked"

def Attestation.text : Attestation → String
  | .none => "none"
  | .signed => "signed"
  | .registryAttested => "registry_attested"

def ReputationLevel.text : ReputationLevel → String
  | .good => "good"
  | .neutral => "neutral"
  | .flagged => "flagged"
  | .unknown => "unknown"

def TrustLevel.text : TrustLevel → String
  | .new => "new"
  | .seen => "seen"
  | .trusted => "trusted"

def SpendRiskTier.text : SpendRiskTier → String
  | .none => "none"
  | .low => "low"
  | .medium => "medium"
  | .high => "high"

def GateOutcome.text : GateOutcome → String
  | .autoExecute => "auto_execute"
  | .confirmOperator => "confirm_operator"
  | .block => "block"

end AgentWorth
