import AgentWorth.Core.Types

/-!
# Trust and spend risk

`src/core/trust.ts` and `src/core/risk.ts`.  The classifier adds up signed
signals, each with its reason; the gate decides what to do with the tier.
-/

namespace AgentWorth

open AgentWorth.Js

/-- `TRUSTED_AT`: clean settlements before a payee is trusted. -/
def trustedAt : Nat := 3

def payeeTrust (settledCount : Nat) : TrustLevel :=
  if settledCount ≥ trustedAt then .trusted
  else if settledCount ≥ 1 then .seen else .new

/-- Insertion under the comparator `a - b`. -/
def insertNumber (x : JsNumber) : List JsNumber → List JsNumber
  | [] => [x]
  | y :: ys => if y < x then y :: insertNumber x ys else x :: y :: ys

def sortNumbers : List JsNumber → List JsNumber
  | [] => []
  | x :: xs => insertNumber x (sortNumbers xs)

def median (values : List JsNumber) : JsNumber :=
  let sorted := sortNumbers values
  let mid := sorted.length / 2
  if values = [] then 0
  else if sorted.length % 2 = 0 then
    ((sorted.getD (mid - 1) 0 + sorted.getD mid 0) / 2).round
  else sorted.getD mid 0

/-- What the classifier scores besides the intent. -/
structure RiskContext where
  trust : TrustLevel
  periodSpend : List PriorSpend
  config : GateConfig
  reversibility : Reversibility
  attestation : Option Attestation
  reputation : Option ReputationLevel

/-- A contribution to the score and the reason given for it. -/
abbrev RiskSignal := Int × String

/-- Payee network reputation: flagged is riskier, good is less. -/
def reputationSignal : Option ReputationLevel → List RiskSignal
  | some .flagged => [(2, "payee is flagged in network reputation")]
  | some .good => [(-1, "payee has good network reputation")]
  | _ => []

/-- Agent identity; not evaluated means no effect. -/
def attestationSignal : Option Attestation → List RiskSignal
  | some .none => [(1, "acting agent identity is unverified")]
  | some .registryAttested => [(-1, "acting agent is registry-attested")]
  | _ => []

def trustSignal : TrustLevel → List RiskSignal
  | .new => [(2, "payee has no prior history")]
  | .trusted => [(-1, "trusted payee")]
  | .seen => []

/-- The payment against the period's median payment. -/
def anomalySignal (amount : JsNumber) (periodSpend : List PriorSpend)
    (config : GateConfig) : List RiskSignal :=
  let baseline := median (periodSpend.map PriorSpend.amount)
  if 0 < baseline ∧ baseline * config.anomalyMultiple < amount then
    [(2, "amount is " ++ toString config.anomalyMultiple ++
      "x above the period median (" ++ toString baseline ++ " minor-units)")]
  else []

def noveltySignal (reversibility : Reversibility) (trust : TrustLevel) : List RiskSignal :=
  if reversibility = .irreversible ∧ trust = .new then
    [(1, "irreversible settlement to a novel payee")]
  else []

def riskSignals (intent : PaymentIntent) (ctx : RiskContext) : List RiskSignal :=
  reputationSignal ctx.reputation ++ (attestationSignal ctx.attestation ++
    (trustSignal ctx.trust ++ (anomalySignal intent.amount ctx.periodSpend ctx.config ++
      noveltySignal ctx.reversibility ctx.trust)))

def riskTier (score : Int) : SpendRiskTier :=
  if score ≥ 4 then .high
  else if score ≥ 2 then .medium
  else if score ≥ 1 then .low else .none

def classifySpendRisk (intent : PaymentIntent) (ctx : RiskContext) : SpendRisk :=
  let signals := riskSignals intent ctx
  let score := (signals.map Prod.fst).sum
  { tier := riskTier score, score := score, reasons := signals.map Prod.snd }

/-- What an attestation contributes to the score. -/
def attestationScore (attestation : Option Attestation) : Int :=
  ((attestationSignal attestation).map Prod.fst).sum

/-- The score separates into the attestation's part and a part that does not
read it. -/
theorem classifySpendRisk_score (intent : PaymentIntent) (ctx : RiskContext) :
    (classifySpendRisk intent ctx).score =
      attestationScore ctx.attestation +
        (classifySpendRisk intent { ctx with attestation := none }).score := by
  simp only [classifySpendRisk, riskSignals, attestationScore, List.map_append,
    List.sum_append, attestationSignal, List.map_nil, List.sum_nil]
  omega

theorem riskTier_high_iff (score : Int) : riskTier score = .high ↔ 4 ≤ score := by
  unfold riskTier
  split
  · simp_all
  · split
    · simp_all
    · split <;> simp_all

theorem classifySpendRisk_tier (intent : PaymentIntent) (ctx : RiskContext) :
    (classifySpendRisk intent ctx).tier = riskTier (classifySpendRisk intent ctx).score :=
  rfl

end AgentWorth
