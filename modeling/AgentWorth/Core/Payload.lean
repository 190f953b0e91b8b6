import AgentWorth.Core.Types
import AgentWorth.Lib.Codec

/-!
# Records in audit payloads

The executor writes intents, verdicts and replay inputs into the `unknown`
payload of an audit entry, and replay casts them back.  One codec per record.
-/

namespace AgentWorth

open AgentWorth.Js

def railCodec : Codec RailKind :=
  Codec.literal [.onchain, .card, .checkout] RailKind.text (by intro r; cases r <;> decide)

def reversibilityCodec : Codec Reversibility :=
  Codec.literal [.reversible, .irreversible] Reversibility.text
    (by intro r; cases r <;> decide)

def attestationCodec : Codec Attestation :=
  Codec.literal [.none, .signed, .registryAttested] Attestation.text
    (by intro a; cases a <;> decide)

def reputationCodec : Codec ReputationLevel :=
  Codec.literal [.good, .neutral, .flagged, .unknown] ReputationLevel.text
    (by intro r; cases r <;> decide)

def trustCodec : Codec TrustLevel :=
  Codec.literal [.new, .seen, .trusted] TrustLevel.text (by intro t; cases t <;> decide)

def tierCodec : Codec SpendRiskTier :=
  Codec.literal [.none, .low, .medium, .high] SpendRiskTier.text
    (by intro t; cases t <;> decide)

def outcomeCodec : Codec GateOutcome :=
  Codec.literal [.autoExecute, .confirmOperator, .block] GateOutcome.text
    (by intro o; cases o <;> decide)

/-- A recorded outcome is the one it spells. -/
theorem encode_outcome_eq_iff {outcome outcome' : GateOutcome} :
    outcomeCodec.encode outcome = .str outcome'.text ↔ outcome = outcome' := by
  constructor
  · intro h
    have hdecode := outcomeCodec.decode_encode outcome
    rw [h, show JsValue.str outcome'.text = outcomeCodec.encode outcome' from rfl,
      outcomeCodec.decode_encode] at hdecode
    exact (Option.some.inj hdecode).symm
  · rintro rfl
    rfl

def intentCodec : Codec PaymentIntent where
  encode i := .obj
    [("id", .str i.id), ("payee", .str i.payee), ("payeeClass", .str i.payeeClass),
      ("amount", .num i.amount), ("currency", .str i.currency),
      ("rail", railCodec.encode i.rail), ("rationale", .str i.rationale),
      ("createdAt", .str i.createdAt)]
  decode v := do
    let id ← Codec.str.decode (v.get "id")
    let payee ← Codec.str.decode (v.get "payee")
    let payeeClass ← Codec.str.decode (v.get "payeeClass")
    let amount ← Codec.num.decode (v.get "amount")
    let currency ← Codec.str.decode (v.get "currency")
    let rail ← railCodec.decode (v.get "rail")
    let rationale ← Codec.str.decode (v.get "rationale")
    let createdAt ← Codec.str.decode (v.get "createdAt")
    return { id, payee, payeeClass, amount, currency, rail, rationale, createdAt }
  decode_encode i := by
    simp [Codec.str, Codec.num]
  encode_ne _ := JsValue.noConfusion

def spendRiskCodec : Codec SpendRisk where
  encode r := .obj
    [("tier", tierCodec.encode r.tier), ("score", Codec.int.encode r.score),
      ("reasons", (Codec.list Codec.str).encode r.reasons)]
  decode v := do
    let tier ← tierCodec.decode (v.get "tier")
    let score ← Codec.int.decode (v.get "score")
    let reasons ← (Codec.list Codec.str).decode (v.get "reasons")
    return { tier, score, reasons }
  decode_encode r := by
    simp
  encode_ne _ := JsValue.noConfusion

/-- A `Record<string, unknown>`, its members as they are. -/
def membersCodec : Codec (List (String × JsValue)) where
  encode := .obj
  decode
    | .obj members => some members
    | _ => none
  decode_encode _ := rfl
  encode_ne _ := JsValue.noConfusion

def safeFixCodec : Codec SafeFix where
  encode f := .obj
    (("code", .str f.code) :: ("message", .str f.message) ::
      membersCodec.optMember "parameters" f.parameters)
  decode v := do
    let code ← Codec.str.decode (v.get "code")
    let message ← Codec.str.decode (v.get "message")
    let parameters ← membersCodec.optional (v.get "parameters")
    return { code, message, parameters }
  decode_encode f := by
    simp [Codec.str]
  encode_ne _ := JsValue.noConfusion

/-- `string | null`. -/
def idCodec : Codec (Option String) := Codec.nullable Codec.str fun _ => JsValue.noConfusion

/-- `number | null`. -/
def budgetCodec : Codec (Option JsNumber) :=
  Codec.nullable Codec.num fun _ => JsValue.noConfusion

def decisionCodec : Codec GateDecision where
  encode d := .obj
    (("outcome", outcomeCodec.encode d.outcome) ::
      ("reasons", (Codec.list Codec.str).encode d.reasons) ::
      ("mandateId", idCodec.encode d.mandateId) ::
      ("risk", spendRiskCodec.encode d.risk) ::
      ("remainingPeriodBudget", budgetCodec.encode d.remainingPeriodBudget) ::
      safeFixCodec.optMember "suggestedFix" d.suggestedFix)
  decode v := do
    let outcome ← outcomeCodec.decode (v.get "outcome")
    let reasons ← (Codec.list Codec.str).decode (v.get "reasons")
    let mandateId ← idCodec.decode (v.get "mandateId")
    let risk ← spendRiskCodec.decode (v.get "risk")
    let remainingPeriodBudget ← budgetCodec.decode (v.get "remainingPeriodBudget")
    let suggestedFix ← safeFixCodec.optional (v.get "suggestedFix")
    return { outcome, reasons, mandateId, risk, remainingPeriodBudget, suggestedFix }
  decode_encode d := by
    simp
  encode_ne _ := JsValue.noConfusion

def priorSpendCodec : Codec PriorSpend where
  encode s := .obj [("amount", .num s.amount), ("at", .str s.at')]
  decode v := do
    let amount ← Codec.num.decode (v.get "amount")
    let at' ← Codec.str.decode (v.get "at")
    return { amount, at' }
  decode_encode s := by
    simp [Codec.str, Codec.num]
  encode_ne _ := JsValue.noConfusion

/-- The non-policy inputs of a decision, captured so that replay holds them
fixed. -/
structure ReplayInputs where
  reversibility : Option Reversibility
  attestation : Option Attestation
  reputation : Option ReputationLevel
  trust : Option TrustLevel
  /-- payees with settled history at decision time -/
  knownPayees : List String
  /-- spend of each mandate in its current period, by mandate id -/
  periodSpendByMandate : JsMap (List PriorSpend)
  /-- rates used by the decision, keyed as `FROM/TO` -/
  fxRates : Option (JsMap JsNumber)

def replayInputsCodec : Codec ReplayInputs where
  encode r := .obj
    (reversibilityCodec.optMember "reversibility" r.reversibility ++
      (trustCodec.optMember "trust" r.trust ++
        ("knownPayees", (Codec.list Codec.str).encode r.knownPayees) ::
        ("periodSpendByMandate",
          (Codec.record (Codec.list priorSpendCodec)).encode r.periodSpendByMandate) ::
        (attestationCodec.optMember "attestation" r.attestation ++
          (reputationCodec.optMember "reputation" r.reputation ++
            (Codec.record Codec.num).optMember "fxRates" r.fxRates))))
  decode v := do
    let reversibility ← reversibilityCodec.optional (v.get "reversibility")
    let attestation ← attestationCodec.optional (v.get "attestation")
    let reputation ← reputationCodec.optional (v.get "reputation")
    let trust ← trustCodec.optional (v.get "trust")
    let knownPayees ← (Codec.list Codec.str).decode (v.get "knownPayees")
    let periodSpendByMandate ←
      (Codec.record (Codec.list priorSpendCodec)).decode (v.get "periodSpendByMandate")
    let fxRates ← (Codec.record Codec.num).optional (v.get "fxRates")
    return { reversibility, attestation, reputation, trust, knownPayees,
             periodSpendByMandate, fxRates }
  decode_encode r := by
    simp
  encode_ne _ := JsValue.noConfusion

end AgentWorth
