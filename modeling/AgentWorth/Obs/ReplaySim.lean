import AgentWorth.Core.DenyList
import AgentWorth.Core.Gate
import AgentWorth.Core.Payload
import AgentWorth.Core.Store

/-!
# Replaying a log against another policy

`src/obs/replaySim.ts`: the gate is run again over the intents of the recorded
agent decisions, under candidate mandates.  The clock of a replayed decision is
the `createdAt` of its intent, there are no rates, of the known payees only the
recorded trust is left, and the spend under a mandate is what the replay itself
has executed so far.
-/

namespace AgentWorth

open AgentWorth.Js AgentWorth.Lib

/-- What the simulator reads of a decision payload. -/
structure DecisionPayload where
  outcome : GateOutcome
  intent : PaymentIntent
  reversibility : Option Reversibility
  attestation : Option Attestation
  reputation : Option ReputationLevel
  trust : Option TrustLevel

/-- `e.payload as DecisionPayload`. -/
def DecisionPayload.read (p : JsValue) : Option DecisionPayload := do
  let outcome ← outcomeCodec.decode (p.get "outcome")
  let intent ← intentCodec.decode (p.get "intent")
  -- a member of absent inputs reads as `undefined`, like one of `{}`
  let inputs := p.get "inputs"
  let reversibility ← reversibilityCodec.optional (inputs.get "reversibility")
  let attestation ← attestationCodec.optional (inputs.get "attestation")
  let reputation ← reputationCodec.optional (inputs.get "reputation")
  let trust ← trustCodec.optional (inputs.get "trust")
  return { outcome, intent, reversibility, attestation, reputation, trust }

structure ReplayCandidate where
  mandates : List Mandate
  config : Option GateConfig := none
  denyRules : Option (List DenyRule) := none

structure ReplayRecord where
  intentId : String
  original : GateOutcome
  replayed : GateOutcome
  changed : Bool
  deriving DecidableEq, Repr

structure ReplayReport where
  total : Nat
  unchanged : Nat
  changed : Nat
  records : List ReplayRecord
  deriving DecidableEq, Repr

/-- The filter of the entries: a gate decision of the agent that carries its
intent. -/
def isReplayable (e : AuditEntry) : Except String Bool :=
  if e.type ≠ .gateDecision then .ok false
  else
    match e.payload with
    | .undefined => .error "Cannot read properties of undefined (reading 'phase')"
    | .null => .error "Cannot read properties of null (reading 'phase')"
    | p =>
        .ok ((p.get "phase").strictEq (.str "agent") && !(p.get "intent").strictEq .undefined)

/-- `entries.filter(…)`. -/
def replayable : List AuditEntry → Except String (List AuditEntry)
  | [] => .ok []
  | e :: es =>
      (isReplayable e).bind fun kept =>
        (replayable es).map fun rest => if kept then e :: rest else rest

/-- The payments under a mandate since its period started, if it is among the
candidates. -/
def spendSince (mandates : List Mandate) (createdAt id : String) (payments : List PriorSpend) :
    Except String (List PriorSpend) :=
  match mandates.find? fun m => m.id == id with
  | none => .ok []
  | some m =>
      (periodStart createdAt m.period).map fun start =>
        payments.filter fun s => !strLt s.at' start

/-- The recorded trust; a record without one is of a new payee. -/
def DecisionPayload.recordedTrust (p : DecisionPayload) : TrustLevel := p.trust.getD .new

/-- The gate's context in the replay. -/
def simContext (candidate : ReplayCandidate) (settledByMandate : JsMap (List PriorSpend))
    (p : DecisionPayload) : GateContext where
  now := p.intent.createdAt
  mandates := candidate.mandates
  periodSpendByMandate id :=
    spendSince candidate.mandates p.intent.createdAt id ((settledByMandate.get id).getD [])
  knownPayees := if p.recordedTrust = .new then setOf [] else setOf [p.intent.payee]
  trustOf := some fun _ => p.recordedTrust
  convert := none
  attestation := p.attestation
  reputationOf := p.reputation.map fun reputation _ => some reputation
  denyRules := candidate.denyRules.getD defaultDenyRules
  config := candidate.config.getD defaultGateConfig
  reversibility := p.reversibility

/-- What a replayed decision adds to the spend under its mandate. -/
def settleUnder (settledByMandate : JsMap (List PriorSpend)) (intent : PaymentIntent)
    (decision : GateDecision) : JsMap (List PriorSpend) :=
  match decision.outcome, decision.mandateId with
  | .autoExecute, some id =>
      if id ≠ "" then
        settledByMandate.set id ((settledByMandate.get id).getD [] ++
          [{ amount := intent.amount, at' := intent.createdAt }])
      else settledByMandate
  | _, _ => settledByMandate

/-- What the loop carries from one decision to the next. -/
structure Replaying where
  settledByMandate : JsMap (List PriorSpend) := .empty
  records : List ReplayRecord := []

def replayRecord (p : DecisionPayload) (decision : GateDecision) : ReplayRecord where
  intentId := p.intent.id
  original := p.outcome
  replayed := decision.outcome
  changed := p.outcome != decision.outcome

/-- The body of the loop. -/
def replayEntry (candidate : ReplayCandidate) (st : Replaying) (e : AuditEntry) :
    Except String Replaying :=
  match DecisionPayload.read e.payload with
  | none => .error "ill-typed decision"
  | some p =>
      (evaluateGate p.intent (simContext candidate st.settledByMandate p)).map fun decision =>
        { settledByMandate := settleUnder st.settledByMandate p.intent decision
          records := st.records ++ [replayRecord p decision] }

/-- The loop over the entries that pass the filter. -/
def replayEntries (candidate : ReplayCandidate) (entries : List AuditEntry) :
    Except String Replaying :=
  (replayable entries).bind fun decisions => decisions.foldlM (replayEntry candidate) {}

def ReplayReport.ofRecords (records : List ReplayRecord) : ReplayReport :=
  let changed := (records.filter ReplayRecord.changed).length
  { total := records.length, unchanged := records.length - changed, changed, records }

def replayAudit (entries : List AuditEntry) (candidate : ReplayCandidate) :
    Except String ReplayReport :=
  (replayEntries candidate entries).map fun st => .ofRecords st.records

end AgentWorth
