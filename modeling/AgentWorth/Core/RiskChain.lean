import AgentWorth.Core.Audit
import AgentWorth.Core.Types
import AgentWorth.Lib.Timestamp

/-!
# Risk chains

`src/core/riskChain.ts`: patterns over recent audit entries (smurfing,
cross-rail splitting, probing, drain after grant) that escalate a payment the
gate would execute.  Payloads are untyped, so every field is read as a value.
-/

namespace AgentWorth

open AgentWorth.Js

inductive RiskChainType where
  | none
  | smurfing
  | probing
  | splitting
  | drainAfterGrant
  deriving DecidableEq, Repr

def RiskChainType.text : RiskChainType → String
  | .none => "NONE"
  | .smurfing => "SMURFING"
  | .probing => "PROBING"
  | .splitting => "SPLITTING"
  | .drainAfterGrant => "DRAIN_AFTER_GRANT"

structure RiskChainAlert where
  triggered : Bool
  type : RiskChainType
  reason : Option String

/-- The options of `evaluateRiskChain` with the defaults it gives them. -/
structure RiskChainOptions where
  isStreaming : Bool := false
  windowMinutes : JsNumber := 15
  now : Option String := none
  drainFraction : JsNumber := .fin (4 / 5)
  drainAfterGrantMinutes : JsNumber := 60

def noAlert : RiskChainAlert := { triggered := false, type := .none, reason := none }

/-- Start of the detection window in milliseconds. -/
def riskWindowStart (intent : PaymentIntent) (opts : RiskChainOptions) : JsNumber :=
  Date.getTime (opts.now.getD intent.createdAt) - opts.windowMinutes * 60 * 1000

/-- A decision payload that carries its intent. -/
def carriesIntent (p : JsValue) : Bool := p.isObject && (p.get "intent").truthy

/-- Payloads of the gate decisions in the window. -/
def recentDecisions (entries : List AuditEntry) (startMs : JsNumber) : List JsValue :=
  ((entries.filter fun e =>
    e.type == .gateDecision && decide (startMs ≤ Date.getTime e.ts)).map
      AuditEntry.payload).filter carriesIntent

/-- Auto-executed decisions for the payee of the intent. -/
def samePayeeAuto (intent : PaymentIntent) (recent : List JsValue) : List JsValue :=
  recent.filter fun d =>
    ((d.get "intent").get "payee").strictEq (.str intent.payee) &&
      (d.get "outcome").strictEq (.str GateOutcome.autoExecute.text)

/-- Sum of the amounts of earlier decisions and of the intent. -/
def totalAmount (intent : PaymentIntent) (ds : List JsValue) : JsNumber :=
  JsNumber.sum (ds.map fun d => ((d.get "intent").get "amount").toNumber) + intent.amount

def smurfingAlert (intent : PaymentIntent) (recent : List JsValue)
    (opts : RiskChainOptions) : Option RiskChainAlert :=
  let same := samePayeeAuto intent recent
  if opts.isStreaming = false ∧ same.length ≥ 3 then
    some
      { triggered := true
        type := .smurfing
        reason := some ("Smurfing/Slicing alert: " ++ toString (same.length + 1) ++
          " auto-executed payments to \"" ++ intent.payee ++ "\" within " ++
          toString opts.windowMinutes ++ "m, totaling " ++
          toString (totalAmount intent same) ++ " minor-units.") }
  else none

def splittingAlert (intent : PaymentIntent) (recent : List JsValue)
    (opts : RiskChainOptions) : Option RiskChainAlert :=
  let same := samePayeeAuto intent recent
  let rails := JsValue.distinctCount
    (same.map (fun d => (d.get "intent").get "rail") ++ [.str intent.rail.text])
  if opts.isStreaming = false ∧ same.length ≥ 2 ∧ rails ≥ 2 then
    some
      { triggered := true
        type := .splitting
        reason := some ("Cross-rail splitting alert: payments to \"" ++ intent.payee ++
          "\" spread across " ++ toString rails ++ " rails within " ++
          toString opts.windowMinutes ++ "m, totaling " ++
          toString (totalAmount intent same) ++ " minor-units.") }
  else none

def probingAlert (intent : PaymentIntent) (recent : List JsValue)
    (opts : RiskChainOptions) : Option RiskChainAlert :=
  let nonAllowed := recent.filter fun d =>
    (d.get "outcome").strictEq (.str GateOutcome.block.text) ||
      (d.get "outcome").strictEq (.str GateOutcome.confirmOperator.text)
  let payees := JsValue.distinctCount
    (nonAllowed.map (fun d => (d.get "intent").get "payee") ++ [.str intent.payee])
  if nonAllowed.length ≥ 4 ∧ payees ≥ 2 then
    some
      { triggered := true
        type := .probing
        reason := some ("Probing/Scan alert: " ++ toString nonAllowed.length ++
          " blocked or pending payment intents across " ++ toString payees ++
          " distinct payees within " ++ toString opts.windowMinutes ++ "m.") }
  else none

/-- `latestGrantTsBefore`: the last grant of the mandate at or before a time. -/
def latestGrantTsBefore (entries : List AuditEntry) (mandateId : JsValue)
    (beforeMs : JsNumber) : Option JsNumber :=
  entries.foldl (fun latest e =>
    let t := Date.getTime e.ts
    if e.type = .mandateGranted ∧ e.payload.truthy ∧
        (e.payload.get "id").strictEq mandateId ∧ t ≤ beforeMs ∧
        (latest.elim true fun l => decide (l < t))
    then some t else latest) none

/-- Whether one decision drained its mandate soon after the grant. -/
def drainOf (entries : List AuditEntry) (startMs : JsNumber) (opts : RiskChainOptions)
    (e : AuditEntry) : Option RiskChainAlert :=
  let tMs := Date.getTime e.ts
  let p := e.payload
  let mandateId := p.get "mandateId"
  if e.type ≠ .gateDecision ∨ tMs < startMs ∨ carriesIntent p = false ∨
      mandateId.truthy = false then none
  else
    match (p.get "verdict").get "remainingPeriodBudget" with
    | .num remaining =>
        let amount := ((p.get "intent").get "amount").toNumber
        let budgetBefore := amount + remaining
        let fraction := amount / budgetBefore
        if budgetBefore ≤ 0 ∨ fraction < opts.drainFraction then none
        else
          match latestGrantTsBefore entries mandateId tMs with
          | none => none
          | some grantTs =>
              if opts.drainAfterGrantMinutes * 60 * 1000 < tMs - grantTs then none
              else
                some
                  { triggered := true
                    type := .drainAfterGrant
                    reason := some ("Drain-after-grant alert: payment of " ++
                      toString amount ++ " minor-units consumed " ++
                      toString (fraction * 100).round ++ "% of mandate \"" ++
                      mandateId.toText ++ "\"'s available period budget " ++
                      toString ((tMs - grantTs) / 60000).round ++
                      "m after it was granted.") }
    | _ => none

def evaluateRiskChain (intent : PaymentIntent) (entries : List AuditEntry)
    (opts : RiskChainOptions) : RiskChainAlert :=
  let startMs := riskWindowStart intent opts
  let recent := recentDecisions entries startMs
  match smurfingAlert intent recent opts with
  | some alert => alert
  | none =>
      match splittingAlert intent recent opts with
      | some alert => alert
      | none =>
          match probingAlert intent recent opts with
          | some alert => alert
          | none => (entries.findSome? (drainOf entries startMs opts)).getD noAlert

end AgentWorth
