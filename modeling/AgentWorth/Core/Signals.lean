import AgentWorth.Core.Gate

/-!
# What the trust signals can change

The gate reads three signals about who pays whom: the trust the payee has
earned, the attestation of the acting agent and the payee's network reputation.
They reach the decision through the score and the novelty rule only, so they
move it between executing and asking the operator and nowhere else, and a
better signal never moves it towards the operator.
-/

namespace AgentWorth

open AgentWorth.Js AgentWorth.Lib

/-! ## Orders -/

/-- `auto_execute` < `confirm_operator` < `block`. -/
def GateOutcome.restrictiveness : GateOutcome → Nat
  | .autoExecute => 0
  | .confirmOperator => 1
  | .block => 2

/-- `new` < `seen` < `trusted`. -/
def TrustLevel.rank : TrustLevel → Nat
  | .new => 0
  | .seen => 1
  | .trusted => 2

/-- `none` < not evaluated = `signed` < `registry_attested`. -/
def attestationRank : Option Attestation → Nat
  | some .none => 0
  | some .registryAttested => 2
  | _ => 1

/-- `flagged` < `neutral` = `unknown` = not evaluated < `good`. -/
def reputationRank : Option ReputationLevel → Nat
  | some .flagged => 0
  | some .good => 2
  | _ => 1

/-- The signals of a context whose `trustOf` is given. -/
structure Signals where
  trustOf : String → TrustLevel
  attestation : Option Attestation
  reputationOf : Option (String → Option ReputationLevel)

def Signals.reputation (s : Signals) (payee : String) : Option ReputationLevel :=
  s.reputationOf.bind fun reputationOf => reputationOf payee

/-- `s'` is at least as good about the payee as `s`. -/
structure Signals.Improves (s s' : Signals) (payee : String) : Prop where
  trust : (s.trustOf payee).rank ≤ (s'.trustOf payee).rank
  attestation : attestationRank s.attestation ≤ attestationRank s'.attestation
  reputation : reputationRank (s.reputation payee) ≤ reputationRank (s'.reputation payee)

def GateContext.withSignals (ctx : GateContext) (s : Signals) : GateContext :=
  { ctx with
    trustOf := some s.trustOf
    attestation := s.attestation
    reputationOf := s.reputationOf }

/-! ## The score -/

def signalTotal (signals : List RiskSignal) : Int := (signals.map Prod.fst).sum

theorem signalTotal_append (xs ys : List RiskSignal) :
    signalTotal (xs ++ ys) = signalTotal xs + signalTotal ys := by
  simp only [signalTotal, List.map_append, List.sum_append]

theorem classifySpendRisk_score_eq (intent : PaymentIntent) (ctx : RiskContext) :
    (classifySpendRisk intent ctx).score =
      signalTotal (reputationSignal ctx.reputation) +
        (signalTotal (attestationSignal ctx.attestation) +
          (signalTotal (trustSignal ctx.trust) +
            (signalTotal (anomalySignal intent.amount ctx.periodSpend ctx.config) +
              signalTotal (noveltySignal ctx.reversibility ctx.trust)))) := by
  simp only [← signalTotal_append]
  rfl

theorem reputation_antitone {r r' : Option ReputationLevel}
    (h : reputationRank r ≤ reputationRank r') :
    signalTotal (reputationSignal r') ≤ signalTotal (reputationSignal r) := by
  rcases r with _ | (_ | _ | _ | _) <;> rcases r' with _ | (_ | _ | _ | _) <;>
    first | decide | exact absurd h (by decide)

theorem attestation_antitone {a a' : Option Attestation}
    (h : attestationRank a ≤ attestationRank a') :
    signalTotal (attestationSignal a') ≤ signalTotal (attestationSignal a) := by
  rcases a with _ | (_ | _ | _) <;> rcases a' with _ | (_ | _ | _) <;>
    first | decide | exact absurd h (by decide)

theorem trust_antitone {t t' : TrustLevel} (h : t.rank ≤ t'.rank)
    (reversibility : Reversibility) :
    signalTotal (trustSignal t') + signalTotal (noveltySignal reversibility t') ≤
      signalTotal (trustSignal t) + signalTotal (noveltySignal reversibility t) := by
  cases t <;> cases t' <;> cases reversibility <;> first | decide | exact absurd h (by decide)

/-- Better signals never raise the score. -/
theorem classifySpendRisk_antitone {intent : PaymentIntent} {ctx ctx' : RiskContext}
    (hspend : ctx'.periodSpend = ctx.periodSpend) (hconfig : ctx'.config = ctx.config)
    (hreversibility : ctx'.reversibility = ctx.reversibility)
    (htrust : ctx.trust.rank ≤ ctx'.trust.rank)
    (hattestation : attestationRank ctx.attestation ≤ attestationRank ctx'.attestation)
    (hreputation : reputationRank ctx.reputation ≤ reputationRank ctx'.reputation) :
    (classifySpendRisk intent ctx').score ≤ (classifySpendRisk intent ctx).score := by
  have hr := reputation_antitone hreputation
  have ha := attestation_antitone hattestation
  have ht := trust_antitone htrust ctx.reversibility
  rw [classifySpendRisk_score_eq, classifySpendRisk_score_eq, hspend, hconfig, hreversibility]
  omega

/-! ## Two contexts that differ in what is scored -/

/-- `ctx'` has the gate read the same facts as `ctx` but for the signals. -/
structure SameFacts (intent : PaymentIntent) (ctx ctx' : GateContext) : Prop where
  floored : Floored intent ctx' ↔ Floored intent ctx
  mandate : selectMandate intent ctx' = selectMandate intent ctx
  spend : ctx'.periodSpendByMandate = ctx.periodSpendByMandate
  amount : ∀ mandate, amountInMandate intent ctx' mandate = amountInMandate intent ctx mandate
  window : velocityWindowStart ctx' = velocityWindowStart ctx

/-- `ctx'` gives the operator no less reason to be asked than `ctx` does. -/
def Warier (intent : PaymentIntent) (ctx ctx' : GateContext) : Prop :=
  ∀ periodSpend windowStart, elevatedReasons intent ctx' periodSpend windowStart = [] →
    elevatedReasons intent ctx periodSpend windowStart = []

theorem remainingBudget_congr {intent : PaymentIntent} {ctx ctx' : GateContext}
    {mandate : Mandate} {periodSpend : List PriorSpend} (h : SameFacts intent ctx ctx') :
    remainingBudget intent ctx' mandate periodSpend =
      remainingBudget intent ctx mandate periodSpend := by
  simp only [remainingBudget, h.amount]

theorem overCap_congr {intent : PaymentIntent} {ctx ctx' : GateContext} {mandate : Mandate}
    {periodSpend : List PriorSpend} (h : SameFacts intent ctx ctx') :
    OverCap intent ctx' mandate periodSpend ↔ OverCap intent ctx mandate periodSpend := by
  rw [OverCap, OverCap, remainingBudget_congr h, h.amount]

/-- What two decisions share when only the signals differ. -/
structure SameFloor (decision decision' : GateDecision) : Prop where
  block : decision.outcome = .block ↔ decision'.outcome = .block
  mandateId : decision.mandateId = decision'.mandateId
  remaining : decision.remainingPeriodBudget = decision'.remainingPeriodBudget

theorem sameFloor_of_verdicts {decision decision' : GateDecision} {outcome outcome' : GateOutcome}
    {id : Option String} {tier tier' : SpendRiskTier} {remaining : Option JsNumber}
    (hv : decision.verdict = ⟨outcome, id, tier, remaining⟩)
    (hv' : decision'.verdict = ⟨outcome', id, tier', remaining⟩)
    (hblock : outcome = .block ↔ outcome' = .block) : SameFloor decision decision' := by
  simp only [GateDecision.verdict, Verdict.mk.injEq] at hv hv'
  obtain ⟨hout, hid, -, hrem⟩ := hv
  obtain ⟨hout', hid', -, hrem'⟩ := hv'
  constructor
  case block => rw [hout, hout', hblock]
  case mandateId => rw [hid, hid']
  case remaining => rw [hrem, hrem']

theorem outcome_of_verdict {decision : GateDecision} {v : Verdict}
    (hv : decision.verdict = v) : decision.outcome = v.outcome :=
  congrArg Verdict.outcome hv

/-- **The signals move a decision between executing and asking, and nowhere
else.** -/
theorem evaluateGate_signals {intent : PaymentIntent} {ctx ctx' : GateContext}
    {decision : GateDecision} (h : SameFacts intent ctx ctx')
    (hgate : evaluateGate intent ctx = .ok decision) :
    ∃ decision', evaluateGate intent ctx' = .ok decision' ∧ SameFloor decision decision' ∧
      (Warier intent ctx ctx' →
        decision.outcome.restrictiveness ≤ decision'.outcome.restrictiveness) := by
  rcases evaluateGate_cases hgate with ⟨hfloor, hv⟩ | ⟨hfloor, hnone, hv⟩ |
    ⟨hfloor, mandate, spend, hselect, hspend, hunder⟩
  · obtain ⟨decision', hgate', hv'⟩ := evaluateGate_floored (h.floored.2 hfloor)
    refine ⟨decision', hgate', sameFloor_of_verdicts hv hv' Iff.rfl, fun _ => ?_⟩
    rw [outcome_of_verdict hv, outcome_of_verdict hv']
  all_goals
    rcases evaluateGate_unfloored (fun hf => hfloor (h.floored.1 hf)) with
      ⟨hnone', decision', hgate', hv'⟩ | ⟨mandate', hselect', heq'⟩
  · refine ⟨decision', hgate', sameFloor_of_verdicts hv hv' Iff.rfl, fun _ => ?_⟩
    rw [outcome_of_verdict hv, outcome_of_verdict hv']
  · rw [h.mandate, hnone] at hselect'
    cases hselect'
  · rw [h.mandate, hselect] at hnone'
    cases hnone'
  · rw [h.mandate, hselect] at hselect'
    cases hselect'
    rw [h.spend, hspend] at heq'
    rcases evaluateUnderMandate_cases hunder with ⟨hover, hv⟩ | ⟨hwithin, windowStart, hwindow, hv⟩
    · obtain ⟨decision', hunder', hv'⟩ := evaluateUnderMandate_overCap ((overCap_congr h).2 hover)
      refine ⟨decision', heq'.trans hunder', sameFloor_of_verdicts hv hv' Iff.rfl, fun _ => ?_⟩
      rw [outcome_of_verdict hv, outcome_of_verdict hv']
    · obtain ⟨decision', hunder', hv'⟩ := evaluateUnderMandate_within
        (fun hover => hwithin ((overCap_congr h).1 hover)) (h.window.trans hwindow)
      rw [remainingBudget_congr h] at hv'
      refine ⟨decision', heq'.trans hunder', sameFloor_of_verdicts hv hv' ?_, fun hwarier => ?_⟩
      · constructor <;> intro hblock <;> split at hblock <;> cases hblock
      · rw [outcome_of_verdict hv, outcome_of_verdict hv']
        by_cases hcalm' : elevatedReasons intent ctx' spend windowStart = []
        · simp only [hcalm', hwarier spend windowStart hcalm', if_true, le_refl]
        · simp only [if_neg hcalm']
          split
          · exact Nat.zero_le 1
          · exact Nat.le_refl 1

/-! ## The three signals -/

theorem sameFacts_withSignals (intent : PaymentIntent) (ctx : GateContext) (s s' : Signals) :
    SameFacts intent (ctx.withSignals s) (ctx.withSignals s') where
  floored := Iff.rfl
  mandate := rfl
  spend := rfl
  amount := fun _ => rfl
  window := rfl

/-- The operator is asked for no more reasons when nothing new is, and the score
is no higher. -/
theorem warier_of_score {intent : PaymentIntent} {ctx ctx' : GateContext}
    (hconfig : ctx'.config = ctx.config)
    (htrust : gateTrust intent ctx = .new → gateTrust intent ctx' = .new)
    (hscore : ∀ periodSpend, (gateRisk intent ctx periodSpend).score ≤
      (gateRisk intent ctx' periodSpend).score) : Warier intent ctx ctx' := by
  intro periodSpend windowStart hcalm
  simp only [elevatedReasons, List.append_eq_nil_iff, ite_eq_right_iff, List.cons_ne_self,
    imp_false, gateRisk, classifySpendRisk_tier, riskTier_high_iff, not_le] at hcalm ⊢
  obtain ⟨hnew, hvelocity, hrisk⟩ := hcalm
  refine ⟨fun h => hnew (htrust h), ?_, lt_of_le_of_lt (hscore periodSpend) hrisk⟩
  rw [← hconfig]
  exact hvelocity

theorem warier_of_improves {intent : PaymentIntent} (ctx : GateContext) {s s' : Signals}
    (h : s.Improves s' intent.payee) :
    Warier intent (ctx.withSignals s') (ctx.withSignals s) := by
  have htrust := h.trust
  refine warier_of_score rfl ?_ ?_
  · intro hnew
    have hnew' : s'.trustOf intent.payee = .new := hnew
    show s.trustOf intent.payee = .new
    rw [hnew'] at htrust
    cases hs : s.trustOf intent.payee with
    | new => rfl
    | seen => rw [hs] at htrust; exact absurd htrust (by decide)
    | trusted => rw [hs] at htrust; exact absurd htrust (by decide)
  · intro periodSpend
    exact classifySpendRisk_antitone rfl rfl rfl htrust h.attestation h.reputation

end AgentWorth
