import AgentWorth.Executor.Deployment
import AgentWorth.Executor.Refunds

/-!
# No rail call without authority

What has to hold when `provider.settle` is called, for the two ways to get
there.  The executor's checks are comparisons that refuse, so they stand for
the bounds they are meant to enforce exactly when the numbers compared are
numbers: a `NaN` on either side passes every one of them.
-/

namespace AgentWorth

open AgentWorth.Js AgentWorth.Lib

variable {σ : Type} (d : ExecutorDeps σ)

/-- Neither the kill switch nor the circuit breaker stops payments. -/
structure Unhalted (store : σ) : Prop where
  kill : isKilled d store = false
  breaker : failures d store < breakerThreshold d

/-- A mandate of the store that allows the payment and has budget for it. -/
structure Mandated (src : Sources) (store : σ) (now : String) (intent : PaymentIntent)
    (attestation : Option Attestation) (m : Mandate) : Prop where
  held : d.store.getMandate store m.id = some m
  active : m.status = .active
  unexpired : strLt now m.expiresAt = true
  rail : intent.rail ∈ m.allowedRails
  scope : scopeCovers m.scope intent = true
  perTx : amountInMandate intent (context d src store now intent attestation) m ≤ m.perTxCap
  fits : ∃ spend, d.store.periodSpend store m.id now = .ok spend ∧
    0 ≤ remainingBudget intent (context d src store now intent attestation) m spend

/-- The step appended this gate decision to the log. -/
def Appended (s s' : State σ) (payload : JsValue) (now : String) : Prop :=
  ∃ entry, s'.world.audit.entries = s.world.audit.entries ++ [entry] ∧
    entry.type = .gateDecision ∧ entry.payload = stamped d s.world.store .gateDecision payload ∧
    entry.ts = now

/-- The agent pays on its own. -/
structure AgentAuthority (s s' : State σ) (src : Sources) (now : String)
    (intent : PaymentIntent) (attestation : Option Attestation) (call : Call) : Prop where
  asked : call.intent = intent ∧ call.now = now
  appended : ∃ inputs, Appended d s s' (agentPayload d intent call.decision inputs) now
  automatic : call.decision.outcome = .autoExecute
  mandated : ∃ m, call.decision.mandateId = some m.id ∧
    Mandated d src s.world.store now intent attestation m
  allowed : ∀ rule ∈ d.denyRules, rule.match' intent
    { knownPayees := setOf (d.store.knownPayees s.world.store)
      reversibility := settlementReversibility d intent } = false
  calm : (chainAlert d s.world now intent call.decision).triggered = false

/-- The operator has approved. -/
structure OperatorAuthority (s s' : State σ) (src : Sources)
    (now intentId rationale : String) (acknowledged : Bool) (call : Call)
    (provider : PaymentProvider) : Prop where
  pending : ∃ x, d.store.getIntent s.world.store intentId = some x ∧ x.status = .pending ∧
    call.intent = x.intent ∧ call.now = now ∧
    evaluateGate x.intent (context d src s.world.store now x.intent none) = .ok call.decision
  appended : Appended d s s' (approvalPayload intentId rationale acknowledged call.decision) now
  passes : call.decision.outcome ≠ .block
  acknowledged : call.decision.risk.tier = .high ∨
    provider.capabilities.reversibility = .irreversible ∨
    challengeThreshold d ≤ call.intent.amount → acknowledged = true

/-- The authority a step has to call a provider. -/
def Authority (s s' : State σ) (a : Action) (call : Call) (provider : PaymentProvider) : Prop :=
  Unhalted d s.world.store ∧
    match a with
    | .execute now src intent attestation =>
        AgentAuthority d s s' src now intent attestation call
    | .approve now src intentId rationale acknowledged =>
        OperatorAuthority d s s' src now intentId rationale acknowledged call provider
    | _ => False

/-- The breaker compares numbers. -/
def BreakerComparable (store : σ) : Prop :=
  failures d store ≠ .nan ∧ breakerThreshold d ≠ .nan

/-- The caps of the selected mandate are compared as numbers. -/
def CapsComparable (src : Sources) (store : σ) (now : String) (intent : PaymentIntent)
    (attestation : Option Attestation) : Prop :=
  ∀ m ∈ selectMandate intent (context d src store now intent attestation),
    amountInMandate intent (context d src store now intent attestation) m ≠ .nan ∧
      m.perTxCap ≠ .nan ∧
      ∀ spend ∈ (d.store.periodSpend store m.id now).toOption,
        remainingBudget intent (context d src store now intent attestation) m spend ≠ .nan

/-- Every number that stands between a call and the rail is one. -/
def Comparable (store : σ) (a : Action) : Prop :=
  BreakerComparable d store ∧
    match a with
    | .execute now src intent attestation => CapsComparable d src store now intent attestation
    | _ => True

variable {d} (C : Contract d.store)

/-! ## The checks -/

theorem haltReason_none_iff {store : σ} :
    haltReason d store = none ↔
      isKilled d store = false ∧ ¬ breakerThreshold d ≤ failures d store := by
  unfold haltReason breakerOpen
  cases isKilled d store with
  | true => simp
  | false => by_cases h : breakerThreshold d ≤ failures d store <;> simp [h]

/-- A run that is not halted is below the threshold if both are numbers. -/
theorem unhalted_iff {store : σ} (h : haltReason d store = none) :
    Unhalted d store ↔ BreakerComparable d store := by
  obtain ⟨hkill, hbreaker⟩ := haltReason_none_iff.1 h
  constructor
  · rintro ⟨-, hlt⟩
    constructor <;> intro hnan <;> rw [hnan] at hlt <;> simp at hlt
  · rintro ⟨hf, ht⟩
    exact ⟨hkill, JsNumber.lt_of_not_le hf ht hbreaker⟩

theorem denyingRule_none_iff {src : Sources} {store : σ} {now : String}
    {intent : PaymentIntent} {attestation : Option Attestation} :
    denyingRule intent (context d src store now intent attestation) = none ↔
      ∀ rule ∈ d.denyRules, rule.match' intent
        { knownPayees := setOf (d.store.knownPayees store)
          reversibility := settlementReversibility d intent } = false := by
  rw [denyingRule, List.find?_eq_none]
  simp only [Bool.not_eq_true]
  rfl

include C in
/-- Under the mandate the gate selected, the caps hold when they are compared
as numbers. -/
theorem mandated_iff {src : Sources} {store : σ} {now : String}
    {intent : PaymentIntent} {attestation : Option Attestation} {m : Mandate}
    {spend : List PriorSpend}
    (hauto : AutoExecutable intent (context d src store now intent attestation) m spend) :
    Mandated d src store now intent attestation m ↔
      CapsComparable d src store now intent attestation := by
  obtain ⟨-, hsel, hspend, hwithin, -⟩ := hauto
  have hspend' : d.store.periodSpend store m.id now = .ok spend := hspend
  obtain ⟨htx, hrem⟩ := not_or.1 hwithin
  obtain ⟨hheld, hactive, hlive, hrail, hscope⟩ := selectMandate_spec C hsel
  constructor
  · rintro ⟨-, -, -, -, -, hperTx, spend', hspend'', hfits⟩ m' hm'
    rw [Option.mem_def, hsel] at hm'
    cases hm'
    rw [hspend'] at hspend''
    cases hspend''
    obtain ⟨-, hamount, hcap⟩ := JsNumber.le_iff_not_lt.1 hperTx
    refine ⟨hamount, hcap, ?_⟩
    intro spend'' hmem
    rw [hspend'] at hmem
    cases hmem
    exact (JsNumber.le_iff_not_lt.1 hfits).2.2
  · intro hnum
    obtain ⟨hamount, hcap, hbudget⟩ := hnum m hsel
    have hleft := hbudget spend (by rw [hspend']; rfl)
    exact ⟨hheld, hactive, hlive, hrail, hscope,
      (JsNumber.not_lt_iff_le hamount hcap).1 htx, spend, hspend',
      (JsNumber.not_lt_iff_le (by simp) hleft).1 hrem⟩

/-! ## Rail calls -/

/-- Rails are only called where a call suspends. -/
theorem mem_invocation {call call' : Call} {provider : PaymentProvider}
    (h : .railInvoked call' provider ∈ call.invocation) :
    call' = call ∧ call.stage = .rail provider := by
  unfold Call.invocation at h
  split at h
  · next p hstage =>
      cases List.mem_singleton.1 h
      exact ⟨rfl, hstage⟩
  · cases h

theorem settle_provider {entry : Entry} {intentId now : String} {intent : PaymentIntent}
    {decision : GateDecision} {provider : PaymentProvider}
    (h : (settle d entry intentId intent now decision).stage = .rail provider) :
    d.rails.get intent.rail = some provider := by
  simp only [settle] at h
  split at h
  · next p hp =>
      cases h
      exact hp
  · cases h

include C in
/-- **One step.**  A step that calls a provider has the authority exactly when
the numbers it compared are numbers. -/
theorem authority_iff {s s' : State σ} {a : Action} {es : List Event} {call : Call}
    {provider : PaymentProvider} (htaken : step d s a = some (s', es))
    (hinvoked : .railInvoked call provider ∈ es) :
    Authority d s s' a call provider ↔ Comparable d s.world.store a := by
  have hnone : (∀ e ∈ es, e.isQuiet = true) → False := by
    intro h
    cases h _ hinvoked
  obtain ⟨heffect, -⟩ := step_effect C htaken
  cases heffect with
  | @executeStarted now src intent attestation decision inputs _ runs decides automatic
      recorded calls refunds =>
      obtain ⟨rfl, hstage⟩ := mem_invocation hinvoked
      obtain ⟨hgate, hcalm⟩ := agentDecision_auto decides automatic
      obtain ⟨m, spend, hauto, hverdict⟩ := evaluateGate_auto hgate automatic
      have hnamed : decision.mandateId = some m.id := congrArg Verdict.mandateId hverdict
      have hdeny : denyingRule intent (context d src s.world.store now intent attestation) =
          none := by
        have h := hauto.unfloored
        simp only [Floored, not_or, Bool.not_eq_true, Option.isSome_eq_false_iff,
          Option.isNone_iff_eq_none] at h
        exact h.2.2
      show Unhalted d _ ∧ AgentAuthority d s s' src now intent attestation _ ↔
        BreakerComparable d _ ∧ CapsComparable d src _ now intent attestation
      rw [unhalted_iff runs, and_congr_right_iff]
      intro _
      rw [← mandated_iff C hauto]
      constructor
      · intro h
        obtain ⟨m', hm', hmandated⟩ := h.mandated
        have hid : m.id = m'.id := Option.some.inj (hnamed.symm.trans hm')
        have hheld := (selectMandate_spec C hauto.selected).1
        rw [hid, hmandated.held] at hheld
        cases hheld
        exact hmandated
      · intro h
        exact ⟨⟨rfl, rfl⟩, ⟨inputs, recorded.entries⟩, automatic, ⟨m, hnamed, h⟩,
          denyingRule_none_iff.1 hdeny, hcalm⟩
  | @approveStarted now src intentId rationale acknowledged x decision _ runs present pending
      decides passes unchallenged recorded calls refunds =>
      obtain ⟨rfl, hstage⟩ := mem_invocation hinvoked
      have hprovider := settle_provider hstage
      show Unhalted d _ ∧ OperatorAuthority d s s' src now intentId rationale acknowledged _ _ ↔
        BreakerComparable d _ ∧ True
      rw [unhalted_iff runs, and_congr_right_iff]
      intro _
      refine ⟨fun _ => trivial, fun _ => ⟨⟨x, ?_, pending, rfl, rfl, decides⟩,
        recorded.entries, passes, ?_⟩⟩
      · rw [C.getIntent]
        exact present
      · intro hchallenge
        have hrev : settlementReversibility d x.intent = provider.capabilities.reversibility := by
          rw [settlementReversibility, hprovider]
          rfl
        have hrequired : requiresChallenge d x.intent decision = true := by
          simp only [requiresChallenge, hrev, Bool.or_eq_true, beq_iff_eq, decide_eq_true_eq,
            or_assoc]
          exact hchallenge
        rw [hrequired, Bool.true_and] at unchallenged
        simpa using unchallenged
  | quiet same calls refunds quiet => exact absurd quiet hnone
  | filed intent_eq status unrefunded fresh mandates intents receipts calls refunds quiet =>
      exact absurd quiet hnone
  | refused present pending mandates intents receipts calls refunds quiet =>
      exact absurd quiet hnone
  | mandateChanged change intents receipts calls refunds quiet => exact absurd quiet hnone
  | refunded waiting present mandates intents receipts calls refunds quiet =>
      rcases List.mem_cons.1 hinvoked with h | h
      · cases h
      · cases quiet _ h
  | answered waiting mandates intents receipts booked calls refunds => simp at hinvoked
  | answerLost waiting outOfStep mandates intents receipts calls refunds => simp at hinvoked
  | railFailed waiting same calls refunds => simp at hinvoked
  | railFailureLost waiting outOfStep same calls refunds => simp at hinvoked
  | executeFinished waiting entry fresh mandates intents receipts calls refunds =>
      simp at hinvoked
  | approveFinished waiting entry present mandates intents receipts calls refunds =>
      simp at hinvoked
  | finishRefused waiting refusal same calls refunds => simp at hinvoked
  | refundStarted starts same calls refunds => simp at hinvoked
  | refundRefused waiting refusal same calls refunds => simp at hinvoked
  | refundFailed waiting same calls refunds => simp at hinvoked

instance (src : Sources) (store : σ) (now : String) (intent : PaymentIntent)
    (attestation : Option Attestation) :
    Decidable (CapsComparable d src store now intent attestation) :=
  inferInstanceAs (Decidable (∀ m ∈ selectMandate _ _, _))

instance (store : σ) : Decidable (BreakerComparable d store) :=
  inferInstanceAs (Decidable (_ ∧ _))

instance (store : σ) (a : Action) : Decidable (Comparable d store a) :=
  match a with
  | .execute now src intent attestation =>
      inferInstanceAs (Decidable (_ ∧ CapsComparable d src store now intent attestation))
  | .approve .. | .railReturns .. | .railThrows .. | .resume .. | .refund ..
  | .refundReturns .. | .refundThrows .. | .grantMandate .. | .revokeMandate ..
  | .amendMandate .. | .extendMandate .. | .engageKillSwitch | .disengageKillSwitch
  | .resetCircuitBreaker => inferInstanceAs (Decidable (_ ∧ True))

/-- The call that an event reports a rail to be asked for. -/
def Event.railCall : Event → Option (Call × PaymentProvider)
  | .railInvoked call provider => some (call, provider)
  | _ => none

theorem railInvoked_of_isSome {e : Event} (h : e.railCall.isSome = true) :
    ∃ call provider, e = .railInvoked call provider := by
  cases e with
  | railInvoked call provider => exact ⟨call, provider, rfl⟩
  | _ => cases h

end AgentWorth
