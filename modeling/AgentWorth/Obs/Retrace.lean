import AgentWorth.Executor.Replay
import AgentWorth.Obs.ReplaySim

/-!
# Decisions that a log retraces

What the simulator has to go by when it replays a decision of the executor: the
`createdAt` of the intent for a clock, no rates, and the spend that the log's own
decisions add up to.  A decision can be retraced when the gate takes the same
turns on that as it took on the store, and no session history stood in between.
-/

namespace AgentWorth

open AgentWorth.Js AgentWorth.Lib

/-! ## Contexts that decide alike -/

/-- Under the mandate, the caps refuse in both contexts or in neither, and so do
the signals ask for the operator. -/
def SameCourse (intent : PaymentIntent) (ctx ctx' : GateContext) (m : Mandate) : Prop :=
  ∀ spend, ctx.periodSpendByMandate m.id = .ok spend →
    ∃ spend', ctx'.periodSpendByMandate m.id = .ok spend' ∧
      (OverCap intent ctx' m spend' ↔ OverCap intent ctx m spend) ∧
      (¬ OverCap intent ctx m spend → ∀ windowStart,
        velocityWindowStart ctx = .ok windowStart →
          ∃ windowStart', velocityWindowStart ctx' = .ok windowStart' ∧
            (elevatedReasons intent ctx' spend' windowStart' = [] ↔
              elevatedReasons intent ctx spend windowStart = []))

/-- The stages of the gate take the same turn in both contexts. -/
structure Alike (intent : PaymentIntent) (ctx ctx' : GateContext) : Prop where
  floored : Floored intent ctx' ↔ Floored intent ctx
  mandate : ¬ Floored intent ctx → selectMandate intent ctx' = selectMandate intent ctx
  course : ¬ Floored intent ctx → ∀ m ∈ selectMandate intent ctx, SameCourse intent ctx ctx' m

/-- **Alike contexts decide alike**, and name the same mandate. -/
theorem Alike.decides {intent : PaymentIntent} {ctx ctx' : GateContext} {decision : GateDecision}
    (h : Alike intent ctx ctx') (hgate : evaluateGate intent ctx = .ok decision) :
    ∃ decision', evaluateGate intent ctx' = .ok decision' ∧
      decision'.outcome = decision.outcome ∧ decision'.mandateId = decision.mandateId := by
  have hsame : ∀ {decision' : GateDecision},
      decision'.verdict.outcome = decision.verdict.outcome →
      decision'.verdict.mandateId = decision.verdict.mandateId →
      decision'.outcome = decision.outcome ∧ decision'.mandateId = decision.mandateId :=
    fun hout hid => ⟨hout, hid⟩
  rcases evaluateGate_cases hgate with
    ⟨hfloor, hv⟩ | ⟨hfloor, hnone, hv⟩ | ⟨hfloor, m, spend, hsel, hspend, hunder⟩
  · obtain ⟨decision', hgate', hv'⟩ := evaluateGate_floored (h.floored.2 hfloor)
    exact ⟨decision', hgate', hsame (by rw [hv', hv]) (by rw [hv', hv])⟩
  · rcases evaluateGate_unfloored (mt h.floored.1 hfloor) with
      ⟨-, decision', hgate', hv'⟩ | ⟨m, hsel', -⟩
    · exact ⟨decision', hgate', hsame (by rw [hv', hv]) (by rw [hv', hv])⟩
    · rw [h.mandate hfloor, hnone] at hsel'
      cases hsel'
  · rcases evaluateGate_unfloored (mt h.floored.1 hfloor) with ⟨hnone, -⟩ | ⟨m', hsel', heq⟩
    · rw [h.mandate hfloor, hsel] at hnone
      cases hnone
    · rw [h.mandate hfloor, hsel] at hsel'
      cases hsel'
      obtain ⟨spend', hspend', hover, hcalm⟩ := h.course hfloor m hsel spend hspend
      rw [hspend'] at heq
      rw [heq, show (Except.ok spend').bind (evaluateUnderMandate intent ctx' m) =
        evaluateUnderMandate intent ctx' m spend' from rfl]
      rcases evaluateUnderMandate_cases hunder with ⟨hrefused, hv⟩ | ⟨hwithin, ws, hws, hv⟩
      · obtain ⟨decision', hunder', hv'⟩ := evaluateUnderMandate_overCap (hover.2 hrefused)
        exact ⟨decision', hunder', hsame (by rw [hv', hv]) (by rw [hv', hv])⟩
      · obtain ⟨ws', hws', hreasons⟩ := hcalm hwithin ws hws
        obtain ⟨decision', hunder', hv'⟩ :=
          evaluateUnderMandate_within (mt hover.1 hwithin) hws'
        simp only [hreasons] at hv'
        exact ⟨decision', hunder', hsame (by rw [hv', hv]) (by rw [hv', hv])⟩

/-! ## What the simulator has to go by -/

/-- The payment that a recorded decision executed under a mandate. -/
def executed (id : String) (e : AuditEntry) : Option PriorSpend :=
  if e.type = .gateDecision ∧ (e.payload.get "phase").strictEq (.str "agent") = true ∧
      (e.payload.get "outcome").strictEq (.str GateOutcome.autoExecute.text) = true ∧
      -- the simulator takes an empty id for no mandate
      id ≠ "" ∧ (e.payload.get "mandateId").strictEq (.str id) = true then
    (intentCodec.decode (e.payload.get "intent")).map fun i =>
      { amount := i.amount, at' := i.createdAt }
  else none

/-- The payments that the decisions of a log executed under a mandate. -/
def executedUnder (id : String) (entries : List AuditEntry) : List PriorSpend :=
  entries.filterMap (executed id)

section

variable {σ : Type} (d : ExecutorDeps σ) (src : Sources) (w : World σ) (now : String)
  (intent : PaymentIntent) (attestation : Option Attestation)

/-- The gate's context as told from the log: the time is the intent's own, there
are no rates, the spend is what was decided, and of the known payees only the
payee itself is asked for. -/
def retold : GateContext :=
  { context d src w.store now intent attestation with
    now := intent.createdAt
    mandates := d.store.listMandates w.store
    periodSpendByMandate := fun id =>
      spendSince (d.store.listMandates w.store) intent.createdAt id
        (executedUnder id w.audit.entries)
    knownPayees := fun payee =>
      payee == intent.payee && setOf (d.store.knownPayees w.store) payee
    trustOf := some fun _ => payeeTrust (d.store.payeeSettledCount w.store intent.payee)
    convert := none
    reversibility := some (settlementReversibility d intent) }

/-- The simulator can retrace the decision: no session history stops it, and the
gate takes the same turns on what the log tells. -/
structure Retraceable : Prop where
  unescalated : ¬ Escalates d src w now intent attestation
  alike : Alike intent (context d src w.store now intent attestation)
    (retold d src w now intent attestation)

end

/-- Every payment that is decided can be retraced. -/
def retraced {σ : Type} (d : ExecutorDeps σ) : Guard (State σ) Action Event := fun _ s a =>
  match a with
  | .execute now src intent attestation =>
      haltReason d s.world.store = none → Retraceable d src s.world now intent attestation
  | _ => True

/-! ## Deciding what can be retraced -/

section

instance decidableForallOk {ε α : Type} (x : Except ε α) (p : α → Prop)
    [∀ a, Decidable (p a)] : Decidable (∀ a, x = .ok a → p a) :=
  match x with
  | .ok a => decidable_of_iff (p a) (by simp)
  | .error _ => isTrue (by simp)

instance decidableExistsOk {ε α : Type} (x : Except ε α) (p : α → Prop)
    [∀ a, Decidable (p a)] : Decidable (∃ a, x = .ok a ∧ p a) :=
  match x with
  | .ok a => decidable_of_iff (p a) (by simp)
  | .error _ => isFalse (by simp)

variable {σ : Type} (d : ExecutorDeps σ) (src : Sources) (w : World σ) (now : String)
  (intent : PaymentIntent) (attestation : Option Attestation)

instance (ctx ctx' : GateContext) (m : Mandate) : Decidable (SameCourse intent ctx ctx' m) :=
  inferInstanceAs (Decidable (∀ spend, ctx.periodSpendByMandate m.id = .ok spend → _))

instance (ctx ctx' : GateContext) : Decidable (Alike intent ctx ctx') :=
  decidable_of_iff
    ((Floored intent ctx' ↔ Floored intent ctx) ∧
      (¬ Floored intent ctx → selectMandate intent ctx' = selectMandate intent ctx) ∧
      (¬ Floored intent ctx → ∀ m ∈ selectMandate intent ctx, SameCourse intent ctx ctx' m))
    ⟨fun ⟨h₁, h₂, h₃⟩ => ⟨h₁, h₂, h₃⟩, fun ⟨h₁, h₂, h₃⟩ => ⟨h₁, h₂, h₃⟩⟩

/-- The payment and the alert that `Escalates` speaks of, looked up. -/
theorem escalates_iff_lookup : Escalates d src w now intent attestation ↔
    let ctx := context d src w.store now intent attestation
    ∃ m ∈ selectMandate intent ctx, ∃ spend, ctx.periodSpendByMandate m.id = .ok spend ∧
      ¬ Floored intent ctx ∧ ¬ OverCap intent ctx m spend ∧
      (∃ windowStart, velocityWindowStart ctx = .ok windowStart ∧
        elevatedReasons intent ctx spend windowStart = []) ∧
      (evaluateRiskChain intent w.audit.entries
        { isStreaming := m.id != "" && m.period == .day, now := some now }).triggered = true := by
  constructor
  · rintro ⟨m, spend, hauto, htriggered⟩
    exact ⟨m, hauto.selected, spend, hauto.spend, hauto.unfloored, hauto.within, hauto.calm,
      htriggered⟩
  · rintro ⟨m, hselected, spend, hspend, hfloor, hwithin, hcalm, htriggered⟩
    exact ⟨m, spend, ⟨hfloor, hselected, hspend, hwithin, hcalm⟩, htriggered⟩

instance : Decidable (Escalates d src w now intent attestation) :=
  decidable_of_iff' _ (escalates_iff_lookup d src w now intent attestation)

instance : Decidable (Retraceable d src w now intent attestation) :=
  decidable_of_iff (¬ Escalates d src w now intent attestation ∧
      Alike intent (context d src w.store now intent attestation)
        (retold d src w now intent attestation))
    ⟨fun ⟨h₁, h₂⟩ => ⟨h₁, h₂⟩, fun ⟨h₁, h₂⟩ => ⟨h₁, h₂⟩⟩

instance (steps : List (Step (State σ) Action Event)) (s : State σ) (a : Action) :
    Decidable (retraced d steps s a) :=
  match a with
  | .execute now src intent attestation =>
      inferInstanceAs (Decidable (haltReason d s.world.store = none →
        Retraceable d src s.world now intent attestation))
  | .approve .. | .railReturns .. | .railThrows .. | .resume .. | .refund .. | .refundReturns ..
  | .refundThrows .. | .grantMandate .. | .revokeMandate .. | .amendMandate ..
  | .extendMandate .. | .engageKillSwitch | .disengageKillSwitch | .resetCircuitBreaker =>
      isTrue trivial

end

/-! ## Decisions that can be retraced -/

section

variable {σ : Type} {d : ExecutorDeps σ} (C : Contract d.store) {src : Sources} {w : World σ}
  {now : String} {intent : PaymentIntent} {attestation : Option Attestation}

/-- Of the known payees, the rules ask for the intent's own only. -/
def AskOwnPayee (rules : List DenyRule) : Prop :=
  ∀ rule ∈ rules, ∀ intent ctx ctx', DenyContext.reversibility ctx = ctx'.reversibility →
    ctx.knownPayees intent.payee = ctx'.knownPayees intent.payee →
    rule.match' intent ctx = rule.match' intent ctx'

theorem defaultDenyRules_askOwnPayee : AskOwnPayee defaultDenyRules := by
  intro rule hrule intent ctx ctx' hreversibility hknown
  simp only [defaultDenyRules, List.mem_cons, List.not_mem_nil, or_false] at hrule
  rcases hrule with rfl | rfl
  · simp only [irreversibleUnknownPayeeRule, hreversibility, hknown]
  · rfl

theorem retold_floored (hrules : AskOwnPayee d.denyRules) :
    Floored intent (retold d src w now intent attestation) ↔
      Floored intent (context d src w.store now intent attestation) := by
  have hdeny : denyingRule intent (retold d src w now intent attestation) =
      denyingRule intent (context d src w.store now intent attestation) := by
    refine find?_congr fun rule hrule => hrules rule hrule _ _ _ rfl ?_
    show (intent.payee == intent.payee && setOf (d.store.knownPayees w.store) intent.payee) = _
    rw [beq_self_eq_true, Bool.true_and]
    rfl
  unfold Floored
  rw [hdeny]
  rfl

include C in
/-- At the same time and without rates, the same mandate is found. -/
theorem retold_selectMandate (hnow : intent.createdAt = now) (hrates : src.fxRates = none) :
    selectMandate intent (retold d src w now intent attestation) =
      selectMandate intent (context d src w.store now intent attestation) := by
  have hlisted : d.store.listActiveMandates w.store now =
      (d.store.listMandates w.store).filter fun m => isLiveMandate m now := by
    rw [C.listActiveMandates, C.listMandates]
    rfl
  have hconvert : (context d src w.store now intent attestation).convert = none := by
    show src.fxRates.map _ = none
    rw [hrates]
    rfl
  show (d.store.listMandates w.store).find?
      (fun m => isLiveMandate m intent.createdAt && covers m intent none) =
    (d.store.listActiveMandates w.store now).find? fun m => isLiveMandate m now &&
      covers m intent (context d src w.store now intent attestation).convert
  rw [hlisted, List.find?_filter, hconvert, hnow]
  refine find?_congr fun m _ => ?_
  cases isLiveMandate m now <;> simp

theorem retold_signals (hnow : intent.createdAt = now) :
    SameSignals intent (context d src w.store now intent attestation)
      (retold d src w now intent attestation) where
  trust := rfl
  risk _ := rfl
  window := by
    show Date.toISOString (Date.getTime intent.createdAt - _) = _
    rw [hnow]
    rfl
  config := rfl

include C in
/-- **Where the log tells the whole story.**  A decision can be retraced that is
made at its `createdAt` and without rates, that no session history stops, and
under mandates whose settled spend is what the log's decisions executed. -/
theorem retraceable_of_told (hrules : AskOwnPayee d.denyRules) (hnow : intent.createdAt = now)
    (hrates : src.fxRates = none) (hcalm : ¬ Escalates d src w now intent attestation)
    (hspend : ∀ m ∈ d.store.listActiveMandates w.store now,
      d.store.periodSpend w.store m.id now =
        spendSince (d.store.listMandates w.store) now m.id
          (executedUnder m.id w.audit.entries)) :
    Retraceable d src w now intent attestation := by
  refine ⟨hcalm, retold_floored hrules, fun _ => retold_selectMandate C hnow hrates, ?_⟩
  intro _ m hm spend hspent
  have hactive : m ∈ d.store.listActiveMandates w.store now := List.mem_of_find?_eq_some hm
  have hsame : (retold d src w now intent attestation).periodSpendByMandate m.id = .ok spend := by
    show spendSince _ intent.createdAt m.id _ = _
    rw [hnow, ← hspend m hactive]
    exact hspent
  have hamount : amountInMandate intent (retold d src w now intent attestation) m =
      amountInMandate intent (context d src w.store now intent attestation) m := by
    rw [amountInMandate_eq, amountInMandate_eq]
    show (if _ then _ else (Option.bind none _).getD _) =
      if _ then _ else ((src.fxRates.map _).bind _).getD _
    rw [hrates]
    rfl
  have hsignals : SameSignals intent (context d src w.store now intent attestation)
      (retold d src w now intent attestation) := retold_signals hnow
  refine ⟨spend, hsame, ?_, fun _ windowStart hwindow =>
    ⟨windowStart, hsignals.window.trans hwindow, ?_⟩⟩
  · simp only [OverCap, remainingBudget, hamount]
  · rw [hsignals.elevated]

end

end AgentWorth
