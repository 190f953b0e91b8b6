import AgentWorth.Executor.Attribution
import AgentWorth.Executor.Replay
import AgentWorth.Executor.Smurfing

/-!
# Draining a fresh mandate

`evaluateRiskChain` looks for a payment that drained a mandate soon after its
grant among the decisions already on record, and the payment being decided is
not one of them.  So a drain escalates the payments after it; whether it is
escalated itself is up to the gate and to earlier history.
-/

namespace AgentWorth

open AgentWorth.Js AgentWorth.Lib

/-! ## The patterns of a risk chain -/

/-- What earlier entries must show for `evaluateRiskChain` to raise an alert. -/
inductive RiskPattern (intent : PaymentIntent) (entries : List AuditEntry)
    (opts : RiskChainOptions) : Prop
  | smurfing (streaming : opts.isStreaming = false)
      (three : 3 ≤ (samePayeeAuto intent
        (recentDecisions entries (riskWindowStart intent opts))).length)
  | splitting (streaming : opts.isStreaming = false)
      (two : 2 ≤ (samePayeeAuto intent
        (recentDecisions entries (riskWindowStart intent opts))).length)
      (rails : 2 ≤ JsValue.distinctCount ((samePayeeAuto intent
        (recentDecisions entries (riskWindowStart intent opts))).map
          (fun d => (d.get "intent").get "rail") ++ [.str intent.rail.text]))
  | probing (alert : probingAlert intent
      (recentDecisions entries (riskWindowStart intent opts)) opts ≠ none)
  | drained {e : AuditEntry} (earlier : e ∈ entries)
      (drains : drainOf entries (riskWindowStart intent opts) opts e ≠ none)

theorem smurfingAlert_none_iff {intent : PaymentIntent} {recent : List JsValue}
    {opts : RiskChainOptions} : smurfingAlert intent recent opts = none ↔
      ¬ (opts.isStreaming = false ∧ (samePayeeAuto intent recent).length ≥ 3) := by
  unfold smurfingAlert
  dsimp only
  split
  · next h => exact ⟨fun hnone => (by cases hnone), fun hnot => absurd h hnot⟩
  · next h => exact ⟨fun _ => h, fun _ => rfl⟩

theorem splittingAlert_none_iff {intent : PaymentIntent} {recent : List JsValue}
    {opts : RiskChainOptions} : splittingAlert intent recent opts = none ↔
      ¬ (opts.isStreaming = false ∧ (samePayeeAuto intent recent).length ≥ 2 ∧
        JsValue.distinctCount ((samePayeeAuto intent recent).map
          (fun d => (d.get "intent").get "rail") ++ [.str intent.rail.text]) ≥ 2) := by
  unfold splittingAlert
  dsimp only
  split
  · next h => exact ⟨fun hnone => (by cases hnone), fun hnot => absurd h hnot⟩
  · next h => exact ⟨fun _ => h, fun _ => rfl⟩

theorem drainOf_triggered {entries : List AuditEntry} {startMs : JsNumber}
    {opts : RiskChainOptions} {e : AuditEntry} {alert : RiskChainAlert}
    (h : drainOf entries startMs opts e = some alert) : alert.triggered = true := by
  unfold drainOf at h
  dsimp only at h
  split at h
  · cases h
  · split at h
    · split at h
      · cases h
      · split at h
        · cases h
        · split at h
          · cases h
          · cases h
            rfl
    · cases h

/-- **The alert is raised exactly when the entries show a pattern.** -/
theorem evaluateRiskChain_triggered_iff {intent : PaymentIntent} {entries : List AuditEntry}
    {opts : RiskChainOptions} :
    (evaluateRiskChain intent entries opts).triggered = true ↔
      RiskPattern intent entries opts := by
  have hsmurfing : ∀ {recent alert}, smurfingAlert intent recent opts = some alert →
      alert.triggered = true := by
    intro recent alert h
    unfold smurfingAlert at h
    dsimp only at h
    split at h <;> cases h
    rfl
  have hsplitting : ∀ {recent alert}, splittingAlert intent recent opts = some alert →
      alert.triggered = true := by
    intro recent alert h
    unfold splittingAlert at h
    dsimp only at h
    split at h <;> cases h
    rfl
  have hprobing : ∀ {recent alert}, probingAlert intent recent opts = some alert →
      alert.triggered = true := by
    intro recent alert h
    unfold probingAlert at h
    dsimp only at h
    split at h <;> cases h
    rfl
  have hsmurfed := @smurfingAlert_none_iff intent
    (recentDecisions entries (riskWindowStart intent opts)) opts
  have hsplit := @splittingAlert_none_iff intent
    (recentDecisions entries (riskWindowStart intent opts)) opts
  unfold evaluateRiskChain
  dsimp only
  cases h₁ : smurfingAlert intent (recentDecisions entries (riskWindowStart intent opts)) opts with
  | some alert =>
      rw [h₁] at hsmurfed
      obtain ⟨hstreaming, hthree⟩ : opts.isStreaming = false ∧ _ := by
        by_contra hnot
        cases hsmurfed.2 hnot
      exact ⟨fun _ => .smurfing hstreaming hthree, fun _ => hsmurfing h₁⟩
  | none =>
      cases h₂ : splittingAlert intent (recentDecisions entries (riskWindowStart intent opts))
        opts with
      | some alert =>
          rw [h₂] at hsplit
          obtain ⟨hstreaming, htwo, hrails⟩ : opts.isStreaming = false ∧ _ := by
            by_contra hnot
            cases hsplit.2 hnot
          exact ⟨fun _ => .splitting hstreaming htwo hrails, fun _ => hsplitting h₂⟩
      | none =>
          cases h₃ : probingAlert intent (recentDecisions entries (riskWindowStart intent opts))
            opts with
          | some alert => exact ⟨fun _ => .probing (by rw [h₃]; simp), fun _ => hprobing h₃⟩
          | none =>
              cases h₄ : entries.findSome? (drainOf entries (riskWindowStart intent opts) opts) with
              | some alert =>
                  obtain ⟨e, he, hdrain⟩ := List.exists_of_findSome?_eq_some h₄
                  exact ⟨fun _ => .drained he (by rw [hdrain]; simp),
                    fun _ => drainOf_triggered hdrain⟩
              | none =>
                  constructor
                  · intro h
                    cases h
                  · intro h
                    cases h with
                    | smurfing streaming three => exact absurd ⟨streaming, three⟩ (hsmurfed.1 h₁)
                    | splitting streaming two rails =>
                        exact absurd ⟨streaming, two, rails⟩ (hsplit.1 h₂)
                    | probing alert => exact absurd h₃ alert
                    | drained earlier drains =>
                        exact absurd (List.findSome?_eq_none_iff.1 h₄ _ earlier) drains

/-! ## A draining payment -/

variable {σ : Type} {d : ExecutorDeps σ} (C : Contract d.store)

/-- The payment takes at least 80% of what the authorizing mandate has left,
within 60 minutes of a grant of that mandate. -/
structure DrainsAfterGrant (d : ExecutorDeps σ) (src : Sources) (w : World σ) (now : String)
    (intent : PaymentIntent) (attestation : Option Attestation) (mandate : Mandate)
    (spend : List PriorSpend) : Prop where
  selected : selectMandate intent (context d src w.store now intent attestation) = some mandate
  spent : d.store.periodSpend w.store mandate.id now = .ok spend
  drains : .fin (4 / 5) * (mandate.perPeriodCap - spentTotal spend) ≤
    amountInMandate intent (context d src w.store now intent attestation) mandate
  granted : ∃ grant ∈ w.audit.entries, grant.type = .mandateGranted ∧
    grant.payload.get "id" = .str mandate.id ∧ Date.getTime grant.ts ≤ Date.getTime now ∧
    Date.getTime now - Date.getTime grant.ts ≤ 60 * 60 * 1000

instance {σ : Type} (d : ExecutorDeps σ) (src : Sources) (w : World σ) (now : String)
    (intent : PaymentIntent) (attestation : Option Attestation) (mandate : Mandate)
    (spend : List PriorSpend) :
    Decidable (DrainsAfterGrant d src w now intent attestation mandate spend) :=
  decidable_of_iff
    (selectMandate intent (context d src w.store now intent attestation) = some mandate ∧
      (d.store.periodSpend w.store mandate.id now).toOption = some spend ∧
      .fin (4 / 5) * (mandate.perPeriodCap - spentTotal spend) ≤
        amountInMandate intent (context d src w.store now intent attestation) mandate ∧
      ∃ grant ∈ w.audit.entries, grant.type = .mandateGranted ∧
        (grant.payload.get "id").strictEq (.str mandate.id) = true ∧
        Date.getTime grant.ts ≤ Date.getTime now ∧
        Date.getTime now - Date.getTime grant.ts ≤ 60 * 60 * 1000)
    (by
      simp only [JsValue.strictEq_str]
      constructor
      · rintro ⟨hselected, hspent, hdrains, hgranted⟩
        exact ⟨hselected, except_toOption_eq_some.1 hspent, hdrains, hgranted⟩
      · rintro ⟨hselected, hspent, hdrains, hgranted⟩
        exact ⟨hselected, except_toOption_eq_some.2 hspent, hdrains, hgranted⟩)

/-- The options `execute` gives the detector for a payment under the mandate. -/
def chainOptions (mandate : Mandate) (now : String) : RiskChainOptions where
  isStreaming := mandate.id != "" && mandate.period == .day
  now := some now

include C in
/-- What `execute` decides automatically: what the gate executes and no earlier
entry speaks against. -/
theorem agentDecision_auto_iff {src : Sources} {w : World σ} {now : String}
    {intent : PaymentIntent} {attestation : Option Attestation} {decision : GateDecision}
    {mandate : Mandate} {spend : List PriorSpend}
    (hdecides : agentDecision d src w now intent attestation = .ok decision)
    (hselected : selectMandate intent (context d src w.store now intent attestation) =
      some mandate)
    (hspend : d.store.periodSpend w.store mandate.id now = .ok spend) :
    decision.outcome = .autoExecute ↔
      AutoExecutable intent (context d src w.store now intent attestation) mandate spend ∧
        ¬ RiskPattern intent w.audit.entries (chainOptions mandate now) := by
  obtain ⟨gated, hgate, hescalated⟩ := except_map_eq_ok.1 hdecides
  have hescalates := escalates_iff C hgate
  have hsame : ∀ {m spend'},
      AutoExecutable intent (context d src w.store now intent attestation) m spend' →
      m = mandate ∧ spend' = spend := by
    intro m spend' hauto
    obtain rfl : m = mandate := Option.some.inj (hauto.selected.symm.trans hselected)
    exact ⟨rfl, Except.ok.inj (hauto.spend.symm.trans hspend)⟩
  have houtcome := congrArg Verdict.outcome
    (escalate_verdict (chainAlert d w now intent gated) gated)
  rw [hescalated] at houtcome
  have hdecision : decision.outcome =
      if (chainAlert d w now intent gated).triggered = true ∧ gated.outcome = .autoExecute then
        .confirmOperator else gated.outcome := houtcome
  rw [← evaluateRiskChain_triggered_iff]
  constructor
  · intro hauto
    obtain ⟨hgated, hcalm⟩ := agentDecision_auto hdecides hauto
    rw [hgate] at hgated
    cases hgated
    obtain ⟨m, spend', hexec, -⟩ := evaluateGate_auto hgate hauto
    obtain ⟨rfl, rfl⟩ := hsame hexec
    refine ⟨hexec, ?_⟩
    intro htriggered
    have h := hescalates.1 ⟨m, spend', hexec, htriggered⟩
    rw [hcalm] at h
    cases h.2
  · rintro ⟨hexec, hquiet⟩
    have hgated : gated.outcome = .autoExecute := hexec.outcome hgate
    have huntriggered : ¬ (chainAlert d w now intent gated).triggered = true := by
      intro htriggered
      obtain ⟨m, spend', hauto, halert⟩ := hescalates.2 ⟨hgated, htriggered⟩
      obtain ⟨rfl, rfl⟩ := hsame hauto
      exact hquiet halert
    rw [hdecision, if_neg (fun h => huntriggered h.1), hgated]

include C in
/-- **When a drain is escalated.**  In every run, the decision on a payment that
drains a freshly granted mandate is other than automatic exactly when the gate
itself does not execute it, or decisions made before it already show a pattern. -/
theorem drain_escalated_iff {G : Guard (State σ) Action Event} {s₀ s : State σ}
    {steps : List (Step (State σ) Action Event)} (hrun : (executor d).Run G s₀ steps s)
    {t : Step (State σ) Action Event} (ht : t ∈ steps) {now : String} {src : Sources}
    {intent : PaymentIntent} {attestation : Option Attestation}
    (haction : t.action = .execute now src intent attestation) {entry : AuditEntry}
    (hentry : entry ∈ appended t) (hdecision : entry.type = .gateDecision) {mandate : Mandate}
    {spend : List PriorSpend}
    (hdrain : DrainsAfterGrant d src t.before.world now intent attestation mandate spend) :
    entry.payload.get "outcome" ≠ .str GateOutcome.autoExecute.text ↔
      ¬ AutoExecutable intent (context d src t.before.world.store now intent attestation)
          mandate spend ∨
        RiskPattern intent t.before.world.audit.entries (chainOptions mandate now) := by
  have htaken : step d t.before t.action = some (t.after, t.events) := hrun.taken_of_mem ht
  rw [haction] at htaken
  obtain ⟨added, hentries, hadded⟩ := gateDecision_of_step htaken
  have hmem : entry ∈ added := by
    unfold appended at hentry
    rw [hentries, List.drop_left] at hentry
    exact hentry
  cases hadded entry hmem hdecision with
  | execute decided =>
      obtain ⟨decision, inputs, hdecides, -, hpayload⟩ := decided.recorded
      have houtcome : entry.payload.get "outcome" = outcomeCodec.encode decision.outcome := by
        simp [hpayload, stamped, agentPayload]
      rw [houtcome, ne_eq, encode_outcome_eq_iff,
        agentDecision_auto_iff C hdecides hdrain.selected hdrain.spent, not_and_or, not_not]

/-! ## A drained mandate -/

namespace Sample

/-- 100 a month, in one payment if need be. -/
def lumpMandate : Mandate := { mandate with perTxCap := 100 }

/-- The drains of a run: what their entries say of each. -/
def drainOutcomes (spend : List PriorSpend) (steps : List (Step (State Books) Action Event)) :
    List String :=
  steps.flatMap fun t =>
    match t.action with
    | .execute now src intent attestation =>
        if DrainsAfterGrant deps src t.before.world now intent attestation lumpMandate spend then
          (appended t).filterMap fun e =>
            if e.type = .gateDecision then some (e.payload.get "outcome").toText else none
        else []
    | _ => []

end Sample

/-- Granted 100 and spending 90 of them in the same minute: executed. -/
theorem first_drain_is_executed : ∃ steps s,
    (executor Sample.deps).Run anyStep Sample.unmandated steps s ∧
      Sample.drainOutcomes [] steps = ["auto_execute"] := by
  obtain ⟨steps, s, hrun, hfound⟩ := System.exists_run (executor Sample.deps) anyStep
    Sample.unmandated [.grantMandate Sample.noon Sample.lumpMandate, Sample.pay "a" 90]
    (fun steps _ => decide (Sample.drainOutcomes [] steps = ["auto_execute"]))
    (by decide +kernel)
  exact ⟨steps, s, hrun, of_decide_eq_true hfound⟩

/-- The payment after the drain: it takes all that is left, and the drain before
it speaks against it. -/
theorem second_drain_is_escalated : ∃ steps s,
    (executor Sample.deps).Run anyStep Sample.unmandated steps s ∧
      ∃ t ∈ steps, ∃ now src intent attestation, t.action = .execute now src intent attestation ∧
        ∃ entry ∈ appended t, entry.type = .gateDecision ∧
          ∃ spend, DrainsAfterGrant Sample.deps src t.before.world now intent attestation
              Sample.lumpMandate spend ∧
            entry.payload.get "outcome" = .str GateOutcome.confirmOperator.text ∧
            (entry.payload.get "outcome" ≠ .str GateOutcome.autoExecute.text ↔
              ¬ AutoExecutable intent
                  (context Sample.deps src t.before.world.store now intent attestation)
                  Sample.lumpMandate spend ∨
                RiskPattern intent t.before.world.audit.entries
                  (chainOptions Sample.lumpMandate now)) := by
  obtain ⟨steps, s, hrun, hfound⟩ := System.exists_run (executor Sample.deps) anyStep
    Sample.unmandated
    [.grantMandate Sample.noon Sample.lumpMandate, Sample.pay "a" 90, Sample.settles 0 "a" 90,
      .resume 0, Sample.pay "b" 10]
    (fun steps _ => steps.any fun t =>
      match t.action with
      | .execute now src intent attestation =>
          decide (DrainsAfterGrant Sample.deps src t.before.world now intent attestation
            Sample.lumpMandate [⟨90, Sample.noon⟩]) &&
          (appended t).any fun e => e.type == .gateDecision &&
            (e.payload.get "outcome").strictEq (.str GateOutcome.confirmOperator.text)
      | _ => false) (by decide +kernel)
  obtain ⟨t, ht, hstep⟩ := List.any_eq_true.1 hfound
  cases haction : t.action with
  | execute now src intent attestation =>
      rw [haction] at hstep
      simp only [Bool.and_eq_true, decide_eq_true_eq] at hstep
      obtain ⟨hdrain, hentries⟩ := hstep
      obtain ⟨entry, hentry, hshown⟩ := List.any_eq_true.1 hentries
      rw [Bool.and_eq_true, beq_iff_eq, JsValue.strictEq_str] at hshown
      exact ⟨steps, s, hrun, t, ht, now, src, intent, attestation, haction, entry, hentry,
        hshown.1,
        _, hdrain, hshown.2,
        drain_escalated_iff (d := Sample.deps) memoryContract hrun ht haction hentry hshown.1
          hdrain⟩
  | _ =>
      rw [haction] at hstep
      cases hstep

end AgentWorth
