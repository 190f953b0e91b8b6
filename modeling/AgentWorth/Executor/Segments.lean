import AgentWorth.Executor.System
import AgentWorth.Lib.Effect
import AgentWorth.Store.Contract

/-!
# What the segments can do

For each segment of the executor, every way its run can end, with what was
decided, recorded and written on the way.  Later modules cite these and do not
unfold the segments again.
-/

namespace AgentWorth

open AgentWorth.Js AgentWorth.Lib

variable {σ : Type} {d : ExecutorDeps σ}

/-! ## The gate over the store -/

/-- A mandate the gate selects is live and covers the payment. -/
theorem selectMandate_spec (C : Contract d.store) {src : Sources} {store : σ} {now : String}
    {intent : PaymentIntent} {attestation : Option Attestation} {m : Mandate}
    (h : selectMandate intent (context d src store now intent attestation) = some m) :
    d.store.getMandate store m.id = some m ∧ m.status = .active ∧
      strLt now m.expiresAt = true ∧ intent.rail ∈ m.allowedRails ∧
      scopeCovers m.scope intent = true := by
  have hmem : m ∈ d.store.listActiveMandates store now := List.mem_of_find?_eq_some h
  have htest := List.find?_some h
  rw [C.listActiveMandates, Books.listActiveMandates, List.mem_filter, Table.mem_values_iff]
    at hmem
  simp only [covers, Bool.and_eq_true, List.contains_iff_mem] at htest
  obtain ⟨-, ⟨hrail, hscope⟩, -⟩ := htest
  have hlive := hmem.2
  simp only [isLiveMandate, Bool.and_eq_true, beq_iff_eq] at hlive
  exact ⟨by rw [C.getMandate]; exact hmem.1, hlive.1, hlive.2, hrail, hscope⟩

/-- Escalation changes the outcome and leaves mandate, risk and budget. -/
theorem escalate_verdict (alert : RiskChainAlert) (decision : GateDecision) :
    (escalate alert decision).verdict =
      { decision.verdict with
        outcome :=
          if alert.triggered = true ∧ decision.outcome = .autoExecute then .confirmOperator
          else decision.outcome } := by
  unfold escalate
  by_cases ht : alert.triggered = true
  · by_cases ha : decision.outcome = .autoExecute
    · simp [ht, ha, GateDecision.verdict]
    · simp [ht, ha, GateDecision.verdict]
  · simp [ht, GateDecision.verdict]

/-- An automatic decision of the agent is the gate's own, with no risk chain
triggered. -/
theorem agentDecision_auto {src : Sources} {w : World σ} {now : String}
    {intent : PaymentIntent} {attestation : Option Attestation} {decision : GateDecision}
    (h : agentDecision d src w now intent attestation = .ok decision)
    (hauto : decision.outcome = .autoExecute) :
    evaluateGate intent (context d src w.store now intent attestation) = .ok decision ∧
      (chainAlert d w now intent decision).triggered = false := by
  obtain ⟨gated, hgate, hesc⟩ := except_map_eq_ok.1 h
  have hv := congrArg Verdict.outcome (escalate_verdict (chainAlert d w now intent gated) gated)
  rw [hesc] at hv
  have hout : decision.verdict.outcome = .autoExecute := hauto
  rw [hout] at hv
  by_cases ht : (chainAlert d w now intent gated).triggered = true
  · by_cases ha : gated.outcome = .autoExecute
    · simp [ht, ha] at hv
    · simp only [ha, and_false, if_false] at hv
      exact absurd hv.symm ha
  · have hsame : gated = decision := by
      rw [← hesc]
      simp [escalate, ht]
    subst hsame
    exact ⟨hgate, by simpa using ht⟩

/-- A decision that names a mandate is about a positive whole amount. -/
theorem agentDecision_priced {src : Sources} {w : World σ} {now : String}
    {intent : PaymentIntent} {attestation : Option Attestation} {decision : GateDecision}
    (h : agentDecision d src w now intent attestation = .ok decision)
    (hm : decision.mandateId ≠ none) : ∃ n : Int, 0 < n ∧ intent.amount = .fin n := by
  obtain ⟨gated, hgate, hesc⟩ := except_map_eq_ok.1 h
  refine @amount_of_not_floored _ (context d src w.store now intent attestation) ?_
  intro hfloor
  obtain ⟨decision', h', hv⟩ := evaluateGate_floored hfloor
  rw [hgate] at h'
  cases h'
  have hesc' := congrArg Verdict.mandateId
    (escalate_verdict (chainAlert d w now intent gated) gated)
  rw [hesc, hv] at hesc'
  exact hm hesc'

/-! ## The segments -/

/-- The status of an intent that the gate did not let through. -/
def GateOutcome.parkedStatus : GateOutcome → IntentStatus
  | .block => .blocked
  | _ => .pending

/-- The runs of the first segment of `execute`. -/
inductive ExecuteRun (d : ExecutorDeps σ) (src : Sources) (now : String)
    (intent : PaymentIntent) (attestation : Option Attestation) (w : World σ) :
    EStateM.Result String (World σ) Started → Prop
  | haltUnrecorded {halt e : String} {w' : World σ}
      (halts : haltReason d w.store = some halt)
      (recorded : record d .paymentHalted (haltPayload intent.id "agent" halt) now w =
        .error e w') :
      ExecuteRun d src now intent attestation w (.error e w')
  | haltUnfiled {halt e : String} {w₁ : World σ}
      (halts : haltReason d w.store = some halt)
      (recorded : record d .paymentHalted (haltPayload intent.id "agent" halt) now w =
        .ok () w₁)
      (filed : d.store.insertIntent w₁.store
        (unsettled intent .blocked none (haltDecision halt).reasons) = .error e) :
      ExecuteRun d src now intent attestation w (.error e w₁)
  | halted {halt : String} {w₁ : World σ} {store : σ}
      (halts : haltReason d w.store = some halt)
      (recorded : record d .paymentHalted (haltPayload intent.id "agent" halt) now w =
        .ok () w₁)
      (filed : d.store.insertIntent w₁.store
        (unsettled intent .blocked none (haltDecision halt).reasons) = .ok store) :
      ExecuteRun d src now intent attestation w
        (.ok (.done
          { intentId := intent.id, status := .blocked, decision := haltDecision halt })
          { w₁ with store := store })
  | undecided {e : String} (runs : haltReason d w.store = none)
      (decides : agentDecision d src w now intent attestation = .error e) :
      ExecuteRun d src now intent attestation w (.error e w)
  | uncaptured {decision : GateDecision} {e : String} (runs : haltReason d w.store = none)
      (decides : agentDecision d src w now intent attestation = .ok decision)
      (captures : replayInputs d src w.store now intent attestation = .error e) :
      ExecuteRun d src now intent attestation w (.error e w)
  | unrecorded {decision : GateDecision} {inputs : ReplayInputs} {e : String} {w' : World σ}
      (runs : haltReason d w.store = none)
      (decides : agentDecision d src w now intent attestation = .ok decision)
      (captures : replayInputs d src w.store now intent attestation = .ok inputs)
      (recorded : record d .gateDecision (agentPayload d intent decision inputs) now w =
        .error e w') :
      ExecuteRun d src now intent attestation w (.error e w')
  | unfiled {decision : GateDecision} {inputs : ReplayInputs} {e : String} {w₁ : World σ}
      (runs : haltReason d w.store = none)
      (decides : agentDecision d src w now intent attestation = .ok decision)
      (captures : replayInputs d src w.store now intent attestation = .ok inputs)
      (recorded : record d .gateDecision (agentPayload d intent decision inputs) now w =
        .ok () w₁)
      (parks : decision.outcome ≠ .autoExecute)
      (filed : d.store.insertIntent w₁.store
        (unsettled intent decision.outcome.parkedStatus decision.mandateId
          decision.reasons) = .error e) :
      ExecuteRun d src now intent attestation w (.error e w₁)
  | blocked {decision : GateDecision} {inputs : ReplayInputs} {w₁ w₂ : World σ} {store : σ}
      (runs : haltReason d w.store = none)
      (decides : agentDecision d src w now intent attestation = .ok decision)
      (captures : replayInputs d src w.store now intent attestation = .ok inputs)
      (recorded : record d .gateDecision (agentPayload d intent decision inputs) now w =
        .ok () w₁)
      (blocks : decision.outcome = .block)
      (filed : d.store.insertIntent w₁.store
        (unsettled intent .blocked decision.mandateId decision.reasons) = .ok store)
      (counted : recordOutcome d .bad { w₁ with store := store } = .ok () w₂) :
      ExecuteRun d src now intent attestation w
        (.ok (.done { intentId := intent.id, status := .blocked, decision := decision }) w₂)
  | parked {decision : GateDecision} {inputs : ReplayInputs} {w₁ : World σ} {store : σ}
      (runs : haltReason d w.store = none)
      (decides : agentDecision d src w now intent attestation = .ok decision)
      (captures : replayInputs d src w.store now intent attestation = .ok inputs)
      (recorded : record d .gateDecision (agentPayload d intent decision inputs) now w =
        .ok () w₁)
      (confirms : decision.outcome = .confirmOperator)
      (filed : d.store.insertIntent w₁.store
        (unsettled intent .pending decision.mandateId decision.reasons) = .ok store) :
      ExecuteRun d src now intent attestation w
        (.ok (.done { intentId := intent.id, status := .pending, decision := decision })
          { w₁ with store := store })
  | authorized {decision : GateDecision} {inputs : ReplayInputs} {w₁ : World σ}
      (runs : haltReason d w.store = none)
      (decides : agentDecision d src w now intent attestation = .ok decision)
      (captures : replayInputs d src w.store now intent attestation = .ok inputs)
      (recorded : record d .gateDecision (agentPayload d intent decision inputs) now w =
        .ok () w₁)
      (automatic : decision.outcome = .autoExecute) :
      ExecuteRun d src now intent attestation w
        (.ok (.awaiting (settle d .execute intent.id intent now decision)) w₁)

theorem execute_run (d : ExecutorDeps σ) (src : Sources) (now : String)
    (intent : PaymentIntent) (attestation : Option Attestation) (w : World σ) :
    ExecuteRun d src now intent attestation w (execute d src now intent attestation w) := by
  unfold execute
  rw [get_bind]
  simp only [bind]
  cases hhalt : haltReason d w.store with
  | some halt =>
      simp only [EStateM.bind]
      cases hrec : record d .paymentHalted (haltPayload intent.id "agent" halt) now w with
      | error e w' => exact .haltUnrecorded hhalt hrec
      | ok u w₁ =>
          simp only [write]
          cases hfile : d.store.insertIntent w₁.store
            (unsettled intent .blocked none (haltDecision halt).reasons) with
          | error e => exact .haltUnfiled hhalt hrec hfile
          | ok store => exact .halted hhalt hrec hfile
  | none =>
      simp only [EStateM.bind, eval]
      cases hdec : agentDecision d src w now intent attestation with
      | error e => exact .undecided hhalt hdec
      | ok decision =>
          simp only
          cases hin : replayInputs d src w.store now intent attestation with
          | error e => exact .uncaptured hhalt hdec hin
          | ok inputs =>
              simp only
              cases hrec : record d .gateDecision (agentPayload d intent decision inputs)
                now w with
              | error e w' => exact .unrecorded hhalt hdec hin hrec
              | ok u w₁ =>
                  simp only
                  cases hout : decision.outcome with
                  | autoExecute => exact .authorized hhalt hdec hin hrec hout
                  | confirmOperator =>
                      simp only [EStateM.bind, write]
                      cases hfile : d.store.insertIntent w₁.store
                        (unsettled intent .pending decision.mandateId decision.reasons) with
                      | error e =>
                          exact .unfiled hhalt hdec hin hrec (by simp [hout])
                            (by simpa [hout, GateOutcome.parkedStatus] using hfile)
                      | ok store => exact .parked hhalt hdec hin hrec hout hfile
                  | block =>
                      simp only [EStateM.bind, write]
                      cases hfile : d.store.insertIntent w₁.store
                        (unsettled intent .blocked decision.mandateId decision.reasons) with
                      | error e =>
                          exact .unfiled hhalt hdec hin hrec (by simp [hout])
                            (by simpa [hout, GateOutcome.parkedStatus] using hfile)
                      | ok store => exact .blocked hhalt hdec hin hrec hout hfile rfl

/-- The runs of the first segment of `approve`. -/
inductive ApproveRun (d : ExecutorDeps σ) (src : Sources) (now intentId rationale : String)
    (acknowledged : Bool) (w : World σ) :
    EStateM.Result String (World σ) Started → Prop
  | missing {e : String} (absent : d.store.getIntent w.store intentId = none) :
      ApproveRun d src now intentId rationale acknowledged w (.error e w)
  | settledAlready {stored : StoredIntent} {e : String}
      (present : d.store.getIntent w.store intentId = some stored)
      (closed : stored.status ≠ .pending) :
      ApproveRun d src now intentId rationale acknowledged w (.error e w)
  | haltUnrecorded {stored : StoredIntent} {halt e : String} {w' : World σ}
      (present : d.store.getIntent w.store intentId = some stored)
      (pending : stored.status = .pending)
      (halts : haltReason d w.store = some halt)
      (recorded : record d .paymentHalted (haltPayload intentId "operator_approval" halt)
        now w = .error e w') :
      ApproveRun d src now intentId rationale acknowledged w (.error e w')
  | halted {stored : StoredIntent} {halt : String} {w' : World σ}
      (present : d.store.getIntent w.store intentId = some stored)
      (pending : stored.status = .pending)
      (halts : haltReason d w.store = some halt)
      (recorded : record d .paymentHalted (haltPayload intentId "operator_approval" halt)
        now w = .ok () w') :
      ApproveRun d src now intentId rationale acknowledged w
        (.ok (.done { intentId, status := .blocked, decision := haltDecision halt }) w')
  | undecided {stored : StoredIntent} {e : String}
      (present : d.store.getIntent w.store intentId = some stored)
      (pending : stored.status = .pending)
      (runs : haltReason d w.store = none)
      (decides : evaluateGate stored.intent
        (context d src w.store now stored.intent none) = .error e) :
      ApproveRun d src now intentId rationale acknowledged w (.error e w)
  | unrecorded {stored : StoredIntent} {decision : GateDecision} {e : String}
      {w' : World σ}
      (present : d.store.getIntent w.store intentId = some stored)
      (pending : stored.status = .pending)
      (runs : haltReason d w.store = none)
      (decides : evaluateGate stored.intent
        (context d src w.store now stored.intent none) = .ok decision)
      (recorded : record d .gateDecision
        (approvalPayload intentId rationale acknowledged decision) now w = .error e w') :
      ApproveRun d src now intentId rationale acknowledged w (.error e w')
  | unblocked {stored : StoredIntent} {decision : GateDecision} {e : String}
      {w₁ : World σ}
      (present : d.store.getIntent w.store intentId = some stored)
      (pending : stored.status = .pending)
      (runs : haltReason d w.store = none)
      (decides : evaluateGate stored.intent
        (context d src w.store now stored.intent none) = .ok decision)
      (recorded : record d .gateDecision
        (approvalPayload intentId rationale acknowledged decision) now w = .ok () w₁)
      (blocks : decision.outcome = .block)
      (updated : d.store.updateIntent w₁.store intentId
        { status := some .blocked, reasons := some decision.reasons } = .error e) :
      ApproveRun d src now intentId rationale acknowledged w (.error e w₁)
  | blocked {stored : StoredIntent} {decision : GateDecision} {w₁ w₂ : World σ} {store : σ}
      (present : d.store.getIntent w.store intentId = some stored)
      (pending : stored.status = .pending)
      (runs : haltReason d w.store = none)
      (decides : evaluateGate stored.intent
        (context d src w.store now stored.intent none) = .ok decision)
      (recorded : record d .gateDecision
        (approvalPayload intentId rationale acknowledged decision) now w = .ok () w₁)
      (blocks : decision.outcome = .block)
      (updated : d.store.updateIntent w₁.store intentId
        { status := some .blocked, reasons := some decision.reasons } = .ok store)
      (counted : recordOutcome d .bad { w₁ with store := store } = .ok () w₂) :
      ApproveRun d src now intentId rationale acknowledged w
        (.ok (.done { intentId, status := .blocked, decision }) w₂)
  | challenged {stored : StoredIntent} {decision : GateDecision} {w₁ : World σ}
      (present : d.store.getIntent w.store intentId = some stored)
      (pending : stored.status = .pending)
      (runs : haltReason d w.store = none)
      (decides : evaluateGate stored.intent
        (context d src w.store now stored.intent none) = .ok decision)
      (recorded : record d .gateDecision
        (approvalPayload intentId rationale acknowledged decision) now w = .ok () w₁)
      (passes : decision.outcome ≠ .block)
      (challenges : (requiresChallenge d stored.intent decision && !acknowledged) = true) :
      ApproveRun d src now intentId rationale acknowledged w
        (.ok (.done
          { intentId, status := .pending, decision
            challenge := some (challengeFor d stored.intent decision) }) w₁)
  | authorized {stored : StoredIntent} {decision : GateDecision} {w₁ : World σ}
      (present : d.store.getIntent w.store intentId = some stored)
      (pending : stored.status = .pending)
      (runs : haltReason d w.store = none)
      (decides : evaluateGate stored.intent
        (context d src w.store now stored.intent none) = .ok decision)
      (recorded : record d .gateDecision
        (approvalPayload intentId rationale acknowledged decision) now w = .ok () w₁)
      (passes : decision.outcome ≠ .block)
      (unchallenged : (requiresChallenge d stored.intent decision && !acknowledged) = false) :
      ApproveRun d src now intentId rationale acknowledged w
        (.ok (.awaiting (settle d .approve intentId stored.intent now decision)) w₁)

theorem approve_run (d : ExecutorDeps σ) (src : Sources) (now intentId rationale : String)
    (acknowledged : Bool) (w : World σ) :
    ApproveRun d src now intentId rationale acknowledged w
      (approve d src now intentId rationale acknowledged w) := by
  unfold approve
  rw [get_bind]
  simp only [bind]
  cases hget : d.store.getIntent w.store intentId with
  | none => exact .missing hget
  | some stored =>
      simp only
      by_cases hpending : stored.status = .pending
      · rw [if_neg (not_not_intro hpending)]
        cases hhalt : haltReason d w.store with
        | some halt =>
            simp only [EStateM.bind]
            cases hrec : record d .paymentHalted
              (haltPayload intentId "operator_approval" halt) now w with
            | error e w' => exact .haltUnrecorded hget hpending hhalt hrec
            | ok u w' => exact .halted hget hpending hhalt hrec
        | none =>
            simp only [EStateM.bind, eval]
            cases hdec : evaluateGate stored.intent
              (context d src w.store now stored.intent none) with
            | error e => exact .undecided hget hpending hhalt hdec
            | ok decision =>
                simp only
                cases hrec : record d .gateDecision
                  (approvalPayload intentId rationale acknowledged decision) now w with
                | error e w' => exact .unrecorded hget hpending hhalt hdec hrec
                | ok u w₁ =>
                    simp only
                    by_cases hblock : decision.outcome = .block
                    · rw [if_pos hblock]
                      simp only [EStateM.bind, write]
                      cases hupd : d.store.updateIntent w₁.store intentId
                        { status := some .blocked, reasons := some decision.reasons } with
                      | error e =>
                          exact .unblocked hget hpending hhalt hdec hrec hblock hupd
                      | ok store =>
                          exact .blocked hget hpending hhalt hdec hrec hblock hupd rfl
                    · rw [if_neg hblock]
                      by_cases hch :
                        (requiresChallenge d stored.intent decision && !acknowledged) = true
                      · rw [if_pos hch]
                        exact .challenged hget hpending hhalt hdec hrec hblock hch
                      · rw [if_neg hch]
                        exact .authorized hget hpending hhalt hdec hrec hblock
                          (Bool.eq_false_iff.2 hch)
      · rw [if_pos hpending]
        exact .settledAlready hget hpending

/-- The runs of the `try` block of `settle` once the rail has returned: four
ways to throw after the money has moved, and one to book it. -/
inductive BookRun (d : ExecutorDeps σ) (intent : PaymentIntent) (receipt : Receipt)
    (verified : Except String Bool) (w : World σ) :
    EStateM.Result String (World σ) (Receipt × Bool) → Prop
  | refused {e : String} (inserted : d.store.insertReceipt w.store receipt = .error e) :
      BookRun d intent receipt verified w (.error e w)
  | unrecorded {store : σ} {e : String} {w' : World σ}
      (inserted : d.store.insertReceipt w.store receipt = .ok store)
      (recorded : record d .paymentSettled (settledPayload intent receipt) receipt.settledAt
        { w with store := store } = .error e w') :
      BookRun d intent receipt verified w (.error e w')
  | unverified {store : σ} {e : String} {w₁ : World σ}
      (inserted : d.store.insertReceipt w.store receipt = .ok store)
      (recorded : record d .paymentSettled (settledPayload intent receipt) receipt.settledAt
        { w with store := store } = .ok () w₁)
      (verifies : verified = .error e) :
      BookRun d intent receipt verified w (.error e w₁)
  | unconfirmed {store : σ} {ok : Bool} {e : String} {w₁ w' : World σ}
      (inserted : d.store.insertReceipt w.store receipt = .ok store)
      (recorded : record d .paymentSettled (settledPayload intent receipt) receipt.settledAt
        { w with store := store } = .ok () w₁)
      (verifies : verified = .ok ok)
      (confirmed : record d .paymentVerified (verifiedPayload intent receipt ok)
        receipt.settledAt w₁ = .error e w') :
      BookRun d intent receipt verified w (.error e w')
  | booked {store : σ} {ok : Bool} {w₁ w₂ : World σ}
      (inserted : d.store.insertReceipt w.store receipt = .ok store)
      (recorded : record d .paymentSettled (settledPayload intent receipt) receipt.settledAt
        { w with store := store } = .ok () w₁)
      (verifies : verified = .ok ok)
      (confirmed : record d .paymentVerified (verifiedPayload intent receipt ok)
        receipt.settledAt w₁ = .ok () w₂) :
      BookRun d intent receipt verified w (.ok (receipt, ok) w₂)

theorem book_run (d : ExecutorDeps σ) (intent : PaymentIntent) (receipt : Receipt)
    (verified : Except String Bool) (w : World σ) :
    BookRun d intent receipt verified w (book d intent receipt verified w) := by
  unfold book
  simp only [bind, EStateM.bind, write]
  cases hins : d.store.insertReceipt w.store receipt with
  | error e => exact .refused hins
  | ok store =>
      simp only
      cases hrec : record d .paymentSettled (settledPayload intent receipt)
        receipt.settledAt { w with store := store } with
      | error e w' => exact .unrecorded hins hrec
      | ok u w₁ =>
          simp only [eval]
          cases hver : verified with
          | error e => exact .unverified hins hrec rfl
          | ok ok =>
              simp only
              cases hconf : record d .paymentVerified (verifiedPayload intent receipt ok)
                receipt.settledAt w₁ with
              | error e w' => exact .unconfirmed hins hrec rfl hconf
              | ok u w₂ => exact .booked hins hrec rfl hconf

/-- A throw inside the `try` block is a failed payment. -/
theorem settleReturned_eq (d : ExecutorDeps σ) (intent : PaymentIntent) (now : String)
    (receipt : Receipt) (verified : Except String Bool) (w : World σ) :
    settleReturned d intent now receipt verified w =
      match book d intent receipt verified w with
      | .ok r w' => .ok (.ok r) w'
      | .error e w' => settleFailed d intent now e w' := by
  rw [settleReturned, tryCatch_apply]
  simp only [bind, EStateM.bind]
  cases book d intent receipt verified w <;> rfl

/-- The store's answer to the outcome of a settlement. -/
def filing (d : ExecutorDeps σ) (call : Call) (outcome : Except String (Receipt × Bool))
    (store : σ) : Except String σ :=
  match call.entry with
  | .execute => d.store.insertIntent store (executedIntent call outcome)
  | .approve => d.store.updateIntent store call.intentId (approvedUpdate outcome)

/-- `finish` files the outcome, then counts it. -/
theorem finish_cases (d : ExecutorDeps σ) (call : Call)
    (outcome : Except String (Receipt × Bool)) (w : World σ) :
    (∃ e, filing d call outcome w.store = .error e ∧ finish d call outcome w = .error e w) ∨
    ∃ store w', filing d call outcome w.store = .ok store ∧
      recordOutcome d (settlementKind outcome) { w with store := store } = .ok () w' ∧
      finish d call outcome w = .ok (settlementResult call outcome) w' := by
  unfold finish filing
  cases hentry : call.entry with
  | execute =>
      simp only [bind, EStateM.bind, write]
      cases hfile : d.store.insertIntent w.store (executedIntent call outcome) with
      | error e => exact Or.inl ⟨e, rfl, rfl⟩
      | ok store => exact Or.inr ⟨store, _, rfl, rfl, rfl⟩
  | approve =>
      simp only [bind, EStateM.bind, write]
      cases hfile : d.store.updateIntent w.store call.intentId (approvedUpdate outcome) with
      | error e => exact Or.inl ⟨e, rfl, rfl⟩
      | ok store => exact Or.inr ⟨store, _, rfl, rfl, rfl⟩

@[simp] theorem executedIntent_id (call : Call) (outcome : Except String (Receipt × Bool)) :
    (executedIntent call outcome).id = call.intent.id := by
  cases outcome <;> rfl

/-- The amount a refund call asks for, and the check it has to pass. -/
def refundAmount (stored : StoredIntent) (amountMinor : Option JsNumber) : JsNumber :=
  amountMinor.getD (stored.intent.amount - stored.refundedMinor.getD 0)

def badRefund (stored : StoredIntent) (amountMinor : Option JsNumber) : Prop :=
  refundAmount stored amountMinor ≤ 0 ∨
    stored.intent.amount <
      stored.refundedMinor.getD 0 + refundAmount stored amountMinor

instance (stored : StoredIntent) (amountMinor : Option JsNumber) :
    Decidable (badRefund stored amountMinor) := inferInstanceAs (Decidable (_ ∨ _))

/-- **When a refund reaches a rail**, and with what. -/
theorem refund_awaiting_iff (d : ExecutorDeps σ) (now : String) (reason : Option String)
    {store : σ} {intentId : String} {amountMinor : Option JsNumber} {call : RefundCall} :
    refund d store now intentId amountMinor reason = .ok (.awaiting call) ↔
      ∃ stored receipt provider, d.store.getIntent store intentId = some stored ∧
        stored.status = .settled ∧ storedReceipt d store stored = some receipt ∧
        refundProvider d receipt stored.intent.rail = some provider ∧
        provider.capabilities.reversibility = .reversible ∧ provider.canRefund = true ∧
        ¬ badRefund stored amountMinor ∧
        call =
          { intentId
            provider
            receipt
            already := stored.refundedMinor.getD 0
            amount := refundAmount stored amountMinor
            reason
            now } := by
  unfold refund
  cases hget : d.store.getIntent store intentId with
  | none => simp
  | some stored =>
      by_cases hstatus : stored.status = .settled
      · cases hreceipt : storedReceipt d store stored with
        | none => simp [hstatus, hreceipt]
        | some receipt =>
            cases hprov : refundProvider d receipt stored.intent.rail with
            | none => simp [hstatus, hreceipt, hprov]
            | some provider =>
                by_cases hrev : provider.capabilities.reversibility = .reversible
                · by_cases hcan : provider.canRefund = true
                  · simp only [hstatus, hreceipt, hprov, hrev, hcan, ne_eq, not_true_eq_false,
                      if_false, Bool.true_eq_false]
                    by_cases hbad : badRefund stored amountMinor
                    · have hif := hbad
                      unfold badRefund refundAmount at hif
                      rw [if_pos hif]
                      simp [hbad]
                    · have hif := hbad
                      unfold badRefund refundAmount at hif
                      rw [if_neg hif]
                      constructor
                      · intro h
                        cases h
                        exact ⟨stored, receipt, provider, rfl, hstatus, hreceipt, hprov,
                          hrev, hcan, hbad, rfl⟩
                      · rintro ⟨x, r, p, ⟨⟩, -, hr, hp, -, -, -, rfl⟩
                        rw [hreceipt] at hr
                        cases hr
                        rw [hprov] at hp
                        cases hp
                        rfl
                  · simp [hstatus, hreceipt, hprov, hrev, hcan]
                · simp [hstatus, hreceipt, hprov, hrev]
      · simp [hstatus]

/-- A store operation followed by its audit record. -/
theorem write_record_cases (d : ExecutorDeps σ) (f : σ → Except String σ)
    (type : AuditEventType) (payload : JsValue) (ts : String) (w : World σ) :
    (∃ e, (do write f; record d type payload ts) w = .error e w) ∨
    ∃ store, f w.store = .ok store ∧
      (do write f; record d type payload ts) w =
        record d type payload ts { w with store := store } := by
  simp only [bind, EStateM.bind, write]
  cases f w.store with
  | error e => exact Or.inl ⟨e, rfl⟩
  | ok store => exact Or.inr ⟨store, rfl, rfl⟩

end AgentWorth
