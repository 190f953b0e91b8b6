import AgentWorth.Compliance.Confirmed

/-!
# The blocked bucket

The report folds the decisions that say `block`.  A refusal by the kill switch
or the breaker is recorded as a halt and is not counted; a refused approval is
counted without its amount.
-/

namespace AgentWorth

open AgentWorth.Js AgentWorth.Lib

variable {σ : Type} {d : ExecutorDeps σ}

/-! ## What the bucket is for -/

/-- A call returns with its payment blocked. -/
def Event.refuses : Event → Bool
  | .returned result => result.status == .blocked
  | .finished _ result => result.status == .blocked
  | _ => false

/-- A step in which `execute` or `approve` refuses its payment. -/
def refusesPayment (t : Step (State σ) Action Event) : Bool := t.events.any Event.refuses

/-- The payment that was refused: the one given to `execute`, the stored one of
an approval. -/
def refusedIntent (d : ExecutorDeps σ) (t : Step (State σ) Action Event) :
    Option PaymentIntent :=
  if refusesPayment t then
    match t.action with
    | .execute _ _ intent _ => some intent
    | .approve _ _ intentId _ _ =>
        (d.store.getIntent t.before.world.store intentId).map StoredIntent.intent
    | _ => none
  else none

/-- The payments that the calls of a run refused, in order. -/
def refusals (d : ExecutorDeps σ) (steps : List (Step (State σ) Action Event)) :
    List PaymentIntent :=
  steps.filterMap (refusedIntent d)

/-- The payment that an `execute` call refused. -/
def executeRefusal (t : Step (State σ) Action Event) : Option PaymentIntent :=
  match t.action with
  | .execute _ _ intent _ => if refusesPayment t then some intent else none
  | _ => none

/-! ## Steps that the bucket gets wrong -/

/-- The store keeps the blocked intent, once its entry is on the chain. -/
def filesBlocked (d : ExecutorDeps σ) (type : AuditEventType) (payload : JsValue) (now : String)
    (x : StoredIntent) (w : World σ) : Bool :=
  match record d type payload now w with
  | .ok _ w' => (d.store.insertIntent w'.store x).isOk
  | .error _ _ => false

/-- `execute` or `approve` is halted and says so, or `execute` decides to block
and cannot file it. -/
def misreports (d : ExecutorDeps σ) (s : State σ) : Action → Bool
  | .execute now src intent attestation =>
      match haltReason d s.world.store with
      | some halt =>
          filesBlocked d .paymentHalted (haltPayload intent.id "agent" halt) now
            (unsettled intent .blocked none (haltDecision halt).reasons) s.world
      | none =>
          match agentDecision d src s.world now intent attestation,
            replayInputs d src s.world.store now intent attestation with
          | .ok decision, .ok inputs =>
              decision.outcome == .block &&
                !filesBlocked d .gateDecision (agentPayload d intent decision inputs) now
                  (unsettled intent .blocked decision.mandateId decision.reasons) s.world
          | _, _ => false
  | .approve _ _ intentId _ _ =>
      (haltReason d s.world.store).isSome &&
        (d.store.getIntent s.world.store intentId).any fun x => x.status == .pending
  | _ => false

/-- The gate blocks a pending intent that is being approved. -/
def blocksApproval (d : ExecutorDeps σ) (s : State σ) : Action → Bool
  | .approve now src intentId _ _ =>
      (d.store.getIntent s.world.store intentId).any fun x =>
        x.status == .pending &&
          (evaluateGate x.intent
            (context d src s.world.store now x.intent none)).toOption.any (·.outcome == .block)
  | _ => false

/-! ## One step -/

/-- A decision to block. -/
def blockDecision (e : AuditEntry) : Bool :=
  e.type == .gateDecision && disposition e.payload == some .blocked

/-- The step refuses a payment and records a decision to block, or does
neither; the decision carries the payment where `execute` refused it. -/
inductive Balanced (d : ExecutorDeps σ) (t : Step (State σ) Action Event) : Prop
  | passed (passes : refusesPayment t = false) (records : (appended t).filter blockDecision = [])
  | refused {intent : PaymentIntent} {e : AuditEntry} (refuses : refusesPayment t = true)
      (known : executeRefusal t = some intent)
      (records : (appended t).filter blockDecision = [e])
      (priced : ∀ bucket, addDecision bucket e =
        addToBucket bucket (.num intent.amount) (.str intent.currency))
  | approvalRefused {e : AuditEntry} (refuses : refusesPayment t = true)
      (unknown : executeRefusal t = none) (records : (appended t).filter blockDecision = [e])
      (unpriced : e.payload.get "intent" = .undefined)

section Steps

variable {s s' : State σ} {a : Action} {es : List Event}

theorem Balanced.of_appends (h : Appends (fun e => blockDecision e = false) s.world s'.world)
    (hpasses : es.any Event.refuses = false) : Balanced d ⟨s, a, es, s'⟩ := by
  obtain ⟨added, hentries, hadded⟩ := h
  refine .passed hpasses ?_
  rw [appended_eq added hentries, List.filter_eq_nil_iff]
  intro e he
  rw [hadded e he]
  exact Bool.false_ne_true

/-- A record that is no decision to block. -/
theorem record_passes {type : AuditEventType} {payload : JsValue} {now : String} {w : World σ}
    (h : type = .gateDecision →
      disposition (stamped d w.store .gateDecision payload) ≠ some .blocked) :
    Appends (fun e => blockDecision e = false) w (stateAfter (record d type payload now w)) := by
  refine record_appends fun e htype hpayload _ => ?_
  unfold blockDecision
  by_cases hdecision : type = .gateDecision
  · have hblocks := h hdecision
    subst hdecision
    rw [hpayload]
    simp [hblocks]
  · simp [htype, hdecision]

theorem passes_agentPayload {w : World σ} {intent : PaymentIntent} {decision : GateDecision}
    {inputs : ReplayInputs} (hpasses : decision.outcome ≠ .block) :
    disposition (stamped d w.store .gateDecision (agentPayload d intent decision inputs)) ≠
      some .blocked := by
  rw [disposition_agentPayload]
  cases hout : decision.outcome with
  | block => exact absurd hout hpasses
  | _ => simp [GateOutcome.disposition]

theorem passes_approvalPayload {w : World σ} {intentId rationale : String}
    {acknowledged : Bool} {decision : GateDecision} (hpasses : decision.outcome ≠ .block) :
    disposition (stamped d w.store .gateDecision
      (approvalPayload intentId rationale acknowledged decision)) ≠ some .blocked := by
  rw [disposition_approvalPayload]
  cases hout : decision.outcome with
  | block => exact absurd hout hpasses
  | _ => simp [GateOutcome.disposition]

/-- `execute` in a step that reports its refusal. -/
theorem execute_balanced (C : Contract d.store) {src : Sources} {now : String}
    {intent : PaymentIntent} {attestation : Option Attestation}
    (hcond : misreports d s (.execute now src intent attestation) = false)
    (heq : s.started (execute d src now intent attestation s.world) = (s', es)) :
    Balanced d ⟨s, .execute now src intent attestation, es, s'⟩ := by
  have hhalts : ∀ {halt : String} {r : EStateM.Result String (World σ) Unit},
      record d .paymentHalted (haltPayload intent.id "agent" halt) now s.world = r →
      Appends (fun e => blockDecision e = false) s.world (stateAfter r) := by
    intro halt r hrecord
    rw [← hrecord]
    exact record_passes (by simp)
  have hrecords : ∀ {decision : GateDecision} {inputs : ReplayInputs}
      {r : EStateM.Result String (World σ) Unit}, decision.outcome ≠ .block →
      record d .gateDecision (agentPayload d intent decision inputs) now s.world = r →
      Appends (fun e => blockDecision e = false) s.world (stateAfter r) := by
    intro decision inputs r hpasses hrecord
    rw [← hrecord]
    exact record_passes fun _ => passes_agentPayload hpasses
  have hrun := execute_run d src now intent attestation s.world
  generalize execute d src now intent attestation s.world = r at hrun heq
  cases hrun with
  | haltUnrecorded halts recorded =>
      cases heq
      exact .of_appends (hhalts recorded) rfl
  | haltUnfiled halts recorded filed =>
      cases heq
      exact .of_appends (hhalts recorded) rfl
  | halted halts recorded filed =>
      simp [misreports, halts, filesBlocked, recorded, filed, Except.isOk, Except.toBool] at hcond
  | undecided runs decides =>
      cases heq
      exact .of_appends (.refl _) rfl
  | uncaptured runs decides captures =>
      cases heq
      exact .of_appends (.refl _) rfl
  | @unrecorded decision inputs e w' runs decides captures recorded =>
      cases heq
      have hpasses : decision.outcome ≠ .block := by
        intro hblock
        simp [misreports, runs, decides, captures, hblock, filesBlocked, recorded] at hcond
      exact .of_appends (hrecords hpasses recorded) rfl
  | @unfiled decision inputs e w₁ runs decides captures recorded parks filed =>
      cases heq
      have hpasses : decision.outcome ≠ .block := by
        intro hblock
        rw [hblock] at filed
        simp only [GateOutcome.parkedStatus] at filed
        simp [misreports, runs, decides, captures, hblock, filesBlocked, recorded, filed,
          Except.isOk, Except.toBool] at hcond
      exact .of_appends (hrecords hpasses recorded) rfl
  | @blocked decision inputs w₁ w₂ store runs decides captures recorded blocks filed counted =>
      cases heq
      cases counted
      obtain ⟨e, hentries, htype, hpayload, -⟩ := (record_ok C recorded).entries
      have hblock : blockDecision e = true := by
        unfold blockDecision
        rw [htype, hpayload, disposition_agentPayload, blocks]
        rfl
      refine @Balanced.refused σ d _ intent e rfl rfl ?_ ?_
      · rw [appended_eq [e] hentries]
        simp [hblock]
      · exact fun bucket => addDecision_agentPayload hpayload
  | parked runs decides captures recorded confirms filed =>
      cases heq
      exact .of_appends (hrecords (by simp [confirms]) recorded) rfl
  | authorized runs decides captures recorded automatic =>
      have h := hrecords (by simp [automatic]) recorded
      cases heq
      refine .of_appends h ?_
      split <;> rfl

/-- `approve` in a step that no halt refuses. -/
theorem approve_balanced (C : Contract d.store) (hsync : Synced C s.world) {src : Sources}
    {now intentId rationale : String} {acknowledged : Bool}
    (hcond : misreports d s (.approve now src intentId rationale acknowledged) = false)
    (heq : s.started (approve d src now intentId rationale acknowledged s.world) = (s', es)) :
    Balanced d ⟨s, .approve now src intentId rationale acknowledged, es, s'⟩ := by
  have hrunning : ∀ {x : StoredIntent} {halt : String},
      d.store.getIntent s.world.store intentId = some x → x.status = .pending →
      haltReason d s.world.store ≠ some halt := by
    intro x halt hpresent hpending hhalt
    simp [misreports, hpresent, hpending, hhalt] at hcond
  have hrecords : ∀ {decision : GateDecision} {r : EStateM.Result String (World σ) Unit},
      decision.outcome ≠ .block →
      record d .gateDecision (approvalPayload intentId rationale acknowledged decision) now
        s.world = r →
      Appends (fun e => blockDecision e = false) s.world (stateAfter r) := by
    intro decision r hpasses hrecord
    rw [← hrecord]
    exact record_passes fun _ => passes_approvalPayload hpasses
  have hrun := approve_run d src now intentId rationale acknowledged s.world
  generalize approve d src now intentId rationale acknowledged s.world = r at hrun heq
  cases hrun with
  | missing absent =>
      cases heq
      exact .of_appends (.refl _) rfl
  | settledAlready present closed =>
      cases heq
      exact .of_appends (.refl _) rfl
  | haltUnrecorded present pending halts recorded => exact absurd halts (hrunning present pending)
  | halted present pending halts recorded => exact absurd halts (hrunning present pending)
  | undecided present pending runs decides =>
      cases heq
      exact .of_appends (.refl _) rfl
  | unrecorded present pending runs decides recorded =>
      exact absurd hsync (record_error C rfl recorded).2.1
  | @unblocked x decision e w₁ present pending runs decides recorded blocks updated =>
      rw [C.getIntent, ← (record_ok C recorded).same.intents] at present
      obtain ⟨store, hstore⟩ := C.updateIntent_found w₁.store intentId
        { status := some .blocked, reasons := some decision.reasons } x present (by simp)
      rw [hstore] at updated
      cases updated
  | blocked present pending runs decides recorded blocks updated counted =>
      cases heq
      cases counted
      obtain ⟨e, hentries, htype, hpayload, -⟩ := (record_ok C recorded).entries
      have hblock : blockDecision e = true := by
        unfold blockDecision
        rw [htype, hpayload, disposition_approvalPayload, blocks]
        rfl
      refine @Balanced.approvalRefused σ d _ e rfl rfl ?_ ?_
      · rw [appended_eq [e] hentries]
        simp [hblock]
      · rw [hpayload]
        exact intent_approvalPayload _ _ _ _ _
  | challenged present pending runs decides recorded passes challenges =>
      cases heq
      exact .of_appends (hrecords passes recorded) rfl
  | authorized present pending runs decides recorded passes unchallenged =>
      have h := hrecords passes recorded
      cases heq
      refine .of_appends h ?_
      split <;> rfl

/-- `approve` returns no refusal where neither a halt nor the gate refuses. -/
theorem approve_passes {src : Sources} {now intentId rationale : String} {acknowledged : Bool}
    (hcond : misreports d s (.approve now src intentId rationale acknowledged) = false)
    (hpasses : blocksApproval d s (.approve now src intentId rationale acknowledged) = false)
    (heq : s.started (approve d src now intentId rationale acknowledged s.world) = (s', es)) :
    es.any Event.refuses = false := by
  have hrun := approve_run d src now intentId rationale acknowledged s.world
  generalize approve d src now intentId rationale acknowledged s.world = r at hrun heq
  cases hrun with
  | halted present pending halts recorded =>
      simp [misreports, present, pending, halts] at hcond
  | blocked present pending runs decides recorded blocks updated counted =>
      simp [blocksApproval, present, pending, decides, blocks, Except.toOption] at hpasses
  | authorized present pending runs decides recorded passes unchallenged =>
      cases heq
      split <;> rfl
  | _ =>
      cases heq
      rfl

/-- A segment that ends its call refuses nothing, if its last event does not. -/
theorem passes_conclude {α : Type} (s₀ : State σ) (ended : α → List Event)
    (r : EStateM.Result String (World σ) α)
    (h : ∀ a w, r = .ok a w → (ended a).any Event.refuses = false) :
    (s₀.conclude ended r).2.any Event.refuses = false := by
  cases r with
  | ok a w => exact h a w rfl
  | error e w => rfl

theorem passes_answered (s₀ : State σ) (k : Nat) (call : Call) {answer : Event}
    (h : answer.refuses = false)
    (r : EStateM.Result String (World σ) (Except String (Receipt × Bool))) :
    (s₀.answered k call answer r).2.any Event.refuses = false := by
  cases r with
  | ok outcome w => simp [State.answered, h]
  | error e w =>
      have hthrew : (Event.threw e).refuses = false := rfl
      simp [State.answered, h, hthrew]

/-- A settlement that comes back is settled or failed, never blocked. -/
theorem passes_finished {call : Call} {outcome : Except String (Receipt × Bool)}
    {w w' : World σ} {result : ExecuteResult} (h : finish d call outcome w = .ok result w') :
    (Event.finished call result).refuses = false := by
  rcases finish_cases d call outcome w with ⟨e, -, hfin⟩ | ⟨store, w₁, -, -, hfin⟩
  · rw [hfin] at h
    cases h
  · rw [hfin] at h
    cases h
    cases outcome <;> rfl

/-- Only `execute` and `approve` refuse payments. -/
theorem others_pass (htaken : step d s a = some (s', es))
    (hexecute : ∀ now src intent attestation, a ≠ .execute now src intent attestation)
    (happrove : ∀ now src intentId rationale acknowledged,
      a ≠ .approve now src intentId rationale acknowledged) :
    es.any Event.refuses = false := by
  have hcontrol : ∀ {s₀ : State σ} {r : EStateM.Result String (World σ) Unit},
      some (s₀.conclude (fun _ => []) r) = some (s', es) → es.any Event.refuses = false := by
    intro s₀ r heq
    have h := passes_conclude s₀ (fun _ => []) r fun _ _ _ => rfl
    rwa [Option.some.inj heq] at h
  cases a with
  | execute now src intent attestation => exact absurd rfl (hexecute _ _ _ _)
  | approve now src intentId rationale acknowledged => exact absurd rfl (happrove _ _ _ _ _)
  | railReturns k receipt verified =>
      obtain ⟨⟨call, provider⟩, -, heq⟩ := Option.map_eq_some_iff.1 htaken
      simp only at heq
      have h := passes_answered s k call
        (show (Event.railSettled call provider receipt).refuses = false from rfl)
        (settleReturned d call.intent call.now (issuedBy provider receipt) verified s.world)
      rwa [heq] at h
  | railThrows k error =>
      obtain ⟨⟨call, provider⟩, -, heq⟩ := Option.map_eq_some_iff.1 htaken
      simp only at heq
      have h := passes_answered s k call
        (show (Event.railFailed call error).refuses = false from rfl)
        (settleFailed d call.intent call.now error s.world)
      rwa [heq] at h
  | resume k =>
      obtain ⟨⟨call, outcome⟩, -, heq⟩ := Option.map_eq_some_iff.1 htaken
      simp only at heq
      have h := passes_conclude { s with calls := s.calls.eraseIdx k }
        (fun r => [.finished call r]) (finish d call outcome s.world)
        fun result w hfin => by simp [passes_finished hfin]
      rwa [heq] at h
  | refund now intentId amountMinor reason =>
      simp only [step] at htaken
      split at htaken <;> cases htaken <;> rfl
  | refundReturns k refundRef =>
      obtain ⟨call, -, heq⟩ := Option.map_eq_some_iff.1 htaken
      have h := passes_conclude { s with refunds := s.refunds.eraseIdx k }
        (fun r => [.refundFinished r]) (refundReturned d call refundRef s.world)
        fun _ _ _ => rfl
      cases heq
      exact h
  | refundThrows k error =>
      obtain ⟨call, -, heq⟩ := Option.map_eq_some_iff.1 htaken
      cases heq
      rfl
  | grantMandate now m => exact hcontrol htaken
  | revokeMandate now id => exact hcontrol htaken
  | amendMandate now id patch => exact hcontrol htaken
  | extendMandate now id expiresAt => exact hcontrol htaken
  | engageKillSwitch => exact hcontrol htaken
  | disengageKillSwitch => exact hcontrol htaken
  | resetCircuitBreaker => exact hcontrol htaken

/-- **A step that meets the condition** refuses a payment and records it, or does
neither. -/
theorem step_balanced (C : Contract d.store) (hsync : Synced C s.world)
    (hcond : misreports d s a = false)
    (htaken : step d s a = some (s', es)) : Balanced d ⟨s, a, es, s'⟩ := by
  have hother : (∀ now src intent attestation, a ≠ .execute now src intent attestation) →
      (∀ now src intentId rationale acknowledged,
        a ≠ .approve now src intentId rationale acknowledged) →
      Balanced d ⟨s, a, es, s'⟩ := by
    intro hexecute happrove
    refine .of_appends ((entries_of_step htaken).mono fun e hentry => ?_)
      (others_pass htaken hexecute happrove)
    have hundecided : e.type ≠ .gateDecision → blockDecision e = false := by
      intro h
      simp [blockDecision, h]
    cases hentry with
    | halted type => exact hundecided (by simp [type])
    | decided decided => exact absurd rfl (hexecute _ _ _ _)
    | approvalHalted type => exact hundecided (by simp [type])
    | approved _ approved => exact absurd rfl (happrove _ _ _ _ _)
    | settled _ type => exact hundecided (by simp [type])
    | other _ undecided => exact hundecided undecided
  cases a with
  | execute now src intent attestation =>
      exact execute_balanced C hcond (Option.some.inj htaken)
  | approve now src intentId rationale acknowledged =>
      exact approve_balanced C hsync hcond (Option.some.inj htaken)
  | _ => exact hother (by simp) (by simp)

end Steps

/-! ## Runs -/

/-- The report of a state holds, as blocked, the calls that refused a payment,
with the amounts they refused. -/
def BlockedExact (d : ExecutorDeps σ) (period : ReportPeriod)
    (steps : List (Step (State σ) Action Event)) (s : State σ) : Prop :=
  ∀ mandates integrity, ∃ report,
    deployerOversightReport
      { audit := s.world.audit.entries, mandates, integrity, period } = some report ∧
    Tallied report.humanOversight.blocked (steps.filter refusesPayment).length
      (refusals d steps)

/-- Runs whose steps all report their refusals. -/
def ReportsRefusals (d : ExecutorDeps σ) : Guard (State σ) Action Event :=
  fun _ s a => misreports d s a = false

instance (steps : List (Step (State σ) Action Event)) (s : State σ) (a : Action) :
    Decidable (ReportsRefusals d steps s a) := inferInstanceAs (Decidable (_ = _))

section Runs

variable {s₀ s : State σ} {steps : List (Step (State σ) Action Event)}

/-- A decision without an intent is counted and adds to no total. -/
theorem Tallied.addUnpriced {bucket : SpendBucket} {n : Nat} {intents : List PaymentIntent}
    (h : Tallied bucket n intents) {e : AuditEntry}
    (hunpriced : e.payload.get "intent" = .undefined) :
    Tallied (addDecision bucket e) (n + 1) intents := by
  have hadd : addDecision bucket e = { bucket with count := bucket.count + 1 } := by
    unfold addDecision addToBucket
    rw [hunpriced]
    rfl
  rw [hadd]
  exact ⟨by simp [h.count], h.totals⟩

theorem tallied_run (C : Contract d.store) (hsync : Synced C s₀.world)
    (hfresh : s₀.world.audit.entries = [])
    (hrun : (executor d).Run (ReportsRefusals d) s₀ steps s) :
    Tallied (bucketOf (s.world.audit.entries.filter blockDecision))
      (steps.filter refusesPayment).length (steps.filterMap executeRefusal) := by
  have hinv : Synced C s.world ∧
      Tallied (bucketOf (s.world.audit.entries.filter blockDecision))
        (steps.filter refusesPayment).length (steps.filterMap executeRefusal) := by
    refine hrun.invariant (fun steps s => Synced C s.world ∧
      Tallied (bucketOf (s.world.audit.entries.filter blockDecision))
        (steps.filter refusesPayment).length (steps.filterMap executeRefusal)) ⟨hsync, ?_⟩ ?_
    · rw [hfresh]
      exact tallied_empty
    rintro steps s a s' es ⟨hsync, hold⟩ hcond htaken
    refine ⟨(step_effect C htaken).2 hsync, ?_⟩
    obtain ⟨added, hentries, -⟩ := entries_of_step htaken
    have hadded := @appended_eq σ s s' a es added hentries
    rw [hentries, List.filter_append, List.filter_append, List.filterMap_append, ← hadded]
    cases step_balanced C hsync hcond htaken with
    | passed passes records =>
        have hnone : executeRefusal ⟨s, a, es, s'⟩ = none := by
          unfold executeRefusal
          rw [passes]
          split <;> rfl
        simpa [records, hnone, passes] using hold
    | @refused intent e refuses known records priced =>
        rw [records, bucketOf_snoc, priced]
        simpa [refuses, known] using hold.add intent
    | @approvalRefused e refuses unknown records unpriced =>
        rw [records, bucketOf_snoc]
        simpa [refuses, unknown] using hold.addUnpriced unpriced
  exact hinv.2

/-- Where the gate blocks no approval, `execute` refuses what is refused. -/
theorem refusals_eq (hrun : (executor d).Run (ReportsRefusals d) s₀ steps s)
    (happrovals : ∀ t ∈ steps, blocksApproval d t.before t.action = false) :
    refusals d steps = steps.filterMap executeRefusal := by
  have hreports : ∀ t ∈ steps, misreports d t.before t.action = false := by
    refine hrun.invariant (fun steps _ => ∀ t ∈ steps, misreports d t.before t.action = false)
      (by simp) ?_
    intro steps s a s' es hold hcond _ t ht
    rcases List.mem_append.1 ht with h | h
    · exact hold t h
    · rw [List.mem_singleton.1 h]
      exact hcond
  refine List.filterMap_congr fun t ht => ?_
  have htaken := hrun.taken_of_mem ht
  obtain ⟨s, a, es, s'⟩ := t
  cases a with
  | approve now src intentId rationale acknowledged =>
      have hpasses : refusesPayment
          ⟨s, .approve now src intentId rationale acknowledged, es, s'⟩ = false :=
        approve_passes (hreports _ ht) (happrovals _ ht) (Option.some.inj htaken)
      simp [refusedIntent, executeRefusal, hpasses]
  | execute now src intent attestation => rfl
  | _ => simp [refusedIntent, executeRefusal]

end Runs

end AgentWorth
