import AgentWorth.Executor.Effect
import AgentWorth.Executor.Writes

/-!
# What a step appends to the audit chain

Only `execute` appends decisions of the agent phase, one a call, and each holds
the decision it made and the inputs it captured.
-/

namespace AgentWorth

open AgentWorth.Js AgentWorth.Lib

variable {σ : Type} {d : ExecutorDeps σ} {p : AuditEntry → Prop}

/-- The chain grows by entries that satisfy `p`. -/
def Appends (p : AuditEntry → Prop) (w w' : World σ) : Prop :=
  ∃ es, w'.audit.entries = w.audit.entries ++ es ∧ ∀ e ∈ es, p e

theorem Appends.refl (w : World σ) : Appends p w w := ⟨[], by simp, by simp⟩

theorem Appends.trans {w w' w'' : World σ} (h : Appends p w w') (h' : Appends p w' w'') :
    Appends p w w'' := by
  obtain ⟨es, he, hp⟩ := h
  obtain ⟨es', he', hp'⟩ := h'
  refine ⟨es ++ es', by rw [he', he, List.append_assoc], ?_⟩
  intro e hmem
  rcases List.mem_append.1 hmem with h | h
  · exact hp e h
  · exact hp' e h

theorem Appends.mono {q : AuditEntry → Prop} {w w' : World σ} (h : Appends p w w')
    (himp : ∀ e, p e → q e) : Appends q w w' := by
  obtain ⟨es, he, hp⟩ := h
  exact ⟨es, he, fun e hmem => himp e (hp e hmem)⟩

/-- A decision of the agent phase. -/
def AgentDecision (e : AuditEntry) : Prop :=
  e.type = .gateDecision ∧ e.payload.get "phase" = .str "agent"

/-! ## The operations of a segment -/

theorem moves_write (f : σ → Except String σ) : Moves (Appends p) (write f) := by
  intro w
  unfold write
  split <;> exact .refl w

theorem moves_eval {α : Type} (x : Except String α) :
    Moves (Appends p) (eval x : Exec σ α) := by
  intro w
  unfold eval
  split <;> exact .refl w

theorem moves_recordOutcome (kind : OutcomeKind) : Moves (Appends p) (recordOutcome d kind) :=
  fun w => .refl w

theorem record_appends {type : AuditEventType} {payload : JsValue} {ts : String}
    {w : World σ} (h : ∀ e : AuditEntry, e.type = type →
      e.payload = stamped d w.store type payload → e.ts = ts → p e) :
    Appends p w (stateAfter (record d type payload ts w)) := by
  unfold record
  split
  · exact .refl w
  · next entry log happend =>
      obtain ⟨-, hentries, htype, hpayload, hts, -⟩ := appendEntry_ok happend
      have hgrown : ∀ store : σ, Appends p w { store := store, audit := log } := by
        intro store
        refine ⟨[entry], hentries, ?_⟩
        intro e he
        rw [List.mem_singleton.1 he]
        exact h entry htype hpayload hts
      split
      · exact hgrown w.store
      · exact hgrown _

/-- A record satisfies what its type and payload satisfy. -/
theorem moves_record {type : AuditEventType} {payload : JsValue} {ts : String}
    (htype : type ≠ .gateDecision)
    (h : ∀ e : AuditEntry, e.type = type → e.payload = payload → p e) :
    Moves (Appends p) (record d type payload ts) := by
  refine fun w => record_appends fun e he hpayload _ => h e he ?_
  rw [hpayload, stamped, if_neg htype]

/-! ## The entry points -/

theorem moves_settleFailed (intent : PaymentIntent) (now error : String)
    (hfailed : ∀ e : AuditEntry, e.type = .paymentFailed → p e) :
    Moves (Appends p) (settleFailed d intent now error) :=
  .bind .trans (moves_record (by simp) fun e h _ => hfailed e h) fun _ => .pure .refl _

theorem moves_settleReturned (intent : PaymentIntent) (now : String) (receipt : Receipt)
    (verified : Except String Bool)
    (hsettled : ∀ e : AuditEntry, e.type = .paymentSettled →
      e.payload = settledPayload intent receipt → p e)
    (hverified : ∀ e : AuditEntry, e.type = .paymentVerified → p e)
    (hfailed : ∀ e : AuditEntry, e.type = .paymentFailed → p e) :
    Moves (Appends p) (settleReturned d intent now receipt verified) := by
  refine .tryCatch .trans (.bind .trans ?_ fun _ => .pure .refl _)
    (fun _ => moves_settleFailed _ _ _ hfailed)
  exact .bind .trans (moves_write _) fun _ =>
    .bind .trans (moves_record (by simp) hsettled) fun _ =>
    .bind .trans (moves_eval _) fun _ =>
    .bind .trans (moves_record (by simp) fun e h _ => hverified e h) fun _ => .pure .refl _

theorem moves_finish (call : Call) (outcome : Except String (Receipt × Bool)) :
    Moves (Appends p) (finish d call outcome) := by
  unfold finish
  split <;>
    exact .bind .trans (moves_write _) fun _ =>
      .bind .trans (moves_recordOutcome _) fun _ => .pure .refl _

theorem moves_refundReturned (call : RefundCall) (refundRef : String)
    (hrefunded : ∀ e : AuditEntry, e.type = .paymentRefunded → p e) :
    Moves (Appends p) (refundReturned d call refundRef) :=
  .bind .trans (moves_write _) fun _ =>
    .bind .trans (moves_record (by simp) fun e h _ => hrefunded e h) fun _ => .pure .refl _

/-- The operator controls write and record. -/
theorem moves_control {f : σ → Except String σ} {type : AuditEventType} {payload : JsValue}
    {now : String} (htype : type ≠ .gateDecision)
    (h : ∀ e : AuditEntry, e.type = type → p e) :
    Moves (Appends p) (do write f; record d type payload now) :=
  .bind .trans (moves_write _) fun _ => moves_record htype fun e he _ => h e he

/-! ## A step -/

/-- The one decision `execute` appends. -/
structure Decided (d : ExecutorDeps σ) (src : Sources) (now : String)
    (intent : PaymentIntent) (attestation : Option Attestation) (w : World σ)
    (entry : AuditEntry) : Prop where
  recorded : ∃ decision inputs,
    agentDecision d src w now intent attestation = .ok decision ∧
    replayInputs d src w.store now intent attestation = .ok inputs ∧
    entry.payload = stamped d w.store .gateDecision (agentPayload d intent decision inputs)
  type_eq : entry.type = .gateDecision
  ts_eq : entry.ts = now

/-- `execute` appends a halt, or the one decision it made. -/
theorem execute_appends (d : ExecutorDeps σ) (src : Sources) (now : String)
    (intent : PaymentIntent) (attestation : Option Attestation) (w : World σ)
    (hhalt : ∀ (e : AuditEntry) (halt : String), e.type = .paymentHalted →
      e.payload = haltPayload intent.id "agent" halt → haltReason d w.store = some halt → p e)
    (hdecision : ∀ e, Decided d src now intent attestation w e → p e) :
    Appends p w (stateAfter (execute d src now intent attestation w)) := by
  have hhalted : ∀ {halt}, haltReason d w.store = some halt → Appends p w
      (stateAfter (record d .paymentHalted (haltPayload intent.id "agent" halt) now w)) :=
    fun halts => record_appends fun e htype hpayload _ => hhalt e _ htype hpayload halts
  have hdecided : ∀ {decision inputs},
      agentDecision d src w now intent attestation = .ok decision →
      replayInputs d src w.store now intent attestation = .ok inputs →
      Appends p w
        (stateAfter (record d .gateDecision (agentPayload d intent decision inputs) now w)) := by
    intro decision inputs hdecides hcaptures
    exact record_appends fun e htype hpayload hts =>
      hdecision e ⟨⟨decision, inputs, hdecides, hcaptures, hpayload⟩, htype, hts⟩
  have hrun := execute_run d src now intent attestation w
  generalize execute d src now intent attestation w = r at hrun
  cases hrun with
  | haltUnrecorded halts recorded =>
      have h := hhalted halts
      rw [recorded] at h
      exact h
  | haltUnfiled halts recorded filed =>
      have h := hhalted halts
      rw [recorded] at h
      exact h
  | halted halts recorded filed =>
      have h := hhalted halts
      rw [recorded] at h
      exact h
  | undecided runs decides => exact .refl w
  | uncaptured runs decides captures => exact .refl w
  | unrecorded runs decides captures recorded =>
      have h := hdecided decides captures
      rw [recorded] at h
      exact h
  | unfiled runs decides captures recorded parks filed =>
      have h := hdecided decides captures
      rw [recorded] at h
      exact h
  | blocked runs decides captures recorded blocks filed counted =>
      have h := hdecided decides captures
      rw [recorded] at h
      cases counted
      exact h
  | parked runs decides captures recorded confirms filed =>
      have h := hdecided decides captures
      rw [recorded] at h
      exact h
  | authorized runs decides captures recorded automatic =>
      have h := hdecided decides captures
      rw [recorded] at h
      exact h

/-- A record appends one entry at most. -/
theorem record_length_le (type : AuditEventType) (payload : JsValue) (ts : String)
    (w : World σ) :
    (stateAfter (record d type payload ts w)).audit.entries.length ≤
      w.audit.entries.length + 1 := by
  unfold record
  split
  · exact Nat.le_succ _
  · next entry log happend =>
      obtain ⟨-, hentries, -⟩ := appendEntry_ok happend
      have hlength : log.entries.length = w.audit.entries.length + 1 := by
        rw [hentries, List.length_append, List.length_singleton]
      split
      · exact Nat.le_of_eq hlength
      · exact Nat.le_of_eq hlength

/-- `execute` records once at most before its `await`. -/
theorem execute_length_le (d : ExecutorDeps σ) (src : Sources) (now : String)
    (intent : PaymentIntent) (attestation : Option Attestation) (w : World σ) :
    (stateAfter (execute d src now intent attestation w)).audit.entries.length ≤
      w.audit.entries.length + 1 := by
  have hlength : ∀ {r : EStateM.Result String (World σ) Unit} {type payload},
      record d type payload now w = r →
      (stateAfter r).audit.entries.length ≤ w.audit.entries.length + 1 := by
    intro r type payload heq
    rw [← heq]
    exact record_length_le type payload now w
  have hrun := execute_run d src now intent attestation w
  generalize execute d src now intent attestation w = r at hrun
  cases hrun with
  | haltUnrecorded halts recorded => exact hlength recorded
  | haltUnfiled halts recorded filed => exact hlength recorded
  | halted halts recorded filed => exact hlength recorded
  | undecided runs decides => exact Nat.le_succ _
  | uncaptured runs decides captures => exact Nat.le_succ _
  | unrecorded runs decides captures recorded => exact hlength recorded
  | unfiled runs decides captures recorded parks filed => exact hlength recorded
  | blocked runs decides captures recorded blocks filed counted =>
      cases counted
      exact hlength recorded
  | parked runs decides captures recorded confirms filed => exact hlength recorded
  | authorized runs decides captures recorded automatic => exact hlength recorded

/-- The decision an approval appends. -/
def Approved (d : ExecutorDeps σ) (intentId rationale : String) (acknowledged : Bool)
    (w : World σ) (entry : AuditEntry) : Prop :=
  ∃ decision, entry.payload =
    stamped d w.store .gateDecision (approvalPayload intentId rationale acknowledged decision)

/-- `approve` appends, for a pending intent, a halt or the decision it made. -/
theorem approve_appends (d : ExecutorDeps σ) (src : Sources) (now intentId rationale : String)
    (acknowledged : Bool) (w : World σ)
    (hhalt : ∀ (e : AuditEntry) (x : StoredIntent) (halt : String), e.type = .paymentHalted →
      e.payload = haltPayload intentId "operator_approval" halt →
      d.store.getIntent w.store intentId = some x → x.status = .pending →
      haltReason d w.store = some halt → p e)
    (hdecision : ∀ e, e.type = .gateDecision →
      Approved d intentId rationale acknowledged w e → p e) :
    Appends p w (stateAfter (approve d src now intentId rationale acknowledged w)) := by
  have hhalted : ∀ {x : StoredIntent} {halt}, d.store.getIntent w.store intentId = some x →
      x.status = .pending → haltReason d w.store = some halt → Appends p w
        (stateAfter (record d .paymentHalted
          (haltPayload intentId "operator_approval" halt) now w)) :=
    fun present pending halts =>
      record_appends fun e htype hpayload _ => hhalt e _ _ htype hpayload present pending halts
  have hdecided : ∀ decision, Appends p w
      (stateAfter (record d .gateDecision
        (approvalPayload intentId rationale acknowledged decision) now w)) :=
    fun decision => record_appends fun e htype hpayload _ =>
      hdecision e htype ⟨decision, hpayload⟩
  have hrun := approve_run d src now intentId rationale acknowledged w
  generalize approve d src now intentId rationale acknowledged w = r at hrun
  cases hrun with
  | missing absent => exact .refl w
  | settledAlready present closed => exact .refl w
  | haltUnrecorded present pending halts recorded =>
      have h := hhalted present pending halts
      rw [recorded] at h
      exact h
  | halted present pending halts recorded =>
      have h := hhalted present pending halts
      rw [recorded] at h
      exact h
  | undecided present pending runs decides => exact .refl w
  | @unrecorded _ decision _ _ present pending runs decides recorded =>
      have h := hdecided decision
      rw [recorded] at h
      exact h
  | @unblocked _ decision _ _ present pending runs decides recorded blocks updated =>
      have h := hdecided decision
      rw [recorded] at h
      exact h
  | @blocked _ decision _ _ _ present pending runs decides recorded blocks updated counted =>
      have h := hdecided decision
      rw [recorded] at h
      cases counted
      exact h
  | @challenged _ decision _ present pending runs decides recorded passes challenges =>
      have h := hdecided decision
      rw [recorded] at h
      exact h
  | @authorized _ decision _ present pending runs decides recorded passes unchallenged =>
      have h := hdecided decision
      rw [recorded] at h
      exact h

/-- What a step records: the entries of halts, decisions and settlements with the
call they come from. -/
inductive EntryOf (d : ExecutorDeps σ) (s : State σ) (e : AuditEntry) : Action → Prop
  | halted {now : String} {src : Sources} {intent : PaymentIntent}
      {attestation : Option Attestation} {halt : String} (type : e.type = .paymentHalted)
      (payload : e.payload = haltPayload intent.id "agent" halt)
      (halts : haltReason d s.world.store = some halt) :
      EntryOf d s e (.execute now src intent attestation)
  | decided {now : String} {src : Sources} {intent : PaymentIntent}
      {attestation : Option Attestation}
      (decided : Decided d src now intent attestation s.world e) :
      EntryOf d s e (.execute now src intent attestation)
  | approvalHalted {now : String} {src : Sources} {intentId rationale : String}
      {acknowledged : Bool} {x : StoredIntent} {halt : String} (type : e.type = .paymentHalted)
      (payload : e.payload = haltPayload intentId "operator_approval" halt)
      (present : d.store.getIntent s.world.store intentId = some x)
      (pending : x.status = .pending) (halts : haltReason d s.world.store = some halt) :
      EntryOf d s e (.approve now src intentId rationale acknowledged)
  | approved {now : String} {src : Sources} {intentId rationale : String} {acknowledged : Bool}
      (type : e.type = .gateDecision)
      (approved : Approved d intentId rationale acknowledged s.world e) :
      EntryOf d s e (.approve now src intentId rationale acknowledged)
  | settled {k : Nat} {receipt : Receipt} {verified : Except String Bool} {call : Call}
      {provider : PaymentProvider} (waiting : atRail s k = some (call, provider))
      (type : e.type = .paymentSettled)
      (payload : e.payload = settledPayload call.intent (issuedBy provider receipt)) :
      EntryOf d s e (.railReturns k receipt verified)
  | other {a : Action} (unhalted : e.type ≠ .paymentHalted) (undecided : e.type ≠ .gateDecision)
      (unsettled : e.type ≠ .paymentSettled) : EntryOf d s e a

theorem EntryOf.of_type {s : State σ} {a : Action} {type : AuditEventType}
    (hhalt : type ≠ .paymentHalted) (hdecision : type ≠ .gateDecision)
    (hsettled : type ≠ .paymentSettled) (e : AuditEntry) (he : e.type = type) :
    EntryOf d s e a :=
  .other (by rw [he]; exact hhalt) (by rw [he]; exact hdecision) (by rw [he]; exact hsettled)

/-- **Every entry that a step appends** is one its action records. -/
theorem entries_of_step {s s' : State σ} {a : Action} {es : List Event}
    (htaken : step d s a = some (s', es)) :
    Appends (fun e => EntryOf d s e a) s.world s'.world := by
  have hconclude : ∀ {α : Type} {s₀ : State σ} {ended : α → List Event} {x : Exec σ α},
      Moves (Appends fun e => EntryOf d s e a) x →
      s₀.conclude ended (x s.world) = (s', es) →
      Appends (fun e => EntryOf d s e a) s.world s'.world := by
    intro α s₀ ended x hmoves heq
    have h := hmoves s.world
    rw [← conclude_world s₀ ended, heq] at h
    exact h
  have hfailed : ∀ e : AuditEntry, e.type = .paymentFailed → EntryOf d s e a :=
    EntryOf.of_type (by simp) (by simp) (by simp)
  cases a with
  | execute now src intent attestation =>
      have heq : s.started (execute d src now intent attestation s.world) = (s', es) :=
        Option.some.inj htaken
      have h := execute_appends d src now intent attestation s.world
        (p := fun e => EntryOf d s e (.execute now src intent attestation))
        (fun e halt htype hpayload halts => .halted htype hpayload halts)
        (fun e hdecided => .decided hdecided)
      rw [← started_world s, heq] at h
      exact h
  | approve now src intentId rationale acknowledged =>
      have heq : s.started (approve d src now intentId rationale acknowledged s.world) =
        (s', es) := Option.some.inj htaken
      have h := approve_appends d src now intentId rationale acknowledged s.world
        (p := fun e => EntryOf d s e (.approve now src intentId rationale acknowledged))
        (fun e x halt htype hpayload present pending halts =>
          .approvalHalted htype hpayload present pending halts)
        (fun e htype happroved => .approved htype happroved)
      rw [← started_world s, heq] at h
      exact h
  | railReturns k receipt verified =>
      obtain ⟨⟨call, provider⟩, hwait, heq⟩ := Option.map_eq_some_iff.1 htaken
      simp only at heq
      have h := moves_settleReturned (d := d)
        (p := fun e => EntryOf d s e (.railReturns k receipt verified))
        call.intent call.now (issuedBy provider receipt) verified
        (fun e htype hpayload => .settled hwait htype hpayload)
        (EntryOf.of_type (by simp) (by simp) (by simp)) hfailed s.world
      rw [← answered_world s k call (.railSettled call provider receipt), heq] at h
      exact h
  | railThrows k error =>
      obtain ⟨⟨call, provider⟩, -, heq⟩ := Option.map_eq_some_iff.1 htaken
      simp only at heq
      have h := moves_settleFailed (d := d) call.intent call.now error hfailed s.world
      rw [← answered_world s k call (.railFailed call error), heq] at h
      exact h
  | resume k =>
      obtain ⟨⟨call, outcome⟩, -, heq⟩ := Option.map_eq_some_iff.1 htaken
      exact hconclude (moves_finish call outcome) heq
  | refund now intentId amountMinor reason =>
      simp only [step] at htaken
      split at htaken <;> cases htaken <;> exact .refl _
  | refundReturns k refundRef =>
      obtain ⟨call, -, heq⟩ := Option.map_eq_some_iff.1 htaken
      have h := moves_refundReturned (d := d)
        (p := fun e => EntryOf d s e (.refundReturns k refundRef)) call refundRef
        (EntryOf.of_type (by simp) (by simp) (by simp)) s.world
      rw [← conclude_world { s with refunds := s.refunds.eraseIdx k }
        (fun r => [.refundFinished r])] at h
      cases heq
      exact h
  | refundThrows k error =>
      obtain ⟨call, -, heq⟩ := Option.map_eq_some_iff.1 htaken
      cases heq
      exact .refl _
  | grantMandate now m =>
      exact hconclude (moves_control (by simp) (EntryOf.of_type (by simp) (by simp) (by simp)))
        (Option.some.inj htaken)
  | revokeMandate now id =>
      exact hconclude (moves_control (by simp) (EntryOf.of_type (by simp) (by simp) (by simp)))
        (Option.some.inj htaken)
  | amendMandate now id patch =>
      exact hconclude (moves_control (by simp) (EntryOf.of_type (by simp) (by simp) (by simp)))
        (Option.some.inj htaken)
  | extendMandate now id expiresAt =>
      exact hconclude (moves_control (by simp) (EntryOf.of_type (by simp) (by simp) (by simp)))
        (Option.some.inj htaken)
  | engageKillSwitch => exact hconclude (moves_write _) (Option.some.inj htaken)
  | disengageKillSwitch => exact hconclude (moves_write _) (Option.some.inj htaken)
  | resetCircuitBreaker => exact hconclude (moves_write _) (Option.some.inj htaken)

/-- Where a decision comes from: the `execute` or `approve` call of its step. -/
inductive DecidedIn (d : ExecutorDeps σ) (w : World σ) (e : AuditEntry) : Action → Prop
  | execute {now : String} {src : Sources} {intent : PaymentIntent}
      {attestation : Option Attestation} (decided : Decided d src now intent attestation w e) :
      DecidedIn d w e (.execute now src intent attestation)
  | approve {now : String} {src : Sources} {intentId rationale : String} {acknowledged : Bool}
      (approved : Approved d intentId rationale acknowledged w e) :
      DecidedIn d w e (.approve now src intentId rationale acknowledged)

/-- **Every decision that a step appends** was made by the call of that step. -/
theorem gateDecision_of_step {s s' : State σ} {a : Action} {es : List Event}
    (htaken : step d s a = some (s', es)) :
    Appends (fun e => e.type = .gateDecision → DecidedIn d s.world e a) s.world s'.world := by
  refine (entries_of_step htaken).mono fun e hentry htype => ?_
  cases hentry with
  | decided decided => exact .execute decided
  | approved _ approved => exact .approve approved
  | halted type => rw [htype] at type; cases type
  | approvalHalted type => rw [htype] at type; cases type
  | settled _ type => rw [htype] at type; cases type
  | other _ undecided => exact absurd htype undecided

/-- A decision of the agent phase was made by `execute`. -/
theorem agentDecision_of_step {s s' : State σ} {a : Action} {es : List Event}
    (htaken : step d s a = some (s', es)) :
    Appends (fun e => AgentDecision e → ∃ now src intent attestation,
      a = .execute now src intent attestation ∧
        Decided d src now intent attestation s.world e) s.world s'.world := by
  refine (gateDecision_of_step htaken).mono fun e hdecided hagent => ?_
  cases hdecided hagent.1 with
  | execute decided => exact ⟨_, _, _, _, rfl, decided⟩
  | approve approved =>
      obtain ⟨decision, hpayload⟩ := approved
      have hphase := hagent.2
      rw [hpayload] at hphase
      simp [stamped, approvalPayload] at hphase

/-- A decision is stamped with the policy in force before its step. -/
theorem DecidedIn.policyHash {w : World σ} {e : AuditEntry} {a : Action}
    (h : DecidedIn d w e a) : e.payload.get "policyHash" = .str (policyHash d w.store) := by
  cases h with
  | execute decided =>
      obtain ⟨decision, inputs, -, -, hpayload⟩ := decided.recorded
      rw [hpayload]
      simp [stamped, agentPayload]
  | approve approved =>
      obtain ⟨decision, hpayload⟩ := approved
      rw [hpayload]
      simp [stamped, approvalPayload]

end AgentWorth
