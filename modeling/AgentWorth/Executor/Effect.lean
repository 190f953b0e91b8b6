import AgentWorth.Executor.Segments

/-!
# Steps as changes of the books

Over any store that keeps the persistence contract, a step of the executor is
one of a small number of changes of the books, the suspended calls and the
events.  Invariants of runs are proved from this list, never from the code of
the segments.
-/

namespace AgentWorth

open AgentWorth.Js AgentWorth.Lib

variable {σ : Type} {d : ExecutorDeps σ} (C : Contract d.store)

/-! ## Audit records -/

/-- The payload as the chain holds it. -/
def stamped (d : ExecutorDeps σ) (store : σ) (type : AuditEventType) (payload : JsValue) :
    JsValue :=
  if type = .gateDecision then payload.withMember "policyHash" (.str (policyHash d store))
  else payload

theorem stamped_isObject {store : σ} {type : AuditEventType} {payload : JsValue}
    (h : payload.isObject = true) : (stamped d store type payload).isObject = true := by
  unfold stamped
  split
  · exact JsValue.isObject_withMember _ _ _
  · exact h

/-- The signing key answers, and the store holds no entry numbered past the
in-memory chain, so it will take the next one. -/
def Synced (w : World σ) : Prop :=
  (∃ key, w.audit.signer.sign = .ok key) ∧
    ∀ r ∈ (C.books w.store).audit, r.seq < (w.audit.entries.length : JsNumber)

theorem appendEntry_ok {type : AuditEventType} {payload : JsValue} {ts : String}
    {w : World σ} {entry : AuditEntry} {log : AuditLog}
    (h : appendEntry d type payload ts w = .ok (entry, log)) :
    log.signer = w.audit.signer ∧ log.entries = w.audit.entries ++ [entry] ∧
      entry.type = type ∧ entry.payload = stamped d w.store type payload ∧ entry.ts = ts ∧
        entry.seq = w.audit.entries.length := by
  unfold appendEntry at h
  unfold stamped
  split at h
  · next ht =>
      obtain ⟨hs, he, hty, hp, hts, hseq⟩ := AuditLog.append_ok h
      rw [if_pos ht]
      exact ⟨hs, he, hty.trans ht.symm, hp, hts, hseq⟩
  · next ht =>
      rw [if_neg ht]
      exact AuditLog.append_ok h

/-- What a successful `record` leaves. -/
structure Recorded (type : AuditEventType) (payload : JsValue) (ts : String)
    (w w' : World σ) : Prop where
  books : ∃ rows, C.books w'.store = { C.books w.store with audit := rows }
  entries : ∃ entry, w'.audit.entries = w.audit.entries ++ [entry] ∧ entry.type = type ∧
    entry.payload = stamped d w.store type payload ∧ entry.ts = ts
  synced : Synced C w → Synced C w'

theorem record_ok {type : AuditEventType} {payload : JsValue} {ts : String} {w w' : World σ}
    (h : record d type payload ts w = .ok () w') : Recorded C type payload ts w w' := by
  unfold record at h
  split at h
  · cases h
  · next entry log happend =>
      split at h
      · cases h
      · next store hstore =>
          cases h
          obtain ⟨hsigner, hentries, htype, hpayload, hts, hseq⟩ := appendEntry_ok happend
          obtain ⟨rows, hperm, hbooks⟩ := C.appendAudit hstore
          refine ⟨⟨rows, hbooks⟩, ⟨entry, hentries, htype, hpayload, hts⟩, ?_⟩
          rintro ⟨⟨key, hkey⟩, hrows⟩
          refine ⟨⟨key, by simpa [hsigner] using hkey⟩, ?_⟩
          intro r hr
          have hr' : r ∈ rows := by simpa [hbooks] using hr
          simp only [hentries, List.length_append, List.length_singleton]
          rcases List.mem_cons.1 (hperm.mem_iff.1 hr') with rfl | hold
          · rw [C.savedEntry_seq, hseq]
            exact JsNumber.natCast_lt_natCast.2 (Nat.lt_succ_self _)
          · exact JsNumber.lt_natCast_of_lt (hrows r hold) (by simp)

/-- A `record` that throws leaves the store alone, and does not happen while
the chain is in step with the store. -/
theorem record_error {type : AuditEventType} {payload : JsValue} {ts e : String}
    {w w' : World σ} (hobject : payload.isObject = true)
    (h : record d type payload ts w = .error e w') :
    w'.store = w.store ∧ ¬ Synced C w ∧
      (w'.audit = w.audit ∨
        ∃ entry, appendEntry d type payload ts w = .ok (entry, w'.audit)) := by
  unfold record at h
  split at h
  · next e' happend =>
      cases h
      refine ⟨rfl, ?_, Or.inl rfl⟩
      rintro ⟨⟨key, hkey⟩, -⟩
      unfold appendEntry at happend
      split at happend
      · obtain ⟨entry, log, hok⟩ := AuditLog.append_total d.crypto hkey
          .gateDecision (payload.withMember "policyHash" (.str (policyHash d w.store))) ts
        rw [AuditLog.appendGateDecision, hok] at happend
        cases happend
      · obtain ⟨entry, log, hok⟩ := AuditLog.append_total d.crypto hkey
          type payload ts
        rw [hok] at happend
        cases happend
  · next entry log happend =>
      split at h
      · next e' hstore =>
          cases h
          refine ⟨rfl, ?_, Or.inr ⟨entry, happend⟩⟩
          rintro ⟨-, hrows⟩
          obtain ⟨-, -, -, hpayload, -, hseq⟩ := appendEntry_ok happend
          obtain ⟨s', hs'⟩ := C.appendAudit_fresh w.store entry
            (by rw [hpayload]; exact Json.isDropped_of_isObject (stamped_isObject hobject))
            (fun r hr => by rw [hseq]; exact JsNumber.ne_of_lt (hrows r hr))
          rw [hs'] at hstore
          cases hstore
      · cases h

theorem record_total (type : AuditEventType) {payload : JsValue} (ts : String)
    {w : World σ} (hobject : payload.isObject = true) (hsync : Synced C w) :
    ∃ w', record d type payload ts w = .ok () w' := by
  cases h : record d type payload ts w with
  | ok u w' => exact ⟨w', rfl⟩
  | error e w' => exact absurd hsync (record_error C hobject h).2.1

/-! ## Records -/

/-- The mandates, intents and receipts are as they were. -/
structure SameRecords (b b' : Books) : Prop where
  mandates : b'.mandates = b.mandates
  intents : b'.intents = b.intents
  receipts : b'.receipts = b.receipts

theorem SameRecords.refl (b : Books) : SameRecords b b := ⟨rfl, rfl, rfl⟩

theorem SameRecords.trans {b b' b'' : Books} (h : SameRecords b b')
    (h' : SameRecords b' b'') : SameRecords b b'' :=
  ⟨h'.mandates.trans h.mandates, h'.intents.trans h.intents, h'.receipts.trans h.receipts⟩

theorem Recorded.same {type : AuditEventType} {payload : JsValue} {ts : String}
    {w w' : World σ} (h : Recorded C type payload ts w w') :
    SameRecords (C.books w.store) (C.books w'.store) := by
  obtain ⟨rows, hbooks⟩ := h.books
  exact ⟨by rw [hbooks], by rw [hbooks], by rw [hbooks]⟩

/-- Writes outside the audit table keep the chain in step. -/
theorem Synced.write {w : World σ} {store : σ} (h : Synced C w)
    (haudit : (C.books store).audit = (C.books w.store).audit) :
    Synced C { w with store := store } := by
  refine ⟨h.1, ?_⟩
  intro r hr
  exact h.2 r (by rw [← haudit]; exact hr)

/-- Flags and counters are apart from the records. -/
theorem setMeta_spec (w : World σ) (k v : String) :
    SameRecords (C.books w.store) (C.books (d.store.setMeta w.store k v)) ∧
      (Synced C w → Synced C { w with store := d.store.setMeta w.store k v }) := by
  have hb := C.setMeta w.store k v
  refine ⟨?_, fun hs => hs.write C (by rw [hb]; rfl)⟩
  rw [hb]
  exact ⟨rfl, rfl, rfl⟩

theorem recordOutcome_spec {kind : OutcomeKind} {w w' : World σ}
    (h : recordOutcome d kind w = .ok () w') :
    SameRecords (C.books w.store) (C.books w'.store) ∧ (Synced C w → Synced C w') := by
  cases h
  exact setMeta_spec C w failKey _

/-! ## The effect of a step -/

/-- Events of calls that end without reaching a rail. -/
def Event.isQuiet : Event → Bool
  | .returned _ | .threw _ | .refundFinished _ => true
  | _ => false

/-- The event of a call that has just suspended in `settle`. -/
def Call.invocation (call : Call) : List Event :=
  match call.stage with
  | .rail provider => [.railInvoked call provider]
  | .settled _ => []

/-- How a grant, revocation or amendment changes the mandates. -/
inductive MandateChange (ms : Table Mandate.id) : Action → Table Mandate.id → Prop
  | grant {now : String} {m : Mandate} (fresh : ms.get m.id = none) :
      MandateChange ms (.grantMandate now m) (ms.put m)
  | revoke {now id : String} : MandateChange ms (.revokeMandate now id)
      (ms.modify id fun m => { m with status := .revoked })
  | amend {now id : String} {patch : MandatePatch} :
      MandateChange ms (.amendMandate now id patch) (ms.modify id patch.apply)
  | extend {now id expiresAt : String} : MandateChange ms (.extendMandate now id expiresAt)
      (ms.modify id (MandatePatch.apply { expiresAt := some expiresAt }))

/-- The books of a state. -/
def State.books (s : State σ) : Books := C.books s.world.store

/-- The receipts once the store was asked to keep one more. -/
def receiptsAfter (store : σ) (receipt : Receipt) : Table Receipt.id :=
  match d.store.insertReceipt store receipt with
  | .ok _ => (C.books store).receipts.put (C.savedReceipt receipt)
  | .error _ => (C.books store).receipts

/-- What a step does to the books and the suspended calls. -/
inductive Effect (s : State σ) : Action → State σ → List Event → Prop
  /-- nothing is written but audit entries, flags and counters -/
  | quiet {a : Action} {s' : State σ} {es : List Event}
      (same : SameRecords (s.books C) (s'.books C)) (calls : s'.calls = s.calls)
      (refunds : s'.refunds = s.refunds) (quiet : ∀ e ∈ es, e.isQuiet = true) :
      Effect s a s' es
  /-- `execute` files an intent as blocked or pending -/
  | filed {now : String} {src : Sources} {intent : PaymentIntent}
      {attestation : Option Attestation} {x : StoredIntent} {s' : State σ} {es : List Event}
      (intent_eq : x.intent = intent) (status : x.status = .blocked ∨ x.status = .pending)
      (unrefunded : x.refundedMinor = none)
      (fresh : (s.books C).intents.get x.id = none)
      (mandates : (s'.books C).mandates = (s.books C).mandates)
      (intents : (s'.books C).intents = (s.books C).intents.put (C.saved x))
      (receipts : (s'.books C).receipts = (s.books C).receipts)
      (calls : s'.calls = s.calls) (refunds : s'.refunds = s.refunds)
      (quiet : ∀ e ∈ es, e.isQuiet = true)
      (priced : x.mandateId ≠ none → ∃ n : Int, 0 < n ∧ intent.amount = .fin n) :
      Effect s (.execute now src intent attestation) s' es
  /-- `approve` finds a pending intent blocked by now -/
  | refused {now : String} {src : Sources} {intentId rationale : String}
      {acknowledged : Bool} {x : StoredIntent} {reasons : List String} {s' : State σ}
      {es : List Event}
      (present : (s.books C).intents.get intentId = some x) (pending : x.status = .pending)
      (mandates : (s'.books C).mandates = (s.books C).mandates)
      (intents : (s'.books C).intents = (s.books C).intents.put
        (IntentUpdate.apply { status := some .blocked, reasons := some reasons } x))
      (receipts : (s'.books C).receipts = (s.books C).receipts)
      (calls : s'.calls = s.calls) (refunds : s'.refunds = s.refunds)
      (quiet : ∀ e ∈ es, e.isQuiet = true) :
      Effect s (.approve now src intentId rationale acknowledged) s' es
  /-- `execute` passes the gate and suspends in `settle` -/
  | executeStarted {now : String} {src : Sources} {intent : PaymentIntent}
      {attestation : Option Attestation} {decision : GateDecision} {inputs : ReplayInputs}
      {s' : State σ}
      (runs : haltReason d s.world.store = none)
      (decides : agentDecision d src s.world now intent attestation = .ok decision)
      (automatic : decision.outcome = .autoExecute)
      (recorded : Recorded C .gateDecision (agentPayload d intent decision inputs) now
        s.world s'.world)
      (calls : s'.calls = s.calls ++ [settle d .execute intent.id intent now decision])
      (refunds : s'.refunds = s.refunds) :
      Effect s (.execute now src intent attestation) s'
        (settle d .execute intent.id intent now decision).invocation
  /-- `approve` passes the gate and suspends in `settle` -/
  | approveStarted {now : String} {src : Sources} {intentId rationale : String}
      {acknowledged : Bool} {x : StoredIntent} {decision : GateDecision} {s' : State σ}
      (runs : haltReason d s.world.store = none)
      (present : (s.books C).intents.get intentId = some x) (pending : x.status = .pending)
      (decides : evaluateGate x.intent (context d src s.world.store now x.intent none) =
        .ok decision)
      (passes : decision.outcome ≠ .block)
      (unchallenged : (requiresChallenge d x.intent decision && !acknowledged) = false)
      (recorded : Recorded C .gateDecision
        (approvalPayload intentId rationale acknowledged decision) now s.world s'.world)
      (calls : s'.calls = s.calls ++ [settle d .approve intentId x.intent now decision])
      (refunds : s'.refunds = s.refunds) :
      Effect s (.approve now src intentId rationale acknowledged) s'
        (settle d .approve intentId x.intent now decision).invocation
  /-- the rail returned and `settle` has an outcome -/
  | answered {k : Nat} {receipt : Receipt} {verified : Except String Bool} {call : Call}
      {provider : PaymentProvider} {outcome : Except String (Receipt × Bool)} {s' : State σ}
      (waiting : atRail s k = some (call, provider))
      (mandates : (s'.books C).mandates = (s.books C).mandates)
      (intents : (s'.books C).intents = (s.books C).intents)
      (receipts : (s'.books C).receipts =
        receiptsAfter C s.world.store (issuedBy provider receipt))
      (booked : ∀ r v, outcome = .ok (r, v) → r = issuedBy provider receipt)
      (calls : s'.calls = s.calls.set k { call with stage := .settled outcome })
      (refunds : s'.refunds = s.refunds) :
      Effect s (.railReturns k receipt verified) s' [.railSettled call provider receipt]
  /-- the rail returned and the failure could not be recorded either -/
  | answerLost {k : Nat} {receipt : Receipt} {verified : Except String Bool} {call : Call}
      {provider : PaymentProvider} {e : String} {s' : State σ}
      (waiting : atRail s k = some (call, provider)) (outOfStep : ¬ Synced C s.world)
      (mandates : (s'.books C).mandates = (s.books C).mandates)
      (intents : (s'.books C).intents = (s.books C).intents)
      (receipts : (s'.books C).receipts =
        receiptsAfter C s.world.store (issuedBy provider receipt))
      (calls : s'.calls = s.calls.eraseIdx k) (refunds : s'.refunds = s.refunds) :
      Effect s (.railReturns k receipt verified) s'
        [.railSettled call provider receipt, .threw e]
  | railFailed {k : Nat} {error : String} {call : Call} {provider : PaymentProvider}
      {s' : State σ}
      (waiting : atRail s k = some (call, provider))
      (same : SameRecords (s.books C) (s'.books C))
      (calls : s'.calls = s.calls.set k { call with stage := .settled (.error error) })
      (refunds : s'.refunds = s.refunds) :
      Effect s (.railThrows k error) s' [.railFailed call error]
  | railFailureLost {k : Nat} {error e : String} {call : Call} {provider : PaymentProvider}
      {s' : State σ}
      (waiting : atRail s k = some (call, provider)) (outOfStep : ¬ Synced C s.world)
      (same : SameRecords (s.books C) (s'.books C))
      (calls : s'.calls = s.calls.eraseIdx k) (refunds : s'.refunds = s.refunds) :
      Effect s (.railThrows k error) s' [.railFailed call error, .threw e]
  /-- `execute` files the outcome of its settlement -/
  | executeFinished {k : Nat} {call : Call} {outcome : Except String (Receipt × Bool)}
      {s' : State σ}
      (waiting : atResume s k = some (call, outcome)) (entry : call.entry = .execute)
      (fresh : (s.books C).intents.get call.intent.id = none)
      (mandates : (s'.books C).mandates = (s.books C).mandates)
      (intents : (s'.books C).intents =
        (s.books C).intents.put (C.saved (executedIntent call outcome)))
      (receipts : (s'.books C).receipts = (s.books C).receipts)
      (calls : s'.calls = s.calls.eraseIdx k) (refunds : s'.refunds = s.refunds) :
      Effect s (.resume k) s' [.finished call (settlementResult call outcome)]
  /-- `approve` updates its intent with the outcome of its settlement -/
  | approveFinished {k : Nat} {call : Call} {outcome : Except String (Receipt × Bool)}
      {x : StoredIntent} {s' : State σ}
      (waiting : atResume s k = some (call, outcome)) (entry : call.entry = .approve)
      (present : (s.books C).intents.get call.intentId = some x)
      (mandates : (s'.books C).mandates = (s.books C).mandates)
      (intents : (s'.books C).intents =
        (s.books C).intents.put ((approvedUpdate outcome).apply x))
      (receipts : (s'.books C).receipts = (s.books C).receipts)
      (calls : s'.calls = s.calls.eraseIdx k) (refunds : s'.refunds = s.refunds) :
      Effect s (.resume k) s' [.finished call (settlementResult call outcome)]
  /-- the store refuses the outcome of a settlement -/
  | finishRefused {k : Nat} {call : Call} {outcome : Except String (Receipt × Bool)}
      {e : String} {s' : State σ}
      (waiting : atResume s k = some (call, outcome))
      (refusal : filing d call outcome s.world.store = .error e)
      (same : SameRecords (s.books C) (s'.books C))
      (calls : s'.calls = s.calls.eraseIdx k) (refunds : s'.refunds = s.refunds) :
      Effect s (.resume k) s' [.threw e]
  | refundStarted {now intentId : String} {amountMinor : Option JsNumber}
      {reason : Option String} {call : RefundCall} {s' : State σ}
      (starts : refund d s.world.store now intentId amountMinor reason =
        .ok (.awaiting call))
      (same : SameRecords (s.books C) (s'.books C)) (calls : s'.calls = s.calls)
      (refunds : s'.refunds = s.refunds ++ [call]) :
      Effect s (.refund now intentId amountMinor reason) s' [.refundInvoked call]
  /-- the rail has refunded and the new total is written -/
  | refunded {k : Nat} {refundRef : String} {call : RefundCall} {x : StoredIntent}
      {s' : State σ} {es : List Event}
      (waiting : s.refunds[k]? = some call)
      (present : (s.books C).intents.get call.intentId = some x)
      (mandates : (s'.books C).mandates = (s.books C).mandates)
      (intents : (s'.books C).intents = (s.books C).intents.put
        (IntentUpdate.apply { refundedMinor := some (call.already + call.amount) } x))
      (receipts : (s'.books C).receipts = (s.books C).receipts)
      (calls : s'.calls = s.calls) (refunds : s'.refunds = s.refunds.eraseIdx k)
      (quiet : ∀ e ∈ es, e.isQuiet = true) :
      Effect s (.refundReturns k refundRef) s' (.refundSettled call :: es)
  /-- the rail has refunded and the store refuses the new total -/
  | refundRefused {k : Nat} {refundRef e : String} {call : RefundCall} {s' : State σ}
      (waiting : s.refunds[k]? = some call)
      (refusal : ∃ e', d.store.updateIntent s.world.store call.intentId
        { refundedMinor := some (call.already + call.amount) } = .error e')
      (same : SameRecords (s.books C) (s'.books C)) (calls : s'.calls = s.calls)
      (refunds : s'.refunds = s.refunds.eraseIdx k) :
      Effect s (.refundReturns k refundRef) s' [.refundSettled call, .threw e]
  | refundFailed {k : Nat} {error : String} {call : RefundCall} {s' : State σ}
      (waiting : s.refunds[k]? = some call)
      (same : SameRecords (s.books C) (s'.books C)) (calls : s'.calls = s.calls)
      (refunds : s'.refunds = s.refunds.eraseIdx k) :
      Effect s (.refundThrows k error) s' [.refundFailed call error, .threw error]
  | mandateChanged {a : Action} {s' : State σ} {es : List Event}
      (change : MandateChange (s.books C).mandates a (s'.books C).mandates)
      (intents : (s'.books C).intents = (s.books C).intents)
      (receipts : (s'.books C).receipts = (s.books C).receipts)
      (calls : s'.calls = s.calls) (refunds : s'.refunds = s.refunds)
      (quiet : ∀ e ∈ es, e.isQuiet = true) :
      Effect s a s' es

/-! ## Every step has one of these effects -/

/-- A write of one intent keeps the chain in step and touches nothing else. -/
private theorem insertIntent_effect {w : World σ} {x : StoredIntent} {store : σ}
    (h : d.store.insertIntent w.store x = .ok store) :
    (C.books w.store).intents.get x.id = none ∧
      (C.books store).mandates = (C.books w.store).mandates ∧
      (C.books store).intents = (C.books w.store).intents.put (C.saved x) ∧
      (C.books store).receipts = (C.books w.store).receipts ∧
      (Synced C w → Synced C { w with store := store }) := by
  obtain ⟨hfresh, hb⟩ := C.insertIntent_spec h
  exact ⟨hfresh, by rw [hb], by rw [hb], by rw [hb], fun hs => hs.write C (by rw [hb])⟩

private theorem updateIntent_effect {w : World σ} {id : String} {u : IntentUpdate} {store : σ}
    (h : d.store.updateIntent w.store id u = .ok store) :
    ∃ x, (C.books w.store).intents.get id = some x ∧
      (C.books store).mandates = (C.books w.store).mandates ∧
      (C.books store).intents = (C.books w.store).intents.put (u.apply x) ∧
      (C.books store).receipts = (C.books w.store).receipts ∧
      (Synced C w → Synced C { w with store := store }) := by
  obtain ⟨x, hx, hb⟩ := C.updateIntent_spec h
  exact ⟨x, hx, by rw [hb], by rw [hb], by rw [hb], fun hs => hs.write C (by rw [hb])⟩

private theorem sameRecords_of_error {type : AuditEventType} {payload : JsValue}
    {ts e : String} {w w' : World σ} (hobject : payload.isObject = true)
    (h : record d type payload ts w = .error e w') :
    SameRecords (C.books w.store) (C.books w'.store) ∧ ¬ Synced C w := by
  obtain ⟨hstore, hsync, -⟩ := record_error C hobject h
  rw [hstore]
  exact ⟨SameRecords.refl _, hsync⟩

/-- The effect of a step, and that it leaves the chain in step with the store. -/
def Keeps (s : State σ) (a : Action) (r : State σ × List Event) : Prop :=
  Effect C s a r.1 r.2 ∧ (Synced C s.world → Synced C r.1.world)

theorem Keeps.of_eq {s s' : State σ} {a : Action} {r : State σ × List Event}
    {es : List Event} (h : Keeps C s a r) (heq : r = (s', es)) :
    Effect C s a s' es ∧ (Synced C s.world → Synced C s'.world) := by
  subst heq
  exact h

private theorem quiet_returned (r : ExecuteResult) :
    ∀ e ∈ [Event.returned r], e.isQuiet = true := by
  simp [Event.isQuiet]

private theorem quiet_threw (e : String) : ∀ e' ∈ [Event.threw e], e'.isQuiet = true := by
  simp [Event.isQuiet]

theorem execute_effect (s : State σ) (src : Sources) (now : String) (intent : PaymentIntent)
    (attestation : Option Attestation) :
    Keeps C s (.execute now src intent attestation)
      (s.started (execute d src now intent attestation s.world)) := by
  have hrun := execute_run d src now intent attestation s.world
  generalize execute d src now intent attestation s.world = r at hrun ⊢
  cases hrun with
  | haltUnrecorded halts recorded =>
      obtain ⟨hsame, hsync⟩ := sameRecords_of_error C rfl recorded
      exact ⟨.quiet hsame rfl rfl (quiet_threw _), fun h => absurd h hsync⟩
  | haltUnfiled halts recorded filed =>
      have hrec := record_ok C recorded
      exact ⟨.quiet hrec.same rfl rfl (quiet_threw _), hrec.synced⟩
  | halted halts recorded filed =>
      have hrec := record_ok C recorded
      have hsame := hrec.same
      obtain ⟨hfresh, hm, hi, hr, hs⟩ := insertIntent_effect C filed
      rw [hsame.intents] at hfresh hi
      exact ⟨.filed rfl (Or.inl rfl) rfl hfresh (hm.trans hsame.mandates) hi
        (hr.trans hsame.receipts) rfl rfl (quiet_returned _) (fun h => absurd rfl h),
        fun h => hs (hrec.synced h)⟩
  | undecided runs decides =>
      exact ⟨.quiet (SameRecords.refl _) rfl rfl (quiet_threw _), id⟩
  | uncaptured runs decides captures =>
      exact ⟨.quiet (SameRecords.refl _) rfl rfl (quiet_threw _), id⟩
  | unrecorded runs decides captures recorded =>
      obtain ⟨hsame, hsync⟩ := sameRecords_of_error C rfl recorded
      exact ⟨.quiet hsame rfl rfl (quiet_threw _), fun h => absurd h hsync⟩
  | unfiled runs decides captures recorded parks filed =>
      have hrec := record_ok C recorded
      exact ⟨.quiet hrec.same rfl rfl (quiet_threw _), hrec.synced⟩
  | blocked runs decides captures recorded blocks filed counted =>
      have hrec := record_ok C recorded
      have hsame := hrec.same
      obtain ⟨hfresh, hm, hi, hr, hs⟩ := insertIntent_effect C filed
      obtain ⟨hsame', hs'⟩ := recordOutcome_spec C counted
      rw [hsame.intents] at hfresh hi
      exact ⟨.filed rfl (Or.inl rfl) rfl hfresh
        (hsame'.mandates.trans (hm.trans hsame.mandates)) (hsame'.intents.trans hi)
        (hsame'.receipts.trans (hr.trans hsame.receipts)) rfl rfl (quiet_returned _)
        (agentDecision_priced decides), fun h => hs' (hs (hrec.synced h))⟩
  | parked runs decides captures recorded confirms filed =>
      have hrec := record_ok C recorded
      have hsame := hrec.same
      obtain ⟨hfresh, hm, hi, hr, hs⟩ := insertIntent_effect C filed
      rw [hsame.intents] at hfresh hi
      exact ⟨.filed rfl (Or.inr rfl) rfl hfresh (hm.trans hsame.mandates) hi
        (hr.trans hsame.receipts) rfl rfl (quiet_returned _) (agentDecision_priced decides),
        fun h => hs (hrec.synced h)⟩
  | authorized runs decides captures recorded automatic =>
      have hrec := record_ok C recorded
      exact ⟨.executeStarted runs decides automatic hrec rfl rfl, hrec.synced⟩

theorem approve_effect (s : State σ) (src : Sources) (now intentId rationale : String)
    (acknowledged : Bool) :
    Keeps C s (.approve now src intentId rationale acknowledged)
      (s.started (approve d src now intentId rationale acknowledged s.world)) := by
  have hrun := approve_run d src now intentId rationale acknowledged s.world
  generalize approve d src now intentId rationale acknowledged s.world = r at hrun ⊢
  cases hrun with
  | missing absent => exact ⟨.quiet (SameRecords.refl _) rfl rfl (quiet_threw _), id⟩
  | settledAlready present closed =>
      exact ⟨.quiet (SameRecords.refl _) rfl rfl (quiet_threw _), id⟩
  | haltUnrecorded present pending halts recorded =>
      obtain ⟨hsame, hsync⟩ := sameRecords_of_error C rfl recorded
      exact ⟨.quiet hsame rfl rfl (quiet_threw _), fun h => absurd h hsync⟩
  | halted present pending halts recorded =>
      have hrec := record_ok C recorded
      exact ⟨.quiet hrec.same rfl rfl (quiet_returned _), hrec.synced⟩
  | undecided present pending runs decides =>
      exact ⟨.quiet (SameRecords.refl _) rfl rfl (quiet_threw _), id⟩
  | unrecorded present pending runs decides recorded =>
      obtain ⟨hsame, hsync⟩ := sameRecords_of_error C rfl recorded
      exact ⟨.quiet hsame rfl rfl (quiet_threw _), fun h => absurd h hsync⟩
  | unblocked present pending runs decides recorded blocks updated =>
      have hrec := record_ok C recorded
      exact ⟨.quiet hrec.same rfl rfl (quiet_threw _), hrec.synced⟩
  | blocked present pending runs decides recorded blocks updated counted =>
      have hrec := record_ok C recorded
      have hsame := hrec.same
      obtain ⟨x, hx, hm, hi, hr, hs⟩ := updateIntent_effect C updated
      obtain ⟨hsame', hs'⟩ := recordOutcome_spec C counted
      rw [hsame.intents] at hx hi
      rw [C.getIntent, hx] at present
      cases present
      exact ⟨.refused hx pending (hsame'.mandates.trans (hm.trans hsame.mandates))
        (hsame'.intents.trans hi) (hsame'.receipts.trans (hr.trans hsame.receipts)) rfl rfl
        (quiet_returned _), fun h => hs' (hs (hrec.synced h))⟩
  | challenged present pending runs decides recorded passes challenges =>
      have hrec := record_ok C recorded
      exact ⟨.quiet hrec.same rfl rfl (quiet_returned _), hrec.synced⟩
  | authorized present pending runs decides recorded passes unchallenged =>
      have hrec := record_ok C recorded
      rw [C.getIntent] at present
      exact ⟨.approveStarted runs present pending decides passes unchallenged hrec rfl rfl,
        hrec.synced⟩

/-- A throw inside `settle`'s `try` block records the failure, or fails to. -/
private theorem settleFailed_cases (intent : PaymentIntent) (now error : String)
    (w : World σ) :
    (∃ w', settleFailed d intent now error w = .ok (.error error) w' ∧
      SameRecords (C.books w.store) (C.books w'.store) ∧ (Synced C w → Synced C w')) ∨
    ∃ e w', settleFailed d intent now error w = .error e w' ∧
      SameRecords (C.books w.store) (C.books w'.store) ∧ ¬ Synced C w := by
  unfold settleFailed
  simp only [bind, EStateM.bind]
  cases hrec : record d .paymentFailed (failedPayload intent error) now w with
  | ok u w' =>
      have h := record_ok C hrec
      exact Or.inl ⟨w', rfl, h.same, h.synced⟩
  | error e w' =>
      obtain ⟨hsame, hsync⟩ := sameRecords_of_error C rfl hrec
      exact Or.inr ⟨e, w', rfl, hsame, hsync⟩

/-- The records `settle` leaves once its rail has returned: the receipt is in
if the store took it. -/
structure SettleRecords (w : World σ) (receipt : Receipt) (b' : Books) : Prop where
  mandates : b'.mandates = (C.books w.store).mandates
  intents : b'.intents = (C.books w.store).intents
  receipts : b'.receipts = receiptsAfter C w.store receipt

theorem SettleRecords.trans {w : World σ} {receipt : Receipt} {b' b'' : Books}
    (h : SettleRecords C w receipt b') (h' : SameRecords b' b'') :
    SettleRecords C w receipt b'' :=
  ⟨h'.mandates.trans h.mandates, h'.intents.trans h.intents, h'.receipts.trans h.receipts⟩

private theorem insertReceipt_effect {w : World σ} {r : Receipt} {store : σ}
    (h : d.store.insertReceipt w.store r = .ok store) :
    SettleRecords C w r (C.books store) ∧ (Synced C w → Synced C { w with store := store }) := by
  have hb := C.insertReceipt h
  refine ⟨⟨by rw [hb]; rfl, by rw [hb]; rfl, ?_⟩, fun hs => hs.write C (by rw [hb]; rfl)⟩
  rw [hb, receiptsAfter, h]
  rfl

/-- Whatever throws inside the `try` block, at most the receipt was written. -/
private theorem book_records (intent : PaymentIntent) (receipt : Receipt)
    (verified : Except String Bool) (w : World σ) :
    match book d intent receipt verified w with
    | .ok r w' => r.1 = receipt ∧ SettleRecords C w receipt (C.books w'.store) ∧
        (Synced C w → Synced C w')
    | .error _ w' => SettleRecords C w receipt (C.books w'.store) ∧
        (Synced C w → Synced C w') := by
  have hrun := book_run d intent receipt verified w
  generalize book d intent receipt verified w = r at hrun ⊢
  cases hrun with
  | refused inserted => exact ⟨⟨rfl, rfl, by rw [receiptsAfter, inserted]⟩, id⟩
  | unrecorded inserted recorded =>
      obtain ⟨hins, hs⟩ := insertReceipt_effect C inserted
      obtain ⟨hsame, hsync⟩ := sameRecords_of_error C rfl recorded
      exact ⟨hins.trans C hsame, fun h => absurd (hs h) hsync⟩
  | unverified inserted recorded verifies =>
      obtain ⟨hins, hs⟩ := insertReceipt_effect C inserted
      have hrec := record_ok C recorded
      exact ⟨hins.trans C hrec.same, fun h => hrec.synced (hs h)⟩
  | unconfirmed inserted recorded verifies confirmed =>
      obtain ⟨hins, hs⟩ := insertReceipt_effect C inserted
      have hrec := record_ok C recorded
      obtain ⟨hsame, hsync⟩ := sameRecords_of_error C rfl confirmed
      exact ⟨(hins.trans C hrec.same).trans C hsame,
        fun h => absurd (hrec.synced (hs h)) hsync⟩
  | booked inserted recorded verifies confirmed =>
      obtain ⟨hins, hs⟩ := insertReceipt_effect C inserted
      have hrec := record_ok C recorded
      have hconf := record_ok C confirmed
      exact ⟨rfl, (hins.trans C hrec.same).trans C hconf.same,
        fun h => hconf.synced (hrec.synced (hs h))⟩

theorem railReturns_effect (s : State σ) {k : Nat} (receipt : Receipt)
    (verified : Except String Bool) {call : Call} {provider : PaymentProvider}
    (hwait : atRail s k = some (call, provider)) :
    Keeps C s (.railReturns k receipt verified)
      (s.answered k call (.railSettled call provider receipt)
        (settleReturned d call.intent call.now (issuedBy provider receipt) verified
          s.world)) := by
  rw [settleReturned_eq]
  have hbook := book_records C call.intent (issuedBy provider receipt) verified s.world
  cases hb : book d call.intent (issuedBy provider receipt) verified s.world with
  | ok r w' =>
      rw [hb] at hbook
      obtain ⟨hr, hrecords, hsync⟩ := hbook
      refine ⟨.answered hwait hrecords.mandates hrecords.intents hrecords.receipts ?_ rfl rfl,
        hsync⟩
      rintro r' v ⟨⟩
      exact hr
  | error e w' =>
      rw [hb] at hbook
      obtain ⟨hrecords, hsync⟩ := hbook
      rcases settleFailed_cases C call.intent call.now e w' with
        ⟨w'', hf, hsame, hsync'⟩ | ⟨e', w'', hf, hsame, hout⟩
      · simp only [hf]
        have h := hrecords.trans C hsame
        refine ⟨.answered hwait h.mandates h.intents h.receipts ?_ rfl rfl,
          fun hs => hsync' (hsync hs)⟩
        rintro r v ⟨⟩
      · simp only [hf]
        have h := hrecords.trans C hsame
        exact ⟨.answerLost hwait (fun hs => hout (hsync hs)) h.mandates h.intents h.receipts
          rfl rfl, fun hs => absurd (hsync hs) hout⟩

theorem railThrows_effect (s : State σ) {k : Nat} (error : String) {call : Call}
    {provider : PaymentProvider} (hwait : atRail s k = some (call, provider)) :
    Keeps C s (.railThrows k error)
      (s.answered k call (.railFailed call error)
        (settleFailed d call.intent call.now error s.world)) := by
  rcases settleFailed_cases C call.intent call.now error s.world with
    ⟨w', hf, hsame, hsync⟩ | ⟨e, w', hf, hsame, hout⟩
  · rw [hf]
    exact ⟨.railFailed hwait hsame rfl rfl, hsync⟩
  · rw [hf]
    exact ⟨.railFailureLost hwait hout hsame rfl rfl, fun hs => absurd hs hout⟩

theorem resume_effect (s : State σ) {k : Nat} {call : Call}
    {outcome : Except String (Receipt × Bool)} (hwait : atResume s k = some (call, outcome)) :
    Keeps C s (.resume k)
      ({ s with calls := s.calls.eraseIdx k }.conclude (fun r => [.finished call r])
        (finish d call outcome s.world)) := by
  rcases finish_cases d call outcome s.world with
    ⟨e, hfile, hf⟩ | ⟨store, w', hfile, hcount, hf⟩
  · rw [hf]
    exact ⟨.finishRefused hwait hfile (SameRecords.refl _) rfl rfl, id⟩
  · rw [hf]
    obtain ⟨hsame, hs'⟩ := recordOutcome_spec C hcount
    unfold filing at hfile
    cases hentry : call.entry with
    | execute =>
        rw [hentry] at hfile
        obtain ⟨hfresh, hm, hi, hr, hs⟩ := insertIntent_effect C hfile
        rw [executedIntent_id] at hfresh
        exact ⟨.executeFinished hwait hentry hfresh (hsame.mandates.trans hm)
          (hsame.intents.trans hi) (hsame.receipts.trans hr) rfl rfl, fun h => hs' (hs h)⟩
    | approve =>
        rw [hentry] at hfile
        obtain ⟨x, hx, hm, hi, hr, hs⟩ := updateIntent_effect C hfile
        exact ⟨.approveFinished hwait hentry hx (hsame.mandates.trans hm)
          (hsame.intents.trans hi) (hsame.receipts.trans hr) rfl rfl, fun h => hs' (hs h)⟩

theorem refundReturns_effect (s : State σ) {k : Nat} (refundRef : String) {call : RefundCall}
    (hwait : s.refunds[k]? = some call) :
    Keeps C s (.refundReturns k refundRef)
      (let r := { s with refunds := s.refunds.eraseIdx k }.conclude
        (fun r => [Event.refundFinished r]) (refundReturned d call refundRef s.world)
      (r.1, .refundSettled call :: r.2)) := by
  unfold refundReturned
  simp only [bind, EStateM.bind, write]
  cases hupd : d.store.updateIntent s.world.store call.intentId
    { refundedMinor := some (call.already + call.amount) } with
  | error e =>
      exact ⟨.refundRefused hwait ⟨e, hupd⟩ (SameRecords.refl _) rfl rfl, id⟩
  | ok store =>
      obtain ⟨x, hx, hm, hi, hr, hs⟩ := updateIntent_effect C hupd
      simp only
      cases hrec : record d .paymentRefunded (refundedPayload call refundRef) call.now
        { s.world with store := store } with
      | error e w' =>
          obtain ⟨hsame, hsync⟩ := sameRecords_of_error C rfl hrec
          exact ⟨.refunded hwait hx (hsame.mandates.trans hm) (hsame.intents.trans hi)
            (hsame.receipts.trans hr) rfl rfl (quiet_threw e), fun h => absurd (hs h) hsync⟩
      | ok u w' =>
          have h := record_ok C hrec
          refine ⟨.refunded hwait hx (h.same.mandates.trans hm) (h.same.intents.trans hi)
            (h.same.receipts.trans hr) rfl rfl ?_, fun hsync => h.synced (hs hsync)⟩
          simp [State.conclude, pure, EStateM.pure, Event.isQuiet]

/-- A change of the mandates followed by its record. -/
private theorem mandate_effect (s : State σ) (a : Action) (f : σ → Except String σ)
    (type : AuditEventType) (payload : JsValue) (ts : String)
    (hobject : payload.isObject = true) (hf : ∀ store, f s.world.store = .ok store →
      ∃ ms, MandateChange (s.books C).mandates a ms ∧
        C.books store = { s.books C with mandates := ms }) :
    Keeps C s a (s.conclude (fun _ => [])
      ((do write f; record d type payload ts : Exec σ Unit) s.world)) := by
  rcases write_record_cases d f type payload ts s.world with ⟨e, h⟩ | ⟨store, hstore, h⟩
  · rw [h]
    exact ⟨.quiet (SameRecords.refl _) rfl rfl (quiet_threw _), id⟩
  · obtain ⟨ms, hchange, hb⟩ := hf store hstore
    have hsync : Synced C s.world → Synced C { s.world with store := store } :=
      fun h => h.write C (by rw [hb]; rfl)
    rw [h]
    cases hrec : record d type payload ts { s.world with store := store } with
    | error e w' =>
        obtain ⟨hsame, hout⟩ := sameRecords_of_error C hobject hrec
        have hm : (C.books w'.store).mandates = ms := hsame.mandates.trans (by rw [hb])
        have hi := hsame.intents.trans (show (C.books store).intents = _ by rw [hb])
        have hr := hsame.receipts.trans (show (C.books store).receipts = _ by rw [hb])
        exact ⟨.mandateChanged (hm.symm ▸ hchange) hi hr rfl rfl (quiet_threw e),
          fun h => absurd (hsync h) hout⟩
    | ok u w' =>
        have hrecorded := record_ok C hrec
        have hsame := hrecorded.same
        have hm : (C.books w'.store).mandates = ms := hsame.mandates.trans (by rw [hb])
        have hi := hsame.intents.trans (show (C.books store).intents = _ by rw [hb])
        have hr := hsame.receipts.trans (show (C.books store).receipts = _ by rw [hb])
        exact ⟨.mandateChanged (hm.symm ▸ hchange) hi hr rfl rfl (by simp [State.conclude]),
          fun h => hrecorded.synced (hsync h)⟩

private theorem flag_effect (s : State σ) (a : Action) (k v : String) :
    Keeps C s a (s.conclude (fun _ => [])
      (write (fun store => .ok (d.store.setMeta store k v)) s.world)) := by
  obtain ⟨hsame, hsync⟩ := setMeta_spec C s.world k v
  exact ⟨.quiet hsame rfl rfl (by simp [State.conclude, write]), hsync⟩

/-- **Every step is an effect**, and no step takes the chain out of step with
the store. -/
theorem step_effect {s s' : State σ} {a : Action} {es : List Event}
    (h : step d s a = some (s', es)) :
    Effect C s a s' es ∧ (Synced C s.world → Synced C s'.world) := by
  cases a with
  | execute now src intent attestation =>
      have hk := execute_effect C s src now intent attestation
      exact hk.of_eq C (Option.some.inj h)
  | approve now src intentId rationale acknowledged =>
      have hk := approve_effect C s src now intentId rationale acknowledged
      exact hk.of_eq C (Option.some.inj h)
  | railReturns k receipt verified =>
      obtain ⟨⟨call, provider⟩, hwait, heq⟩ := Option.map_eq_some_iff.1 h
      have hk := railReturns_effect C s receipt verified hwait
      exact hk.of_eq C heq
  | railThrows k error =>
      obtain ⟨⟨call, provider⟩, hwait, heq⟩ := Option.map_eq_some_iff.1 h
      have hk := railThrows_effect C s error hwait
      exact hk.of_eq C heq
  | resume k =>
      obtain ⟨⟨call, outcome⟩, hwait, heq⟩ := Option.map_eq_some_iff.1 h
      have hk := resume_effect C s hwait
      exact hk.of_eq C heq
  | refund now intentId amountMinor reason =>
      simp only [step] at h
      split at h
      · cases h
        exact ⟨.quiet (SameRecords.refl _) rfl rfl (by simp [Event.isQuiet]), id⟩
      · next call hstart =>
          cases h
          exact ⟨.refundStarted hstart (SameRecords.refl _) rfl rfl, id⟩
      · cases h
        exact ⟨.quiet (SameRecords.refl _) rfl rfl (quiet_threw _), id⟩
  | refundReturns k refundRef =>
      obtain ⟨call, hwait, heq⟩ := Option.map_eq_some_iff.1 h
      have hk := refundReturns_effect C s refundRef hwait
      exact hk.of_eq C heq
  | refundThrows k error =>
      obtain ⟨call, hwait, heq⟩ := Option.map_eq_some_iff.1 h
      cases heq
      exact ⟨.refundFailed hwait (SameRecords.refl _) rfl rfl, id⟩
  | grantMandate now m =>
      have hk := mandate_effect C s (.grantMandate now m)
        (fun store => d.store.insertMandate store m) .mandateGranted
        (.obj [("id", .str m.id), ("label", .str m.label)]) now rfl
        (fun store hstore => by
          obtain ⟨hfresh, hb⟩ := C.insertMandate_spec hstore
          exact ⟨_, .grant hfresh, hb⟩)
      exact hk.of_eq C (Option.some.inj h)
  | revokeMandate now id =>
      have hk := mandate_effect C s (.revokeMandate now id)
        (fun store => .ok (d.store.revokeMandate store id)) .mandateRevoked
        (.obj [("id", .str id)]) now rfl
        (fun store hstore => by
          cases hstore
          exact ⟨_, .revoke, C.revokeMandate _ _⟩)
      exact hk.of_eq C (Option.some.inj h)
  | amendMandate now id patch =>
      have hk := mandate_effect C s (.amendMandate now id patch)
        (fun store => d.store.updateMandate store id patch) .mandateAmended
        (.obj [("id", .str id), ("patch", .obj (patchMembers patch))]) now rfl
        (fun store hstore => ⟨_, .amend, C.updateMandate hstore⟩)
      exact hk.of_eq C (Option.some.inj h)
  | extendMandate now id expiresAt =>
      have hk := mandate_effect C s (.extendMandate now id expiresAt)
        (fun store => d.store.updateMandate store id { expiresAt := some expiresAt })
        .mandateAmended (.obj [("id", .str id), ("extendedTo", .str expiresAt)]) now rfl
        (fun store hstore => ⟨_, .extend, C.updateMandate hstore⟩)
      exact hk.of_eq C (Option.some.inj h)
  | engageKillSwitch =>
      have hk := flag_effect C s .engageKillSwitch killKey "1"
      exact hk.of_eq C (Option.some.inj h)
  | disengageKillSwitch =>
      have hk := flag_effect C s .disengageKillSwitch killKey "0"
      exact hk.of_eq C (Option.some.inj h)
  | resetCircuitBreaker =>
      have hk := flag_effect C s .resetCircuitBreaker failKey "0"
      exact hk.of_eq C (Option.some.inj h)

end AgentWorth
