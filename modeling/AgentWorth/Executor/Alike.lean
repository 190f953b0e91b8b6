import AgentWorth.Executor.System
import AgentWorth.Store.Blind

/-!
# The segments on alike worlds

Two worlds are alike when their stores are, and their logs agree but for hashes
and for what is masked in the intents of the payloads.  Each segment of the
executor, run in alike worlds on intents that look alike, ends alike: what it
returns or throws is the same up to masking, and the worlds are alike again.
-/

namespace AgentWorth

open AgentWorth.Js AgentWorth.Js.Json AgentWorth.Lib

variable {σ : Type} {d : ExecutorDeps σ} (B : Blind d.config d.store)

/-- Stores the executor cannot tell apart, and logs under one key whose entries
are alike. -/
structure WorldAlike (w v : World σ) : Prop where
  store : B.alike w.store v.store
  signer : w.audit.signer = v.audit.signer
  entries : EntriesAlike w.audit.entries v.audit.entries

variable {B} {w v : World σ} {i j : PaymentIntent}

namespace WorldAlike

variable (h : WorldAlike B w v)
include h

/-! ## What is read of the world -/

theorem haltReason : haltReason d w.store = haltReason d v.store := by
  have hkilled : isKilled d w.store = isKilled d v.store := by
    unfold isKilled
    rw [B.getMeta h.store]
  have hfailures : failures d w.store = failures d v.store := by
    unfold failures
    rw [B.getMeta h.store]
  unfold AgentWorth.haltReason breakerOpen
  rw [hkilled, hfailures]

theorem policyHash : policyHash d w.store = policyHash d v.store := by
  simp only [AgentWorth.policyHash, B.listMandates h.store]

theorem context (src : Sources) (now : String) (hsame : i.masked = j.masked)
    (attestation : Option Attestation) :
    context d src w.store now i attestation = context d src v.store now j attestation := by
  calc AgentWorth.context d src w.store now i attestation
      = AgentWorth.context d src w.store now j attestation :=
        congr_masked (fun intent => AgentWorth.context d src w.store now intent attestation)
          (fun _ _ _ => rfl) hsame
    _ = AgentWorth.context d src v.store now j attestation := by
        simp only [AgentWorth.context, B.listActiveMandates h.store, B.periodSpend h.store,
          B.knownPayees h.store, B.payeeSettledCount h.store]

theorem evaluateGate (hdeny : d.denyRules = defaultDenyRules) (src : Sources) (now : String)
    (hsame : visible d.config i = visible d.config j) (attestation : Option Attestation) :
    evaluateGate i (AgentWorth.context d src w.store now i attestation) =
      AgentWorth.evaluateGate j (AgentWorth.context d src v.store now j attestation) := by
  rw [h.context src now (masked_of_visible hsame) attestation]
  exact evaluateGate_visible hdeny hsame

theorem agentDecision (hdeny : d.denyRules = defaultDenyRules) (src : Sources) (now : String)
    (hsame : visible d.config i = visible d.config j) (attestation : Option Attestation) :
    agentDecision d src w now i attestation = agentDecision d src v now j attestation := by
  have halert : ∀ decision, chainAlert d w now i decision = chainAlert d v now j decision := by
    intro decision
    have hstreaming : isStreaming d w.store decision = isStreaming d v.store decision := by
      simp only [isStreaming, B.getMandate h.store]
    unfold chainAlert
    rw [hstreaming]
    exact evaluateRiskChain_alike (masked_of_visible hsame) h.entries rfl
  unfold AgentWorth.agentDecision
  rw [h.evaluateGate hdeny src now hsame attestation]
  simp only [halert]

theorem replayInputs (src : Sources) (now : String) (hsame : i.masked = j.masked)
    (attestation : Option Attestation) :
    replayInputs d src w.store now i attestation =
      replayInputs d src v.store now j attestation := by
  have hspend : ∀ ms, collectSpend d w.store now ms = collectSpend d v.store now ms := by
    intro ms
    induction ms with
    | nil => rfl
    | cons m ms ih => simp only [collectSpend, B.periodSpend h.store, ih]
  have hrates : capturedRates d src w.store now j = capturedRates d src v.store now j := by
    unfold capturedRates
    rw [B.listActiveMandates h.store]
  calc AgentWorth.replayInputs d src w.store now i attestation
      = AgentWorth.replayInputs d src w.store now j attestation :=
        congr_masked (fun intent => AgentWorth.replayInputs d src w.store now intent attestation)
          (fun _ _ _ => rfl) hsame
    _ = AgentWorth.replayInputs d src v.store now j attestation := by
        unfold AgentWorth.replayInputs
        rw [hspend, hrates, B.listActiveMandates h.store, B.knownPayees h.store,
          B.payeeSettledCount h.store]

/-- A stored intent is found in both or in neither, and looks alike. -/
theorem getIntent (id : String) :
    Option.Rel (fun x y => visibleRow d.config x = visibleRow d.config y)
      (d.store.getIntent w.store id) (d.store.getIntent v.store id) :=
  rel_of_map_eq (B.getIntent h.store id)

end WorldAlike

/-! ## Payloads -/

theorem intentCodec_alike (hsame : i.masked = j.masked) {k : String} (hrationale : k ≠ "rationale")
    (hcreated : k ≠ "createdAt") :
    (intentCodec.encode i).get k = (intentCodec.encode j).get k := by
  refine congr_masked (fun intent => (intentCodec.encode intent).get k) (fun intent r c => ?_) hsame
  simp only [intentCodec, JsValue.get_obj_cons, if_neg hrationale, if_neg hcreated]

theorem agentPayload_alike (hsame : i.masked = j.masked) (decision : GateDecision)
    (inputs : ReplayInputs) :
    PayloadAlike (agentPayload d i decision inputs) (agentPayload d j decision inputs) where
  dropped := rfl
  truthy := rfl
  carries := rfl
  member k hk := by
    simp only [agentPayload, JsValue.get_obj_cons, if_neg hk, id_of_masked hsame]
  inner k hrationale hcreated := intentCodec_alike hsame hrationale hcreated

/-! ## Writes and records -/

abbrev Same {α : Type} : α → α → Prop := (· = ·)

theorem twins_write {f g : σ → Except String σ}
    (hfg : ∀ {s t}, B.alike s t → Ends B.alike (f s) (g t)) :
    Twins (WorldAlike B) Same (write f) (write g) := by
  intro w v h
  have hends := hfg h.store
  unfold write
  generalize f w.store = x at hends ⊢
  generalize g v.store = y at hends ⊢
  cases hends with
  | ok hstore => exact .ok rfl { h with store := hstore }
  | error e => exact .error e h

theorem twins_eval {α : Type} {x y : Except String α} (hxy : x = y) :
    Twins (WorldAlike B) Same (eval x : Exec σ α) (eval y) := by
  intro w v h
  subst hxy
  cases x with
  | ok a => exact .ok rfl h
  | error e => exact .error e h

theorem twins_recordOutcome (kind : OutcomeKind) :
    Twins (WorldAlike B) Same (recordOutcome d kind) (recordOutcome d kind) := by
  intro w v h
  refine .ok rfl { h with store := ?_ }
  simp only [failures, B.getMeta h.store]
  exact B.setMeta h.store _ _

/-- What an append adds is alike, and so are the logs it leaves. -/
theorem append_alike (h : WorldAlike B w v) (type : AuditEventType) {p q : JsValue}
    (hpq : PayloadAlike p q) (ts : String) :
    Ends (fun r r' => EntryAlike r.1 r'.1 ∧
        WorldAlike B { w with audit := r.2 } { v with audit := r'.2 })
      (w.audit.append d.crypto type p ts) (v.audit.append d.crypto type q ts) := by
  unfold AuditLog.append
  rw [h.signer]
  refine (Ends.self _).map fun hkey => ?_
  subst hkey
  have hseq : (w.audit.entries.length : JsNumber) = v.audit.entries.length := by
    rw [h.entries.length_eq]
  refine ⟨⟨hseq, rfl, rfl, hpq⟩, h.store, rfl, ?_⟩
  exact List.rel_append h.entries (.cons ⟨hseq, rfl, rfl, hpq⟩ .nil)

theorem twins_record (type : AuditEventType) {p q : JsValue} (hpq : PayloadAlike p q)
    (ts : String) : Twins (WorldAlike B) Same (record d type p ts) (record d type q ts) := by
  intro w v h
  have happended : Ends (fun r r' => EntryAlike r.1 r'.1 ∧
      WorldAlike B { w with audit := r.2 } { v with audit := r'.2 })
      (appendEntry d type p ts w) (appendEntry d type q ts v) := by
    unfold appendEntry AuditLog.appendGateDecision
    by_cases htype : type = .gateDecision
    · rw [if_pos htype, if_pos htype, h.policyHash]
      exact append_alike h _ (hpq.withMember (by decide) _) ts
    · rw [if_neg htype, if_neg htype]
      exact append_alike h _ hpq ts
  unfold record
  generalize appendEntry d type p ts w = x at happended ⊢
  generalize appendEntry d type q ts v = y at happended ⊢
  cases happended with
  | error e => exact .error e h
  | @ok r r' happended =>
      obtain ⟨hentry, hworld⟩ := happended
      have hstored := B.appendAudit h.store hentry
      simp only
      generalize d.store.appendAudit w.store r.1 = x at hstored ⊢
      generalize d.store.appendAudit v.store r'.1 = y at hstored ⊢
      cases hstored with
      | error e => exact .error e hworld
      | ok hstore => exact .ok rfl { hworld with store := hstore }

/-! ## Calls -/

/-- Calls for intents that look alike. -/
inductive CallAlike (config : GateConfig) (call : Call) : Call → Prop
  | intro {intent : PaymentIntent} (visible : visible config call.intent = visible config intent) :
      CallAlike config call { call with intent := intent }

/-- A first segment returned the same, or suspended for intents that look
alike. -/
inductive StartedAlike (config : GateConfig) : Started → Started → Prop
  | done (result : ExecuteResult) : StartedAlike config (.done result) (.done result)
  | awaiting {call call' : Call} (calls : CallAlike config call call') :
      StartedAlike config (.awaiting call) (.awaiting call')

theorem settle_alike (entry : Entry) (intentId : String)
    (hsame : visible d.config i = visible d.config j) (now : String) (decision : GateDecision) :
    CallAlike d.config (settle d entry intentId i now decision)
      (settle d entry intentId j now decision) := by
  have hsettle : settle d entry intentId j now decision =
      { settle d entry intentId i now decision with intent := j } :=
    congr_masked (fun intent => { settle d entry intentId intent now decision with intent := j })
      (fun _ _ _ => rfl) (masked_of_visible hsame).symm
  rw [hsettle]
  exact .intro hsame

/-- A row written for either of two intents that look alike. -/
theorem visibleRow_intent {config : GateConfig} (x : StoredIntent) {intent : PaymentIntent}
    (hsame : visible config x.intent = visible config intent) :
    visibleRow config x = visibleRow config { x with intent := intent } := by
  unfold visibleRow StoredIntent.masked
  rw [masked_of_visible hsame, short_of_visible hsame]

theorem unsettled_visible (hsame : visible d.config i = visible d.config j)
    (status : IntentStatus) (mandateId : Option String) (reasons : List String) :
    visibleRow d.config (unsettled i status mandateId reasons) =
      visibleRow d.config (unsettled j status mandateId reasons) :=
  visibleRow_intent (unsettled i status mandateId reasons) hsame

/-! ## execute -/

theorem execute_twins (hdeny : d.denyRules = defaultDenyRules) (src : Sources) (now : String)
    (hsame : visible d.config i = visible d.config j) (attestation : Option Attestation) :
    Twins (WorldAlike B) (StartedAlike d.config) (execute d src now i attestation)
      (execute d src now j attestation) := by
  refine .get fun w v h => ?_
  rw [h.haltReason, id_of_masked (masked_of_visible hsame)]
  cases haltReason d v.store with
  | some halt =>
      refine .bind (twins_record _ (.refl _) _) fun _ => ?_
      refine .bind (twins_write fun hst => B.insertIntent hst (unsettled_visible hsame _ _ _))
        fun _ => .pure (.done _)
  | none =>
      refine .bind (twins_eval (h.agentDecision hdeny src now hsame attestation)) ?_
      rintro decision _ rfl
      refine .bind (twins_eval (h.replayInputs src now (masked_of_visible hsame) attestation)) ?_
      rintro inputs _ rfl
      refine .bind (twins_record _ (agentPayload_alike (masked_of_visible hsame) _ _) _) fun _ => ?_
      cases decision.outcome with
      | block =>
          refine .bind (twins_write fun hst => B.insertIntent hst (unsettled_visible hsame _ _ _))
            fun _ => ?_
          exact .bind (twins_recordOutcome _) fun _ => .pure (.done _)
      | confirmOperator =>
          exact .bind (twins_write fun hst => B.insertIntent hst (unsettled_visible hsame _ _ _))
            fun _ => .pure (.done _)
      | autoExecute => exact .pure (.awaiting (settle_alike _ _ hsame _ _))

/-! ## approve -/

theorem approve_twins (hdeny : d.denyRules = defaultDenyRules) (src : Sources)
    (now intentId rationale : String) (acknowledged : Bool) :
    Twins (WorldAlike B) (StartedAlike d.config)
      (approve d src now intentId rationale acknowledged)
      (approve d src now intentId rationale acknowledged) := by
  refine .get fun w v h => ?_
  rw [h.haltReason]
  have hfound := h.getIntent intentId
  generalize d.store.getIntent w.store intentId = o at hfound ⊢
  generalize d.store.getIntent v.store intentId = o' at hfound ⊢
  cases hfound with
  | none => exact .throw _
  | @some x y hrow =>
      obtain ⟨hsame, hy⟩ := row_of_visible hrow
      have hstatus : y.status = x.status := by rw [hy]
      simp only [hstatus]
      by_cases hpending : x.status ≠ .pending
      · rw [if_pos hpending, if_pos hpending]
        exact .throw _
      · rw [if_neg hpending, if_neg hpending]
        cases haltReason d v.store with
        | some halt => exact .bind (twins_record _ (.refl _) _) fun _ => .pure (.done _)
        | none =>
            refine .bind (twins_eval (h.evaluateGate hdeny src now hsame none)) ?_
            rintro decision _ rfl
            refine .bind (twins_record _ (.refl _) _) fun _ => ?_
            by_cases hblock : decision.outcome = .block
            · rw [if_pos hblock, if_pos hblock]
              refine .bind (twins_write fun hst => B.updateIntent hst _ _) fun _ => ?_
              exact .bind (twins_recordOutcome _) fun _ => .pure (.done _)
            · rw [if_neg hblock, if_neg hblock]
              have hasked : requiresChallenge d x.intent decision =
                  requiresChallenge d y.intent decision :=
                congr_masked (fun intent => requiresChallenge d intent decision)
                  (fun _ _ _ => rfl) (masked_of_visible hsame)
              have htext : challengeFor d x.intent decision = challengeFor d y.intent decision :=
                congr_masked (fun intent => challengeFor d intent decision)
                  (fun _ _ _ => rfl) (masked_of_visible hsame)
              rw [hasked, htext]
              by_cases hheld : (requiresChallenge d y.intent decision && !acknowledged) = true
              · rw [if_pos hheld, if_pos hheld]
                exact .pure (.done _)
              · rw [if_neg hheld, if_neg hheld]
                exact .pure (.awaiting (settle_alike _ _ hsame _ _))

/-! ## settle -/

theorem settleFailed_twins (hsame : i.masked = j.masked) (now error : String) :
    Twins (WorldAlike B) Same (settleFailed d i now error) (settleFailed d j now error) := by
  unfold settleFailed failedPayload
  rw [id_of_masked hsame]
  exact .bind (twins_record _ (.refl _) _) fun _ => .pure rfl

theorem settleReturned_twins (hsame : i.masked = j.masked) (now : String) (receipt : Receipt)
    (verified : Except String Bool) :
    Twins (WorldAlike B) Same (settleReturned d i now receipt verified)
      (settleReturned d j now receipt verified) := by
  have hsettled : settledPayload i receipt = settledPayload j receipt :=
    congr_masked (fun intent => settledPayload intent receipt) (fun _ _ _ => rfl) hsame
  have hverified : ∀ ok, verifiedPayload i receipt ok = verifiedPayload j receipt ok := fun ok =>
    congr_masked (fun intent => verifiedPayload intent receipt ok) (fun _ _ _ => rfl) hsame
  have hbook : Twins (WorldAlike B) Same (book d i receipt verified)
      (book d j receipt verified) := by
    unfold book
    simp only [hsettled, hverified]
    refine .bind (twins_write fun hst => B.insertReceipt hst _) fun _ => ?_
    refine .bind (twins_record _ (.refl _) _) fun _ => ?_
    refine .bind (twins_eval rfl) ?_
    rintro ok _ rfl
    exact .bind (twins_record _ (.refl _) _) fun _ => .pure rfl
  refine .tryCatch (.bind hbook ?_) (settleFailed_twins hsame now)
  rintro settled _ rfl
  exact .pure rfl

/-! ## The rest of a call -/

theorem finish_twins {call call' : Call} (hcall : CallAlike d.config call call')
    (outcome : Except String (Receipt × Bool)) :
    Twins (WorldAlike B) Same (finish d call outcome) (finish d call' outcome) := by
  cases hcall with
  | @intro intent hsame =>
      have hrow : visibleRow d.config (executedIntent call outcome) =
          visibleRow d.config (executedIntent { call with intent := intent } outcome) := by
        cases outcome with
        | error e => exact unsettled_visible hsame _ _ _
        | ok settled => exact visibleRow_intent (executedIntent call (.ok settled)) hsame
      have hresult : settlementResult { call with intent := intent } outcome =
          settlementResult call outcome := by
        cases outcome <;> rfl
      unfold finish
      rw [hresult]
      simp only
      cases call.entry with
      | execute =>
          refine .bind (twins_write fun hst => B.insertIntent hst hrow) fun _ => ?_
          exact .bind (twins_recordOutcome _) fun _ => .pure rfl
      | approve =>
          refine .bind (twins_write fun hst => B.updateIntent hst _ _) fun _ => ?_
          exact .bind (twins_recordOutcome _) fun _ => .pure rfl

theorem refundReturned_twins (call : RefundCall) (refundRef : String) :
    Twins (WorldAlike B) Same (refundReturned d call refundRef)
      (refundReturned d call refundRef) := by
  refine .bind (twins_write fun hst => B.updateIntent hst _ _) fun _ => ?_
  exact .bind (twins_record _ (.refl _) _) fun _ => .pure rfl

/-- The operator controls write and record. -/
theorem control_twins {f : σ → Except String σ} (type : AuditEventType) (payload : JsValue)
    (now : String) (hf : ∀ {s t}, B.alike s t → Ends B.alike (f s) (f t)) :
    Twins (WorldAlike B) Same (do write f; record d type payload now)
      (do write f; record d type payload now) :=
  .bind (twins_write hf) fun _ => twins_record _ (.refl _) _

/-- What `refund` answers or asks of the rail. -/
theorem refund_alike (h : WorldAlike B w v) (now intentId : String)
    (amountMinor : Option JsNumber) (reason : Option String) :
    refund d w.store now intentId amountMinor reason =
      refund d v.store now intentId amountMinor reason := by
  have hfound := h.getIntent intentId
  unfold refund
  generalize d.store.getIntent w.store intentId = o at hfound ⊢
  generalize d.store.getIntent v.store intentId = o' at hfound ⊢
  cases hfound with
  | none => rfl
  | @some x y hrow =>
      obtain ⟨hsame, hy⟩ := row_of_visible hrow
      have hstatus : y.status = x.status := by rw [hy]
      have hrefunded : y.refundedMinor = x.refundedMinor := by rw [hy]
      have hreceipt : storedReceipt d v.store y = storedReceipt d w.store x := by
        have hid : y.receiptId = x.receiptId := by rw [hy]
        unfold storedReceipt
        rw [hid, B.getReceipt h.store]
      have hamount := amount_of_masked (masked_of_visible hsame)
      have hrail : y.intent.rail = x.intent.rail :=
        congr_masked PaymentIntent.rail (fun _ _ _ => rfl) (masked_of_visible hsame).symm
      simp only
      rw [hstatus, hrefunded, hreceipt, ← hamount, hrail]

end AgentWorth
