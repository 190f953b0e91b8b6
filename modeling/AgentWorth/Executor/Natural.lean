import AgentWorth.Executor.System
import AgentWorth.Lib.Projection
import AgentWorth.Lib.TwoRuns

/-!
# The executor is natural in its store

The executor knows its store by the answers it gets.  A map between the states
of two stores that keeps every answer the executor asks for, and that every
write of the executor commutes with, therefore carries its runs over: the same
calls are possible, emit the same events and append the same entries.
-/

namespace AgentWorth

open AgentWorth.Js AgentWorth.Js.Json AgentWorth.Lib

variable {σ τ : Type}

/-- What one store looks like as another, to the executor. -/
structure StoreMap (S : Store σ) (T : Store τ) where
  app : σ → τ
  /- reads -/
  getMeta : ∀ s k, k = killKey ∨ k = failKey → T.getMeta (app s) k = S.getMeta s k
  getMandate : ∀ s, T.getMandate (app s) = S.getMandate s
  listMandates : ∀ s, T.listMandates (app s) = S.listMandates s
  listActiveMandates : ∀ s, T.listActiveMandates (app s) = S.listActiveMandates s
  getIntent : ∀ s, T.getIntent (app s) = S.getIntent s
  getReceipt : ∀ s, T.getReceipt (app s) = S.getReceipt s
  periodSpend : ∀ s, T.periodSpend (app s) = S.periodSpend s
  knownPayees : ∀ s, T.knownPayees (app s) = S.knownPayees s
  payeeSettledCount : ∀ s, T.payeeSettledCount (app s) = S.payeeSettledCount s
  /- writes -/
  setMeta : ∀ s k v, k = killKey ∨ k = failKey → T.setMeta (app s) k v = app (S.setMeta s k v)
  revokeMandate : ∀ s id, T.revokeMandate (app s) id = app (S.revokeMandate s id)
  insertMandate : ∀ s m, T.insertMandate (app s) m = (S.insertMandate s m).map app
  updateMandate : ∀ s id patch,
    T.updateMandate (app s) id patch = (S.updateMandate s id patch).map app
  insertIntent : ∀ s x, T.insertIntent (app s) x = (S.insertIntent s x).map app
  updateIntent : ∀ s id update,
    T.updateIntent (app s) id update = (S.updateIntent s id update).map app
  insertReceipt : ∀ s r, T.insertReceipt (app s) r = (S.insertReceipt s r).map app
  appendAudit : ∀ s e, T.appendAudit (app s) e = (S.appendAudit s e).map app

/-- The same executor over another store. -/
def ExecutorDeps.over (d : ExecutorDeps σ) (T : Store τ) : ExecutorDeps τ where
  store := T
  rails := d.rails
  crypto := d.crypto
  config := d.config
  denyRules := d.denyRules
  circuitBreakerThreshold := d.circuitBreakerThreshold
  challengeThresholdMinor := d.challengeThresholdMinor
  tokenDecimals := d.tokenDecimals

namespace ExecutorDeps

variable (d : ExecutorDeps σ) (T : Store τ)

@[simp] theorem over_store : (d.over T).store = T := rfl

@[simp] theorem over_rails : (d.over T).rails = d.rails := rfl

@[simp] theorem over_crypto : (d.over T).crypto = d.crypto := rfl

@[simp] theorem over_config : (d.over T).config = d.config := rfl

@[simp] theorem over_denyRules : (d.over T).denyRules = d.denyRules := rfl

@[simp] theorem over_tokenDecimals : (d.over T).tokenDecimals = d.tokenDecimals := rfl

end ExecutorDeps

namespace StoreMap

variable {S : Store σ} {T : Store τ} (f : StoreMap S T)

def world (w : World σ) : World τ where
  store := f.app w.store
  audit := w.audit

def state (s : State σ) : State τ where
  world := f.world s.world
  calls := s.calls
  refunds := s.refunds

/-- One world is what the other looks like. -/
def Shows (w : World σ) (v : World τ) : Prop := v = f.world w

end StoreMap

variable {d : ExecutorDeps σ} {T : Store τ} (f : StoreMap d.store T)

namespace StoreMap

/-! ## What is read -/

theorem isKilled (s : σ) : isKilled (d.over T) (f.app s) = AgentWorth.isKilled d s := by
  rw [AgentWorth.isKilled, d.over_store, f.getMeta s killKey (.inl rfl)]
  rfl

theorem failures (s : σ) : failures (d.over T) (f.app s) = AgentWorth.failures d s := by
  rw [AgentWorth.failures, d.over_store, f.getMeta s failKey (.inr rfl)]
  rfl

theorem haltReason (s : σ) : haltReason (d.over T) (f.app s) = AgentWorth.haltReason d s := by
  rw [AgentWorth.haltReason, breakerOpen, f.isKilled, f.failures]
  rfl

theorem policyHash (s : σ) : policyHash (d.over T) (f.app s) = AgentWorth.policyHash d s := by
  simp only [AgentWorth.policyHash, ExecutorDeps.over_store, ExecutorDeps.over_crypto,
    ExecutorDeps.over_config, ExecutorDeps.over_denyRules, f.listMandates]

theorem context (src : Sources) (s : σ) (now : String) (intent : PaymentIntent)
    (attestation : Option Attestation) :
    context (d.over T) src (f.app s) now intent attestation =
      AgentWorth.context d src s now intent attestation := by
  simp only [AgentWorth.context, ExecutorDeps.over_store, ExecutorDeps.over_rails,
    ExecutorDeps.over_config, ExecutorDeps.over_denyRules, ExecutorDeps.over_tokenDecimals,
    f.listActiveMandates, f.periodSpend, f.knownPayees, f.payeeSettledCount]

theorem agentDecision (src : Sources) (w : World σ) (now : String) (intent : PaymentIntent)
    (attestation : Option Attestation) :
    agentDecision (d.over T) src (f.world w) now intent attestation =
      AgentWorth.agentDecision d src w now intent attestation := by
  have hstreaming : ∀ decision, isStreaming (d.over T) (f.app w.store) decision =
      isStreaming d w.store decision := by
    intro decision
    simp only [isStreaming, ExecutorDeps.over_store, f.getMandate]
  simp only [AgentWorth.agentDecision, chainAlert, world, hstreaming, f.context]

theorem replayInputs (src : Sources) (s : σ) (now : String) (intent : PaymentIntent)
    (attestation : Option Attestation) :
    replayInputs (d.over T) src (f.app s) now intent attestation =
      AgentWorth.replayInputs d src s now intent attestation := by
  have hspend : ∀ ms, collectSpend (d.over T) (f.app s) now ms = collectSpend d s now ms := by
    intro ms
    induction ms with
    | nil => rfl
    | cons m ms ih => simp only [collectSpend, ih, ExecutorDeps.over_store, f.periodSpend]
  have hrates : capturedRates (d.over T) src (f.app s) now intent =
      capturedRates d src s now intent := by
    simp only [capturedRates, ExecutorDeps.over_store, f.listActiveMandates]
  simp only [AgentWorth.replayInputs, hspend, hrates, ExecutorDeps.over_store,
    ExecutorDeps.over_rails, f.listActiveMandates, f.knownPayees, f.payeeSettledCount]

theorem refund (s : σ) (now intentId : String) (amountMinor : Option JsNumber)
    (reason : Option String) :
    refund (d.over T) (f.app s) now intentId amountMinor reason =
      AgentWorth.refund d s now intentId amountMinor reason := by
  have hreceipt : ∀ stored, storedReceipt (d.over T) (f.app s) stored =
      storedReceipt d s stored := by
    intro stored
    simp only [storedReceipt, ExecutorDeps.over_store, f.getReceipt]
  have hprovider : refundProvider (d.over T) = refundProvider d := rfl
  simp only [AgentWorth.refund, hreceipt, hprovider, ExecutorDeps.over_store, f.getIntent]

/-! ## Writes and records -/

theorem twins_write {g : σ → Except String σ} {h : τ → Except String τ}
    (hgh : ∀ s, h (f.app s) = (g s).map f.app) :
    Twins f.Shows Eq (write g) (write h) := by
  rintro w _ rfl
  simp only [write, world, hgh]
  cases g w.store with
  | ok store => exact .ok rfl rfl
  | error e => exact .error e rfl

theorem twins_eval {α : Type} {x y : Except String α} (hxy : x = y) :
    Twins f.Shows Eq (eval x) (eval y) := by
  rintro w _ rfl
  subst hxy
  cases x with
  | ok a => exact .ok rfl rfl
  | error e => exact .error e rfl

theorem twins_recordOutcome (kind : OutcomeKind) :
    Twins f.Shows Eq (recordOutcome d kind) (recordOutcome (d.over T) kind) := by
  rintro w _ rfl
  refine .ok rfl ?_
  show World.mk _ _ = World.mk _ _
  simp only [world, f.failures]
  rw [← f.setMeta _ _ _ (.inr rfl)]
  rfl

theorem twins_record (type : AuditEventType) (payload : JsValue) (ts : String) :
    Twins f.Shows Eq (record d type payload ts) (record (d.over T) type payload ts) := by
  rintro w _ rfl
  have happended : appendEntry (d.over T) type payload ts (f.world w) =
      appendEntry d type payload ts w := by
    simp only [appendEntry, world, f.policyHash]
    rfl
  unfold record
  rw [happended]
  cases appendEntry d type payload ts w with
  | error e => exact .error e rfl
  | ok appended =>
      obtain ⟨entry, audit⟩ := appended
      have hstored : (d.over T).store.appendAudit (f.world w).store entry =
          (d.store.appendAudit w.store entry).map f.app := f.appendAudit w.store entry
      simp only
      rw [hstored]
      cases d.store.appendAudit w.store entry with
      | error e => exact .error e rfl
      | ok store => exact .ok rfl rfl

/-! ## Segments -/

theorem execute_twins (src : Sources) (now : String) (intent : PaymentIntent)
    (attestation : Option Attestation) :
    Twins f.Shows Eq (execute d src now intent attestation)
      (execute (d.over T) src now intent attestation) := by
  refine .get ?_
  rintro w _ rfl
  rw [show (f.world w).store = f.app w.store from rfl, f.haltReason]
  cases AgentWorth.haltReason d w.store with
  | some halt =>
      refine .bind (f.twins_record _ _ _) fun _ => ?_
      exact .bind (f.twins_write fun s => f.insertIntent s _) fun _ => .pure rfl
  | none =>
      refine .bind (f.twins_eval (f.agentDecision src w now intent attestation).symm) ?_
      rintro decision _ rfl
      refine .bind (f.twins_eval (f.replayInputs src w.store now intent attestation).symm) ?_
      rintro inputs _ rfl
      refine .bind (f.twins_record _ _ _) fun _ => ?_
      cases decision.outcome with
      | block =>
          refine .bind (f.twins_write fun s => f.insertIntent s _) fun _ => ?_
          exact .bind (f.twins_recordOutcome _) fun _ => .pure rfl
      | confirmOperator =>
          exact .bind (f.twins_write fun s => f.insertIntent s _) fun _ => .pure rfl
      | autoExecute => exact .pure rfl

theorem approve_twins (src : Sources) (now intentId rationale : String) (acknowledged : Bool) :
    Twins f.Shows Eq (approve d src now intentId rationale acknowledged)
      (approve (d.over T) src now intentId rationale acknowledged) := by
  refine .get ?_
  rintro w _ rfl
  rw [show (f.world w).store = f.app w.store from rfl, f.haltReason,
    show (d.over T).store.getIntent (f.app w.store) = _ from f.getIntent w.store]
  cases d.store.getIntent w.store intentId with
  | none => exact .throw _
  | some stored =>
      simp only
      by_cases hpending : stored.status ≠ .pending
      · rw [if_pos hpending, if_pos hpending]
        exact .throw _
      · rw [if_neg hpending, if_neg hpending]
        cases AgentWorth.haltReason d w.store with
        | some halt => exact .bind (f.twins_record _ _ _) fun _ => .pure rfl
        | none =>
            refine .bind (f.twins_eval (by rw [f.context])) ?_
            rintro decision _ rfl
            refine .bind (f.twins_record _ _ _) fun _ => ?_
            by_cases hblock : decision.outcome = .block
            · rw [if_pos hblock, if_pos hblock]
              refine .bind (f.twins_write fun s => f.updateIntent s _ _) fun _ => ?_
              exact .bind (f.twins_recordOutcome _) fun _ => .pure rfl
            · rw [if_neg hblock, if_neg hblock]
              have hasked : requiresChallenge (d.over T) stored.intent decision =
                  requiresChallenge d stored.intent decision := rfl
              rw [hasked]
              by_cases hheld :
                  (requiresChallenge d stored.intent decision && !acknowledged) = true
              · rw [if_pos hheld, if_pos hheld]
                exact .pure rfl
              · rw [if_neg hheld, if_neg hheld]
                exact .pure rfl

theorem settleFailed_twins (intent : PaymentIntent) (now error : String) :
    Twins f.Shows Eq (settleFailed d intent now error)
      (settleFailed (d.over T) intent now error) :=
  .bind (f.twins_record _ _ _) fun _ => .pure rfl

theorem settleReturned_twins (intent : PaymentIntent) (now : String) (receipt : Receipt)
    (verified : Except String Bool) :
    Twins f.Shows Eq (settleReturned d intent now receipt verified)
      (settleReturned (d.over T) intent now receipt verified) := by
  have hbook : Twins f.Shows Eq (book d intent receipt verified)
      (book (d.over T) intent receipt verified) := by
    refine .bind (f.twins_write fun s => f.insertReceipt s _) fun _ => ?_
    refine .bind (f.twins_record _ _ _) fun _ => ?_
    refine .bind (f.twins_eval rfl) ?_
    rintro ok _ rfl
    exact .bind (f.twins_record _ _ _) fun _ => .pure rfl
  refine .tryCatch (.bind hbook ?_) (f.settleFailed_twins intent now)
  rintro settled _ rfl
  exact .pure rfl

theorem finish_twins (call : Call) (outcome : Except String (Receipt × Bool)) :
    Twins f.Shows Eq (finish d call outcome) (finish (d.over T) call outcome) := by
  unfold finish
  cases call.entry with
  | execute =>
      refine .bind (f.twins_write fun s => f.insertIntent s _) fun _ => ?_
      exact .bind (f.twins_recordOutcome _) fun _ => .pure rfl
  | approve =>
      refine .bind (f.twins_write fun s => f.updateIntent s _ _) fun _ => ?_
      exact .bind (f.twins_recordOutcome _) fun _ => .pure rfl

theorem refundReturned_twins (call : RefundCall) (refundRef : String) :
    Twins f.Shows Eq (refundReturned d call refundRef)
      (refundReturned (d.over T) call refundRef) := by
  refine .bind (f.twins_write fun s => f.updateIntent s _ _) fun _ => ?_
  exact .bind (f.twins_record _ _ _) fun _ => .pure rfl

/-- The operator controls write and record. -/
theorem control_twins {g : σ → Except String σ} {h : τ → Except String τ}
    (type : AuditEventType) (payload : JsValue) (now : String)
    (hgh : ∀ s, h (f.app s) = (g s).map f.app) :
    Twins f.Shows Eq (do write g; record d type payload now)
      (do write h; record (d.over T) type payload now) :=
  .bind (f.twins_write hgh) fun _ => f.twins_record _ _ _

/-! ## Steps -/

theorem conclude {α : Type} (s : State σ) (ended : α → List Event) {x : Exec σ α} {y : Exec τ α}
    (hxy : Twins f.Shows Eq x y) :
    (f.state s).conclude ended (y (f.world s.world)) =
      (f.state (s.conclude ended (x s.world)).1, (s.conclude ended (x s.world)).2) := by
  have hends := hxy s.world _ rfl
  generalize x s.world = r at hends ⊢
  generalize y (f.world s.world) = r' at hends ⊢
  cases hends with
  | ok hsame hshows =>
      cases hsame
      cases hshows
      rfl
  | error e hshows =>
      cases hshows
      rfl

theorem started (s : State σ) {x : Exec σ Started} {y : Exec τ Started}
    (hxy : Twins f.Shows Eq x y) :
    (f.state s).started (y (f.world s.world)) =
      (f.state (s.started (x s.world)).1, (s.started (x s.world)).2) := by
  have hends := hxy s.world _ rfl
  generalize x s.world = r at hends ⊢
  generalize y (f.world s.world) = r' at hends ⊢
  cases hends with
  | @ok a _ w _ hsame hshows =>
      cases hsame
      cases hshows
      cases a with
      | done result => rfl
      | awaiting call => rfl
  | error e hshows =>
      cases hshows
      rfl

theorem answered (s : State σ) (k : Nat) (call : Call) (answer : Event)
    {x : Exec σ (Except String (Receipt × Bool))} {y : Exec τ (Except String (Receipt × Bool))}
    (hxy : Twins f.Shows Eq x y) :
    (f.state s).answered k call answer (y (f.world s.world)) =
      (f.state (s.answered k call answer (x s.world)).1,
        (s.answered k call answer (x s.world)).2) := by
  have hends := hxy s.world _ rfl
  generalize x s.world = r at hends ⊢
  generalize y (f.world s.world) = r' at hends ⊢
  cases hends with
  | ok hsame hshows =>
      cases hsame
      cases hshows
      rfl
  | error e hshows =>
      cases hshows
      rfl

/-- **Naturality.**  What a state looks like steps as the state does. -/
theorem image : (executor d).Image (executor (d.over T)) f.state := by
  intro s a
  show step (d.over T) (f.state s) a = (step d s a).map _
  cases a with
  | execute now src intent attestation =>
      exact congrArg some (f.started s (f.execute_twins src now intent attestation))
  | approve now src intentId rationale acknowledged =>
      exact congrArg some (f.started s (f.approve_twins src now intentId rationale acknowledged))
  | railReturns k receipt verified =>
      simp only [step, Option.map_map]
      show Option.map _ (atRail s k) = Option.map _ (atRail s k)
      refine congrArg (Option.map · (atRail s k)) (funext ?_)
      rintro ⟨call, provider⟩
      exact f.answered s k call _ (f.settleReturned_twins _ _ _ _)
  | railThrows k error =>
      simp only [step, Option.map_map]
      show Option.map _ (atRail s k) = Option.map _ (atRail s k)
      refine congrArg (Option.map · (atRail s k)) (funext ?_)
      rintro ⟨call, provider⟩
      exact f.answered s k call _ (f.settleFailed_twins _ _ _)
  | resume k =>
      simp only [step, Option.map_map]
      show Option.map _ (atResume s k) = Option.map _ (atResume s k)
      refine congrArg (Option.map · (atResume s k)) (funext ?_)
      rintro ⟨call, outcome⟩
      exact f.conclude { s with calls := s.calls.eraseIdx k } _ (f.finish_twins call outcome)
  | refund now intentId amountMinor reason =>
      simp only [step]
      rw [show (f.state s).world.store = f.app s.world.store from rfl, f.refund]
      cases AgentWorth.refund d s.world.store now intentId amountMinor reason with
      | error e => rfl
      | ok asked => cases asked <;> rfl
  | refundReturns k refundRef =>
      simp only [step, Option.map_map]
      show Option.map _ s.refunds[k]? = Option.map _ s.refunds[k]?
      refine congrArg (Option.map · s.refunds[k]?) (funext fun call => ?_)
      have hstep := f.conclude { s with refunds := s.refunds.eraseIdx k }
        (fun r => [.refundFinished r]) (f.refundReturned_twins call refundRef)
      exact congrArg (fun r : State τ × List Event => (r.1, .refundSettled call :: r.2)) hstep
  | refundThrows k error =>
      simp only [step, Option.map_map]
      rfl
  | grantMandate now m =>
      exact congrArg some (f.conclude s _ (f.control_twins _ _ _ fun s => f.insertMandate s m))
  | revokeMandate now id =>
      exact congrArg some (f.conclude s _ (f.control_twins _ _ _ fun s =>
        congrArg Except.ok (f.revokeMandate s id)))
  | amendMandate now id patch =>
      exact congrArg some (f.conclude s _
        (f.control_twins _ _ _ fun s => f.updateMandate s id patch))
  | extendMandate now id expiresAt =>
      exact congrArg some (f.conclude s _ (f.control_twins _ _ _ fun s => f.updateMandate s id _))
  | engageKillSwitch =>
      exact congrArg some (f.conclude s _ (f.twins_write fun s =>
        congrArg Except.ok (f.setMeta s _ _ (.inl rfl))))
  | disengageKillSwitch =>
      exact congrArg some (f.conclude s _ (f.twins_write fun s =>
        congrArg Except.ok (f.setMeta s _ _ (.inl rfl))))
  | resetCircuitBreaker =>
      exact congrArg some (f.conclude s _ (f.twins_write fun s =>
        congrArg Except.ok (f.setMeta s _ _ (.inr rfl))))

end StoreMap

end AgentWorth
