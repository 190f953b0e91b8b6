import AgentWorth.Executor.System
import AgentWorth.Lib.Effect

/-!
# What a step writes

A step changes the world through the writes of the store and through `record`,
in some order and up to the point where one of them throws.  A relation between
worlds that composes and that each of them obeys is therefore obeyed by every
step.
-/

namespace AgentWorth

open AgentWorth.Js AgentWorth.Lib

variable {σ : Type}

/-! ## The world a step leaves -/

theorem conclude_world {α : Type} (s : State σ) (ended : α → List Event)
    (r : EStateM.Result String (World σ) α) : (s.conclude ended r).1.world = stateAfter r := by
  cases r <;> rfl

theorem started_world (s : State σ) (r : EStateM.Result String (World σ) Started) :
    (s.started r).1.world = stateAfter r := by
  rcases r with ⟨_ | _, _⟩ | _ <;> rfl

theorem answered_world (s : State σ) (k : Nat) (call : Call) (answer : Event)
    (r : EStateM.Result String (World σ) (Except String (Receipt × Bool))) :
    (s.answered k call answer r).1.world = stateAfter r := by
  cases r <;> rfl

/-! ## Writes and records -/

/-- A write of the store other than to its audit table. -/
inductive StoreWrite (S : Store σ) (s : σ) : σ → Prop
  | setMeta {k : String} (v : String) (own : k = killKey ∨ k = failKey) :
      StoreWrite S s (S.setMeta s k v)
  | revokeMandate (id : String) : StoreWrite S s (S.revokeMandate s id)
  | insertMandate {m : Mandate} {s' : σ} (written : S.insertMandate s m = .ok s') :
      StoreWrite S s s'
  | updateMandate {id : String} {patch : MandatePatch} {s' : σ}
      (written : S.updateMandate s id patch = .ok s') : StoreWrite S s s'
  | insertIntent {x : StoredIntent} {s' : σ} (written : S.insertIntent s x = .ok s') :
      StoreWrite S s s'
  | updateIntent {id : String} {update : IntentUpdate} {s' : σ}
      (written : S.updateIntent s id update = .ok s') : StoreWrite S s s'
  | insertReceipt {r : Receipt} {s' : σ} (written : S.insertReceipt s r = .ok s') :
      StoreWrite S s s'

/-- A relation between worlds that composes, and that every write and every
record obeys. -/
structure StepRule (d : ExecutorDeps σ) (R : World σ → World σ → Prop) : Prop where
  refl : ∀ w, R w w
  trans : ∀ {a b c}, R a b → R b c → R a c
  write : ∀ {w : World σ} {store : σ}, StoreWrite d.store w.store store →
    R w { w with store := store }
  record : ∀ (type : AuditEventType) (members : List (String × JsValue)) (ts : String),
    Moves R (record d type (.obj members) ts)

namespace StepRule

variable {d : ExecutorDeps σ} {R : World σ → World σ → Prop} (h : StepRule d R)
include h

theorem moves_write {f : σ → Except String σ}
    (hf : ∀ {s s' : σ}, f s = .ok s' → StoreWrite d.store s s') :
    Moves R (AgentWorth.write f) := by
  intro w
  unfold AgentWorth.write
  split
  · next store hstore => exact h.write (hf hstore)
  · exact h.refl w

theorem moves_eval {α : Type} (x : Except String α) : Moves R (eval x : Exec σ α) := by
  intro w
  unfold eval
  split <;> exact h.refl w

theorem moves_recordOutcome (kind : OutcomeKind) : Moves R (recordOutcome d kind) :=
  fun _ => h.write (.setMeta _ (Or.inr rfl))

theorem moves_setMeta {k : String} (v : String) (own : k = killKey ∨ k = failKey) :
    Moves R (AgentWorth.write fun s => .ok (d.store.setMeta s k v)) :=
  h.moves_write fun hs => by
    cases hs
    exact .setMeta v own

/-! ## The segments -/

theorem moves_execute (src : Sources) (now : String) (intent : PaymentIntent)
    (attestation : Option Attestation) : Moves R (execute d src now intent attestation) := by
  refine .get fun w => ?_
  split
  · exact .bind h.trans (h.record _ _ _) fun _ =>
      .bind h.trans (h.moves_write .insertIntent) fun _ => .pure h.refl _
  · refine .bind h.trans (h.moves_eval _) fun decision =>
      .bind h.trans (h.moves_eval _) fun inputs =>
      .bind h.trans (h.record _ _ _) fun _ => ?_
    split
    · exact .bind h.trans (h.moves_write .insertIntent) fun _ =>
        .bind h.trans (h.moves_recordOutcome _) fun _ => .pure h.refl _
    · exact .bind h.trans (h.moves_write .insertIntent) fun _ => .pure h.refl _
    · exact .pure h.refl _

theorem moves_approve (src : Sources) (now intentId rationale : String)
    (acknowledged : Bool) : Moves R (approve d src now intentId rationale acknowledged) := by
  refine .get fun w => ?_
  split
  · exact .throw h.refl _
  · next stored hstored =>
      split
      · exact .throw h.refl _
      · split
        · exact .bind h.trans (h.record _ _ _) fun _ => .pure h.refl _
        · refine .bind h.trans (h.moves_eval _) fun decision =>
            .bind h.trans (h.record _ _ _) fun _ => ?_
          split
          · exact .bind h.trans (h.moves_write .updateIntent) fun _ =>
              .bind h.trans (h.moves_recordOutcome _) fun _ => .pure h.refl _
          · split
            · exact .pure h.refl _
            · exact .pure h.refl _

theorem moves_settleFailed (intent : PaymentIntent) (now error : String) :
    Moves R (settleFailed d intent now error) :=
  .bind h.trans (h.record _ _ _) fun _ => .pure h.refl _

theorem moves_settleReturned (intent : PaymentIntent) (now : String) (receipt : Receipt)
    (verified : Except String Bool) :
    Moves R (settleReturned d intent now receipt verified) := by
  refine .tryCatch h.trans (.bind h.trans ?_ fun _ => .pure h.refl _)
    (h.moves_settleFailed intent now)
  exact .bind h.trans (h.moves_write .insertReceipt) fun _ =>
    .bind h.trans (h.record _ _ _) fun _ =>
    .bind h.trans (h.moves_eval _) fun _ =>
    .bind h.trans (h.record _ _ _) fun _ => .pure h.refl _

theorem moves_finish (call : Call) (outcome : Except String (Receipt × Bool)) :
    Moves R (finish d call outcome) := by
  unfold finish
  split
  · exact .bind h.trans (h.moves_write .insertIntent) fun _ =>
      .bind h.trans (h.moves_recordOutcome _) fun _ => .pure h.refl _
  · exact .bind h.trans (h.moves_write .updateIntent) fun _ =>
      .bind h.trans (h.moves_recordOutcome _) fun _ => .pure h.refl _

theorem moves_refundReturned (call : RefundCall) (refundRef : String) :
    Moves R (refundReturned d call refundRef) :=
  .bind h.trans (h.moves_write .updateIntent) fun _ =>
    .bind h.trans (h.record _ _ _) fun _ => .pure h.refl _

/-- The operator controls write and record. -/
theorem moves_control {f : σ → Except String σ} {type : AuditEventType}
    {members : List (String × JsValue)} {now : String}
    (hf : ∀ {s s' : σ}, f s = .ok s' → StoreWrite d.store s s') :
    Moves R (do AgentWorth.write f; AgentWorth.record d type (.obj members) now) :=
  .bind h.trans (h.moves_write hf) fun _ => h.record _ _ _

/-- **Every step obeys the rule.** -/
theorem of_step {s s' : State σ} {a : Action} {es : List Event}
    (htaken : step d s a = some (s', es)) : R s.world s'.world := by
  have hconclude : ∀ {α : Type} {s₀ : State σ} {ended : α → List Event} {x : Exec σ α},
      Moves R x → s₀.conclude ended (x s.world) = (s', es) → R s.world s'.world := by
    intro α s₀ ended x hmoves heq
    have hmoved := hmoves s.world
    rw [← conclude_world s₀ ended, heq] at hmoved
    exact hmoved
  cases a with
  | execute now src intent attestation =>
      have hmoved := h.moves_execute src now intent attestation s.world
      rw [← started_world s, Option.some.inj htaken] at hmoved
      exact hmoved
  | approve now src intentId rationale acknowledged =>
      have hmoved := h.moves_approve src now intentId rationale acknowledged s.world
      rw [← started_world s, Option.some.inj htaken] at hmoved
      exact hmoved
  | railReturns k receipt verified =>
      obtain ⟨⟨call, provider⟩, -, heq⟩ := Option.map_eq_some_iff.1 htaken
      simp only at heq
      have hmoved := h.moves_settleReturned call.intent call.now (issuedBy provider receipt)
        verified s.world
      rw [← answered_world s k call (.railSettled call provider receipt), heq] at hmoved
      exact hmoved
  | railThrows k error =>
      obtain ⟨⟨call, provider⟩, -, heq⟩ := Option.map_eq_some_iff.1 htaken
      simp only at heq
      have hmoved := h.moves_settleFailed call.intent call.now error s.world
      rw [← answered_world s k call (.railFailed call error), heq] at hmoved
      exact hmoved
  | resume k =>
      obtain ⟨⟨call, outcome⟩, -, heq⟩ := Option.map_eq_some_iff.1 htaken
      exact hconclude (h.moves_finish call outcome) heq
  | refund now intentId amountMinor reason =>
      simp only [step] at htaken
      split at htaken <;> cases htaken <;> exact h.refl _
  | refundReturns k refundRef =>
      obtain ⟨call, -, heq⟩ := Option.map_eq_some_iff.1 htaken
      have hmoved := h.moves_refundReturned call refundRef s.world
      rw [← conclude_world { s with refunds := s.refunds.eraseIdx k }
        (fun r => [.refundFinished r])] at hmoved
      cases heq
      exact hmoved
  | refundThrows k error =>
      obtain ⟨call, -, heq⟩ := Option.map_eq_some_iff.1 htaken
      cases heq
      exact h.refl _
  | grantMandate now m =>
      exact hconclude (h.moves_control .insertMandate) (Option.some.inj htaken)
  | revokeMandate now id =>
      refine hconclude (h.moves_control fun hs => ?_) (Option.some.inj htaken)
      cases hs
      exact .revokeMandate id
  | amendMandate now id patch =>
      exact hconclude (h.moves_control .updateMandate) (Option.some.inj htaken)
  | extendMandate now id expiresAt =>
      exact hconclude (h.moves_control .updateMandate) (Option.some.inj htaken)
  | engageKillSwitch =>
      exact hconclude (h.moves_setMeta _ (Or.inl rfl)) (Option.some.inj htaken)
  | disengageKillSwitch =>
      exact hconclude (h.moves_setMeta _ (Or.inl rfl)) (Option.some.inj htaken)
  | resetCircuitBreaker =>
      exact hconclude (h.moves_setMeta _ (Or.inr rfl)) (Option.some.inj htaken)

end StepRule

end AgentWorth
