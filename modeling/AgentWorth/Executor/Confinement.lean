import AgentWorth.Executor.Authority
import AgentWorth.Executor.Rows
import AgentWorth.Executor.Writes

/-!
# What an agent can reach

An agent's surfaces call `execute` and nothing else; the steps it can cause are
those calls, what their rails answer, and their ends.  None of them touches the
operator's side of the state: the mandates, the kill switch, and every intent
already filed, pending ones included.  What an agent can do is file new rows
under the gate.
-/

namespace AgentWorth

open AgentWorth.Js AgentWorth.Lib

variable {σ : Type} {d : ExecutorDeps σ} (C : Contract d.store)

/-- The steps an agent can cause. -/
def Action.isAgent : Action → Bool
  | .execute .. | .railReturns .. | .railThrows .. | .resume _ => true
  | _ => false

/-! ## The flag -/

/-- The kill switch reads as it did. -/
def SameFlag (d : ExecutorDeps σ) (w w' : World σ) : Prop :=
  d.store.getMeta w'.store killKey = d.store.getMeta w.store killKey

theorem SameFlag.refl (w : World σ) : SameFlag d w w := rfl

theorem SameFlag.trans {a b c : World σ} (h : SameFlag d a b) (h' : SameFlag d b c) :
    SameFlag d a c := Eq.trans h' h

include C in
theorem sameFlag_of_meta {w : World σ} {store : σ}
    (h : (C.books store).meta'.get killKey = (C.books w.store).meta'.get killKey) :
    SameFlag d w { w with store := store } := by
  unfold SameFlag
  rw [C.getMeta, C.getMeta, h]

include C in
theorem moves_record_sameFlag (type : AuditEventType) (payload : JsValue) (ts : String) :
    Moves (SameFlag d) (record d type payload ts) := by
  intro w
  unfold record
  split
  · rfl
  · split
    · rfl
    · next store hstore =>
        obtain ⟨rows, -, hbooks⟩ := C.appendAudit hstore
        have hsame : SameFlag d w { w with store := store } :=
          sameFlag_of_meta C (by rw [hbooks])
        exact hsame

theorem moves_write_sameFlag {f : σ → Except String σ}
    (hf : ∀ {w : World σ} {store : σ}, f w.store = .ok store →
      SameFlag d w { w with store := store }) : Moves (SameFlag d) (write f) := by
  intro w
  unfold write
  split
  · next store hstore => exact hf hstore
  · rfl

include C in
theorem moves_insertIntent_sameFlag (x : StoredIntent) :
    Moves (SameFlag d) (write fun s => d.store.insertIntent s x) := by
  refine moves_write_sameFlag fun hstore => ?_
  obtain ⟨-, hbooks⟩ := C.insertIntent_spec hstore
  exact sameFlag_of_meta C (by rw [hbooks])

include C in
theorem moves_updateIntent_sameFlag (id : String) (u : IntentUpdate) :
    Moves (SameFlag d) (write fun s => d.store.updateIntent s id u) := by
  refine moves_write_sameFlag fun hstore => ?_
  obtain ⟨x, -, hbooks⟩ := C.updateIntent_spec hstore
  exact sameFlag_of_meta C (by rw [hbooks])

include C in
theorem moves_insertReceipt_sameFlag (r : Receipt) :
    Moves (SameFlag d) (write fun s => d.store.insertReceipt s r) := by
  refine moves_write_sameFlag fun hstore => ?_
  exact sameFlag_of_meta C (by rw [C.insertReceipt hstore]; rfl)

include C in
/-- The counter of failures is kept under another key. -/
theorem moves_recordOutcome_sameFlag (kind : OutcomeKind) :
    Moves (SameFlag d) (recordOutcome d kind) := by
  intro w
  refine sameFlag_of_meta C ?_
  rw [C.setMeta, Books.setMeta, JsMap.get_set, if_neg (by decide)]

theorem moves_eval_sameFlag {α : Type} (x : Except String α) :
    Moves (SameFlag d) (eval x : Exec σ α) := by
  intro w
  unfold eval
  split <;> rfl

include C in
theorem moves_execute_sameFlag (src : Sources) (now : String) (intent : PaymentIntent)
    (attestation : Option Attestation) :
    Moves (SameFlag d) (execute d src now intent attestation) := by
  have hpure : ∀ {α : Type} (a : α), Moves (SameFlag d) (pure a : Exec σ α) :=
    fun a => .pure SameFlag.refl a
  refine .get fun w => ?_
  split
  · exact .bind SameFlag.trans (moves_record_sameFlag C _ _ _) fun _ =>
      .bind SameFlag.trans (moves_insertIntent_sameFlag C _) fun _ => hpure _
  · refine .bind SameFlag.trans (moves_eval_sameFlag _) fun decision =>
      .bind SameFlag.trans (moves_eval_sameFlag _) fun inputs =>
      .bind SameFlag.trans (moves_record_sameFlag C _ _ _) fun _ => ?_
    split
    · exact .bind SameFlag.trans (moves_insertIntent_sameFlag C _) fun _ =>
        .bind SameFlag.trans (moves_recordOutcome_sameFlag C _) fun _ => hpure _
    · exact .bind SameFlag.trans (moves_insertIntent_sameFlag C _) fun _ => hpure _
    · exact hpure _

include C in
theorem moves_settleFailed_sameFlag (intent : PaymentIntent) (now error : String) :
    Moves (SameFlag d) (settleFailed d intent now error) :=
  .bind SameFlag.trans (moves_record_sameFlag C _ _ _) fun _ => .pure SameFlag.refl _

include C in
theorem moves_settleReturned_sameFlag (intent : PaymentIntent) (now : String)
    (receipt : Receipt) (verified : Except String Bool) :
    Moves (SameFlag d) (settleReturned d intent now receipt verified) := by
  refine .tryCatch SameFlag.trans (.bind SameFlag.trans ?_ fun _ => .pure SameFlag.refl _)
    (moves_settleFailed_sameFlag C intent now)
  exact .bind SameFlag.trans (moves_insertReceipt_sameFlag C _) fun _ =>
    .bind SameFlag.trans (moves_record_sameFlag C _ _ _) fun _ =>
    .bind SameFlag.trans (moves_eval_sameFlag _) fun _ =>
    .bind SameFlag.trans (moves_record_sameFlag C _ _ _) fun _ => .pure SameFlag.refl _

include C in
theorem moves_finish_sameFlag (call : Call) (outcome : Except String (Receipt × Bool)) :
    Moves (SameFlag d) (finish d call outcome) := by
  have hend : ∀ (kind : OutcomeKind) (result : ExecuteResult),
      Moves (SameFlag d) (do recordOutcome d kind; return result) :=
    fun kind result => .bind SameFlag.trans (moves_recordOutcome_sameFlag C kind) fun _ =>
      .pure SameFlag.refl _
  unfold finish
  split
  · exact .bind SameFlag.trans (moves_insertIntent_sameFlag C _) fun _ => hend _ _
  · exact .bind SameFlag.trans (moves_updateIntent_sameFlag C _ _) fun _ => hend _ _

include C in
/-- **An agent's step leaves the kill switch as it is.** -/
theorem sameFlag_of_step {s s' : State σ} {a : Action} {es : List Event}
    (hagent : a.isAgent = true) (htaken : step d s a = some (s', es)) :
    SameFlag d s.world s'.world := by
  cases a with
  | execute now src intent attestation =>
      have hmoved := moves_execute_sameFlag C src now intent attestation s.world
      rw [← started_world s, Option.some.inj htaken] at hmoved
      exact hmoved
  | railReturns k receipt verified =>
      obtain ⟨⟨call, provider⟩, -, heq⟩ := Option.map_eq_some_iff.1 htaken
      simp only at heq
      have hmoved := moves_settleReturned_sameFlag C call.intent call.now
        (issuedBy provider receipt) verified s.world
      rw [← answered_world s k call (.railSettled call provider receipt), heq] at hmoved
      exact hmoved
  | railThrows k error =>
      obtain ⟨⟨call, provider⟩, -, heq⟩ := Option.map_eq_some_iff.1 htaken
      simp only at heq
      have hmoved := moves_settleFailed_sameFlag C call.intent call.now error s.world
      rw [← answered_world s k call (.railFailed call error), heq] at hmoved
      exact hmoved
  | resume k =>
      obtain ⟨⟨call, outcome⟩, -, heq⟩ := Option.map_eq_some_iff.1 htaken
      have hmoved := moves_finish_sameFlag C call outcome s.world
      rw [← conclude_world { s with calls := s.calls.eraseIdx k }
        (fun r => [.finished call r])] at hmoved
      simp only at heq
      rw [heq] at hmoved
      exact hmoved
  | _ => cases hagent

/-! ## The operator's side -/

/-- The operator's side of the state is as it was, and no approval or refund is
under way. -/
structure Confined (s₀ s : State σ) : Prop where
  mandates : (s.books C).mandates = (s₀.books C).mandates
  killSwitch : SameFlag d s₀.world s.world
  rows : ∀ id x, (s₀.books C).intents.get id = some x → (s.books C).intents.get id = some x
  calls : ∀ call ∈ s.calls, call.entry = .execute
  refunds : s.refunds = []

/-- No approval and no refund is under way. -/
theorem Confined.start {s₀ : State σ} (hcalls : ∀ call ∈ s₀.calls, call.entry = .execute)
    (hrefunds : s₀.refunds = []) : Confined C s₀ s₀ where
  mandates := rfl
  killSwitch := rfl
  rows _ _ h := h
  calls := hcalls
  refunds := hrefunds

variable {C} {s₀ s s' : State σ} {a : Action} {es : List Event}

/-- Rows are rewritten for approvals and refunds only. -/
theorem Effect.row_of_agent (heffect : Effect C s a s' es) (hagent : a.isAgent = true)
    (hcalls : ∀ call ∈ s.calls, call.entry = .execute) (hrefunds : s.refunds = []) {id : String}
    {x : StoredIntent} (hx : (s.books C).intents.get id = some x) :
    (s'.books C).intents.get id = some x := by
  obtain ⟨x', hx', hchange⟩ := heffect.row C hx
  cases hchange with
  | kept unrefunded => exact hx'
  | refundLost waiting named nan => exact hx'
  | refunded waiting named quiet =>
      rw [hrefunds] at waiting
      cases waiting
  | approved waiting entry named =>
      have hentry := hcalls _ (List.mem_of_getElem? (atResume_iff.1 waiting).1)
      rw [entry] at hentry
      cases hentry
  | refused pending unrefunded =>
      -- only `approve` blocks a pending row, and it is no step of an agent
      have hkeep : (s'.books C).intents = (s.books C).intents →
          (s'.books C).intents.get id = some x := fun h => by rw [h, hx]
      cases heffect with
      | quiet same calls refunds quiet => exact hkeep same.intents
      | filed intent_eq status unrefunded fresh mandates intents =>
          rw [intents, Table.get_put_of_ne, hx]
          rintro rfl
          rw [C.saved_id, fresh] at hx
          cases hx
      | executeStarted runs decides automatic recorded => exact hkeep recorded.same.intents
      | answered waiting mandates intents => exact hkeep intents
      | answerLost waiting outOfStep mandates intents => exact hkeep intents
      | railFailed waiting same => exact hkeep same.intents
      | railFailureLost waiting outOfStep same => exact hkeep same.intents
      | executeFinished waiting entry fresh mandates intents =>
          rw [intents, Table.get_put_of_ne, hx]
          rintro rfl
          rw [C.saved_id, executedIntent_id, fresh] at hx
          cases hx
      | approveFinished waiting entry =>
          have hentry := hcalls _ (List.mem_of_getElem? (atResume_iff.1 waiting).1)
          rw [entry] at hentry
          cases hentry
      | finishRefused waiting refusal same => exact hkeep same.intents
      | mandateChanged change intents => exact hkeep intents
      | refused | approveStarted | refundStarted | refunded | refundRefused | refundFailed =>
          cases hagent

theorem Confined.step (hconfined : Confined C s₀ s) (hagent : a.isAgent = true)
    (htaken : AgentWorth.step d s a = some (s', es)) : Confined C s₀ s' := by
  obtain ⟨heffect, -⟩ := step_effect C htaken
  refine ⟨?_, hconfined.killSwitch.trans (sameFlag_of_step C hagent htaken), ?_, ?_, ?_⟩
  · rcases heffect.mandates C with h | h
    · exact h.trans hconfined.mandates
    · generalize (s'.books C).mandates = mandates at h
      cases h <;> cases hagent
  · intro id x hx
    exact heffect.row_of_agent hagent hconfined.calls hconfined.refunds
      (hconfined.rows id x hx)
  · intro call hcall
    cases heffect.mem_calls C hcall with
    | old mem => exact hconfined.calls call mem
    | executed decides automatic => rfl
    | @answered _ _ call _ _ waiting returned =>
        exact hconfined.calls call (List.mem_of_getElem? (atRail_iff.1 waiting).1)
    | approved present pending decides passes => cases hagent
  · rw [List.eq_nil_iff_forall_not_mem]
    intro call hcall
    rcases heffect.mem_refunds C hcall with h | ⟨_, _, _, _, rfl, -⟩
    · rw [hconfined.refunds] at h
      cases h
    · cases hagent

/-- The payment of a row was there before, or is the one that `execute` was given
in this step, or that of a call under way. -/
theorem Effect.row_intent (heffect : Effect C s a s' es) {id : String} {x : StoredIntent}
    (hx : (s'.books C).intents.get id = some x) :
    (∃ y, (s.books C).intents.get id = some y ∧ x.intent = y.intent) ∨
      (∃ now src attestation, a = .execute now src x.intent attestation) ∨
      ∃ call ∈ s.calls, x.intent = call.intent := by
  cases hbefore : (s.books C).intents.get id with
  | some y =>
      obtain ⟨x', hx', hchange⟩ := heffect.row C hbefore
      have hrow : x' = x := Option.some.inj (hx'.symm.trans hx)
      rw [hrow] at hchange
      exact Or.inl ⟨y, rfl, hchange.intent_eq⟩
  | none =>
      cases heffect.new_row C hbefore hx with
      | @executed k call outcome waiting entry named =>
          refine Or.inr (Or.inr ⟨call, List.mem_of_getElem? (atResume_iff.1 waiting).1, ?_⟩)
          rw [C.saved_intent]
          cases outcome <;> rfl
      | filed status unrefunded priced quiet =>
          refine Or.inr (Or.inl ?_)
          have hsame : ¬ (s'.books C).intents = (s.books C).intents := by
            intro h
            rw [h, hbefore] at hx
            cases hx
          cases heffect with
          | filed intent_eq status' unrefunded' fresh mandates intents =>
              rw [intents, Table.get_put] at hx
              split at hx
              · rw [← Option.some.inj hx, C.saved_intent, intent_eq]
                exact ⟨_, _, _, rfl⟩
              · rw [hbefore] at hx
                cases hx
          | quiet same => exact absurd same.intents hsame
          | executeStarted runs decides automatic recorded =>
              exact absurd recorded.same.intents hsame
          | mandateChanged change intents => exact absurd intents hsame

/-- A call under way is for the intent of an earlier one, or for the one that
`execute` was given in this step. -/
theorem Effect.call_intent (heffect : Effect C s a s' es) (hagent : a.isAgent = true)
    {call : Call} (hcall : call ∈ s'.calls) :
    (∃ c ∈ s.calls, call.intent = c.intent) ∨
      ∃ now src attestation, a = .execute now src call.intent attestation := by
  cases heffect.mem_calls C hcall with
  | old mem => exact Or.inl ⟨call, mem, rfl⟩
  | executed decides automatic => exact Or.inr ⟨_, _, _, rfl⟩
  | @answered _ _ c _ _ waiting returned =>
      exact Or.inl ⟨c, List.mem_of_getElem? (atRail_iff.1 waiting).1, rfl⟩
  | approved present pending decides passes => cases hagent

/-! ## What it can pay -/

/-- The rail is asked by a call of `execute` whose intent the gate let through on
its own: live, covered by a mandate, within its caps, and calm. -/
structure Released (d : ExecutorDeps σ) (s : State σ) (a : Action) (call : Call)
    (provider : PaymentProvider) : Prop where
  decided : ∃ now src attestation decision,
    a = .execute now src call.intent attestation ∧
      call = settle d .execute call.intent.id call.intent now decision ∧
      evaluateGate call.intent (context d src s.world.store now call.intent attestation) =
        .ok decision ∧ decision.outcome = .autoExecute
  running : haltReason d s.world.store = none
  routed : d.rails.get call.intent.rail = some provider

/-- **An agent reaches a rail only through the gate.** -/
theorem released_of_railInvoked (C : Contract d.store) (hagent : a.isAgent = true)
    (htaken : AgentWorth.step d s a = some (s', es)) {call : Call} {provider : PaymentProvider}
    (hinvoked : .railInvoked call provider ∈ es) : Released d s a call provider := by
  have hnone : (∀ e ∈ es, e.isQuiet = true) → False := by
    intro h
    cases h _ hinvoked
  obtain ⟨heffect, -⟩ := step_effect C htaken
  cases heffect with
  | @executeStarted now src intent attestation decision inputs _ runs decides automatic
      recorded calls refunds =>
      obtain ⟨rfl, hstage⟩ := mem_invocation hinvoked
      obtain ⟨hgate, -⟩ := agentDecision_auto decides automatic
      exact ⟨⟨now, src, attestation, decision, rfl, rfl, hgate, automatic⟩, runs,
        settle_provider hstage⟩
  | quiet same calls refunds quiet => exact absurd quiet hnone
  | filed intent_eq status unrefunded fresh mandates intents receipts calls refunds quiet =>
      exact absurd quiet hnone
  | mandateChanged change intents receipts calls refunds quiet => exact absurd quiet hnone
  | answered => simp at hinvoked
  | answerLost => simp at hinvoked
  | railFailed => simp at hinvoked
  | railFailureLost => simp at hinvoked
  | executeFinished => simp at hinvoked
  | approveFinished => simp at hinvoked
  | finishRefused => simp at hinvoked
  | refused | approveStarted | refundStarted | refunded | refundRefused | refundFailed =>
      cases hagent

end AgentWorth
