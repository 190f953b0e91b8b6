import AgentWorth.Executor.Effect

/-!
# Calls in flight

Where the suspended calls of a state come from, and what holds of each of them
until it ends.
-/

namespace AgentWorth

open AgentWorth.Js AgentWorth.Lib

variable {σ : Type} {d : ExecutorDeps σ} (C : Contract d.store)

/-- No call that had suspended has ended. -/
def Unfinished (es : List Event) : Prop := ∀ call result, .finished call result ∉ es

theorem unfinished_of_quiet {es : List Event} (h : ∀ e ∈ es, e.isQuiet = true) :
    Unfinished es := by
  intro call result hmem
  cases h _ hmem

theorem unfinished_invocation (call : Call) : Unfinished call.invocation := by
  unfold Unfinished Call.invocation
  split <;> simp

/-- How a step changes the list of suspended calls. -/
inductive CallsChange (d : ExecutorDeps σ) (s : State σ) :
    Action → List Event → List Call → Prop
  | same {a : Action} {es : List Event} (unfinished : Unfinished es) :
      CallsChange d s a es s.calls
  | executed {now : String} {src : Sources} {intent : PaymentIntent}
      {attestation : Option Attestation} {decision : GateDecision} {es : List Event}
      (decides : agentDecision d src s.world now intent attestation = .ok decision)
      (automatic : decision.outcome = .autoExecute) (unfinished : Unfinished es) :
      CallsChange d s (.execute now src intent attestation) es
        (s.calls ++ [settle d .execute intent.id intent now decision])
  | approved {now : String} {src : Sources} {intentId rationale : String}
      {acknowledged : Bool} {x : StoredIntent} {decision : GateDecision} {es : List Event}
      (present : d.store.getIntent s.world.store intentId = some x)
      (pending : x.status = .pending)
      (decides : evaluateGate x.intent (context d src s.world.store now x.intent none) =
        .ok decision)
      (passes : decision.outcome ≠ .block) (unfinished : Unfinished es) :
      CallsChange d s (.approve now src intentId rationale acknowledged) es
        (s.calls ++ [settle d .approve intentId x.intent now decision])
  /-- a rail answered; a receipt is the one it returned -/
  | answered {a : Action} {es : List Event} {k : Nat} {call : Call}
      {provider : PaymentProvider} {outcome : Except String (Receipt × Bool)}
      (waiting : atRail s k = some (call, provider))
      (returned : ∀ r v, outcome = .ok (r, v) → ∃ receipt verified,
        a = .railReturns k receipt verified ∧ r = issuedBy provider receipt)
      (unfinished : Unfinished es) :
      CallsChange d s a es (s.calls.set k { call with stage := .settled outcome })
  /-- a call ended; nothing else can have finished -/
  | ended {a : Action} {es : List Event} {k : Nat} {call : Call}
      (slot : s.calls[k]? = some call) (finished : ∀ c r, .finished c r ∈ es → c = call) :
      CallsChange d s a es (s.calls.eraseIdx k)

section Steps

variable {s s' : State σ} {a : Action} {es : List Event}

theorem Effect.calls_change (heffect : Effect C s a s' es) :
    CallsChange d s a es s'.calls := by
  have hsame : s'.calls = s.calls → Unfinished es → CallsChange d s a es s'.calls := by
    intro h hunfinished
    rw [h]
    exact .same hunfinished
  have hfinished : ∀ {k : Nat} {call : Call} {outcome : Except String (Receipt × Bool)},
      atResume s k = some (call, outcome) →
      CallsChange d s a [.finished call (settlementResult call outcome)]
        (s.calls.eraseIdx k) := by
    intro k call outcome hwait
    refine .ended (atResume_iff.1 hwait).1 ?_
    intro c r hmem
    cases List.mem_singleton.1 hmem
    rfl
  cases heffect with
  | executeStarted runs decides automatic recorded calls refunds =>
      rw [calls]
      exact .executed decides automatic (unfinished_invocation _)
  | approveStarted runs present pending decides passes unchallenged recorded calls refunds =>
      rw [calls]
      exact .approved (by rw [C.getIntent]; exact present) pending decides passes
        (unfinished_invocation _)
  | answered waiting mandates intents receipts booked calls refunds =>
      rw [calls]
      exact .answered waiting (fun r v h => ⟨_, _, rfl, booked r v h⟩) (by simp [Unfinished])
  | railFailed waiting same calls refunds =>
      rw [calls]
      refine .answered waiting ?_ (by simp [Unfinished])
      rintro r v ⟨⟩
  | answerLost waiting outOfStep mandates intents receipts calls refunds =>
      rw [calls]
      exact .ended (atRail_iff.1 waiting).1 (by simp)
  | railFailureLost waiting outOfStep same calls refunds =>
      rw [calls]
      exact .ended (atRail_iff.1 waiting).1 (by simp)
  | executeFinished waiting entry fresh mandates intents receipts calls refunds =>
      rw [calls]
      exact hfinished waiting
  | approveFinished waiting entry present mandates intents receipts calls refunds =>
      rw [calls]
      exact hfinished waiting
  | finishRefused waiting refusal same calls refunds =>
      rw [calls]
      exact .ended (atResume_iff.1 waiting).1 (by simp)
  | quiet same calls refunds quiet => exact hsame calls (unfinished_of_quiet quiet)
  | filed intent_eq status unrefunded fresh mandates intents receipts calls refunds quiet =>
      exact hsame calls (unfinished_of_quiet quiet)
  | refused present pending mandates intents receipts calls refunds quiet =>
      exact hsame calls (unfinished_of_quiet quiet)
  | refundStarted starts same calls refunds => exact hsame calls (by simp [Unfinished])
  | refunded waiting present mandates intents receipts calls refunds quiet =>
      refine hsame calls ?_
      intro call result hmem
      rcases List.mem_cons.1 hmem with h | h
      · cases h
      · exact unfinished_of_quiet quiet call result h
  | refundRefused waiting refusal same calls refunds => exact hsame calls (by simp [Unfinished])
  | refundFailed waiting same calls refunds => exact hsame calls (by simp [Unfinished])
  | mandateChanged change intents receipts calls refunds quiet =>
      exact hsame calls (unfinished_of_quiet quiet)

/-- What a call that finishes does: `execute` files a new row and `approve`
rewrites the stored one. -/
inductive Finished (s s' : State σ) (call : Call)
    (outcome : Except String (Receipt × Bool)) : Prop
  | execute (entry : call.entry = .execute)
      (fresh : (s.books C).intents.get call.intent.id = none)
      (intents : (s'.books C).intents =
        (s.books C).intents.put (C.saved (executedIntent call outcome)))
  | approve {x : StoredIntent} (entry : call.entry = .approve)
      (present : (s.books C).intents.get call.intentId = some x)
      (intents : (s'.books C).intents =
        (s.books C).intents.put ((approvedUpdate outcome).apply x))

theorem Effect.finished (heffect : Effect C s a s' es) {call : Call} {result : ExecuteResult}
    (hmem : .finished call result ∈ es) :
    ∃ k outcome, a = .resume k ∧ es = [.finished call result] ∧
      atResume s k = some (call, outcome) ∧
      result = settlementResult call outcome ∧ s'.calls = s.calls.eraseIdx k ∧
      Finished C s s' call outcome := by
  have hquiet : (∀ e ∈ es, e.isQuiet = true) → False :=
    fun h => unfinished_of_quiet h call result hmem
  cases heffect with
  | executeFinished waiting entry fresh mandates intents receipts calls refunds =>
      cases List.mem_singleton.1 hmem
      exact ⟨_, _, rfl, rfl, waiting, rfl, calls, .execute entry fresh intents⟩
  | approveFinished waiting entry present mandates intents receipts calls refunds =>
      cases List.mem_singleton.1 hmem
      exact ⟨_, _, rfl, rfl, waiting, rfl, calls, .approve entry present intents⟩
  | executeStarted runs decides automatic recorded calls refunds =>
      exact absurd hmem (unfinished_invocation _ _ _)
  | approveStarted runs present pending decides passes unchallenged recorded calls refunds =>
      exact absurd hmem (unfinished_invocation _ _ _)
  | refunded waiting present mandates intents receipts calls refunds quiet =>
      rcases List.mem_cons.1 hmem with h | h
      · cases h
      · exact absurd h (unfinished_of_quiet quiet _ _)
  | quiet same calls refunds quiet => exact absurd quiet hquiet
  | filed intent_eq status unrefunded fresh mandates intents receipts calls refunds quiet =>
      exact absurd quiet hquiet
  | refused present pending mandates intents receipts calls refunds quiet =>
      exact absurd quiet hquiet
  | mandateChanged change intents receipts calls refunds quiet => exact absurd quiet hquiet
  | answered waiting mandates intents receipts booked calls refunds => simp at hmem
  | answerLost waiting outOfStep mandates intents receipts calls refunds => simp at hmem
  | railFailed waiting same calls refunds => simp at hmem
  | railFailureLost waiting outOfStep same calls refunds => simp at hmem
  | finishRefused waiting refusal same calls refunds => simp at hmem
  | refundStarted starts same calls refunds => simp at hmem
  | refundRefused waiting refusal same calls refunds => simp at hmem
  | refundFailed waiting same calls refunds => simp at hmem

/-- How a call came to be in flight after a step. -/
inductive CallOrigin (d : ExecutorDeps σ) (s : State σ) : Action → Call → Prop
  | old {a : Action} {call : Call} (mem : call ∈ s.calls) : CallOrigin d s a call
  | executed {now : String} {src : Sources} {intent : PaymentIntent}
      {attestation : Option Attestation} {decision : GateDecision}
      (decides : agentDecision d src s.world now intent attestation = .ok decision)
      (automatic : decision.outcome = .autoExecute) :
      CallOrigin d s (.execute now src intent attestation)
        (settle d .execute intent.id intent now decision)
  | approved {now : String} {src : Sources} {intentId rationale : String}
      {acknowledged : Bool} {x : StoredIntent} {decision : GateDecision}
      (present : d.store.getIntent s.world.store intentId = some x)
      (pending : x.status = .pending)
      (decides : evaluateGate x.intent (context d src s.world.store now x.intent none) =
        .ok decision)
      (passes : decision.outcome ≠ .block) :
      CallOrigin d s (.approve now src intentId rationale acknowledged)
        (settle d .approve intentId x.intent now decision)
  | answered {a : Action} {k : Nat} {call : Call} {provider : PaymentProvider}
      {outcome : Except String (Receipt × Bool)}
      (waiting : atRail s k = some (call, provider))
      (returned : ∀ r v, outcome = .ok (r, v) → ∃ receipt verified,
        a = .railReturns k receipt verified ∧ r = issuedBy provider receipt) :
      CallOrigin d s a { call with stage := .settled outcome }

theorem CallsChange.mem {calls : List Call} (h : CallsChange d s a es calls) {call : Call}
    (hcall : call ∈ calls) : CallOrigin d s a call := by
  cases h with
  | same unfinished => exact .old hcall
  | executed decides automatic unfinished =>
      rcases List.mem_append.1 hcall with h | h
      · exact .old h
      · rw [List.mem_singleton.1 h]
        exact .executed decides automatic
  | approved present pending decides passes unfinished =>
      rcases List.mem_append.1 hcall with h | h
      · exact .old h
      · rw [List.mem_singleton.1 h]
        exact .approved present pending decides passes
  | answered waiting returned unfinished =>
      rcases List.mem_or_eq_of_mem_set hcall with h | rfl
      · exact .old h
      · exact .answered waiting returned
  | ended slot finished => exact .old (List.mem_of_mem_eraseIdx hcall)

theorem Effect.mem_calls (heffect : Effect C s a s' es) {call : Call}
    (hcall : call ∈ s'.calls) : CallOrigin d s a call := (heffect.calls_change C).mem hcall

/-- A refund in flight was so before the step, or the step started it. -/
theorem Effect.mem_refunds (heffect : Effect C s a s' es) {call : RefundCall}
    (hcall : call ∈ s'.refunds) :
    call ∈ s.refunds ∨ ∃ now intentId amountMinor reason,
      a = .refund now intentId amountMinor reason ∧
      refund d s.world.store now intentId amountMinor reason = .ok (.awaiting call) := by
  have hold : s'.refunds = s.refunds → call ∈ s.refunds := fun h => h ▸ hcall
  cases heffect with
  | refundStarted starts same calls refunds =>
      rw [refunds] at hcall
      rcases List.mem_append.1 hcall with h | h
      · exact Or.inl h
      · rw [List.mem_singleton.1 h]
        exact Or.inr ⟨_, _, _, _, rfl, starts⟩
  | refunded waiting present mandates intents receipts calls refunds quiet =>
      rw [refunds] at hcall
      exact Or.inl (List.mem_of_mem_eraseIdx hcall)
  | refundRefused waiting refusal same calls refunds =>
      rw [refunds] at hcall
      exact Or.inl (List.mem_of_mem_eraseIdx hcall)
  | refundFailed waiting same calls refunds =>
      rw [refunds] at hcall
      exact Or.inl (List.mem_of_mem_eraseIdx hcall)
  | quiet same calls refunds quiet => exact Or.inl (hold refunds)
  | filed intent_eq status unrefunded fresh mandates intents receipts calls refunds quiet =>
      exact Or.inl (hold refunds)
  | refused present pending mandates intents receipts calls refunds quiet =>
      exact Or.inl (hold refunds)
  | executeStarted runs decides automatic recorded calls refunds => exact Or.inl (hold refunds)
  | approveStarted runs present pending decides passes unchallenged recorded calls refunds =>
      exact Or.inl (hold refunds)
  | answered waiting mandates intents receipts booked calls refunds =>
      exact Or.inl (hold refunds)
  | answerLost waiting outOfStep mandates intents receipts calls refunds =>
      exact Or.inl (hold refunds)
  | railFailed waiting same calls refunds => exact Or.inl (hold refunds)
  | railFailureLost waiting outOfStep same calls refunds => exact Or.inl (hold refunds)
  | executeFinished waiting entry fresh mandates intents receipts calls refunds =>
      exact Or.inl (hold refunds)
  | approveFinished waiting entry present mandates intents receipts calls refunds =>
      exact Or.inl (hold refunds)
  | finishRefused waiting refusal same calls refunds => exact Or.inl (hold refunds)
  | mandateChanged change intents receipts calls refunds quiet => exact Or.inl (hold refunds)

/-! ## What holds of every call -/

/-- A call is about the intent it names, for a positive whole amount. -/
structure Call.Sound (call : Call) : Prop where
  named : call.intentId = call.intent.id
  amount : ∃ n : Int, 0 < n ∧ call.intent.amount = .fin n

theorem CallOrigin.sound {call : Call} (horigin : CallOrigin d s a call)
    (hcalls : ∀ c ∈ s.calls, c.Sound) (C : Contract d.store) : call.Sound := by
  cases horigin with
  | old mem => exact hcalls call mem
  | answered waiting returned =>
      obtain ⟨hnamed, hamount⟩ := hcalls _ (List.mem_of_getElem? (atRail_iff.1 waiting).1)
      exact ⟨hnamed, hamount⟩
  | executed decides automatic =>
      obtain ⟨hgate, -⟩ := agentDecision_auto decides automatic
      obtain ⟨m, spend, hauto, -⟩ := evaluateGate_auto hgate automatic
      exact ⟨rfl, amount_of_not_floored hauto.unfloored⟩
  | approved present pending decides passes =>
      rw [C.getIntent] at present
      exact ⟨(Table.key_of_get present).symm, amount_of_not_blocked decides passes⟩

end Steps

/-- In every run that starts idle and in step, the calls in flight are sound
and the chain stays in step with the store. -/
theorem inFlight_run {G : Guard (State σ) Action Event} {s₀ s : State σ}
    {steps : List (Step (State σ) Action Event)} (hidle : ∀ call ∈ s₀.calls, call.Sound)
    (hsync : Synced C s₀.world) (hrun : (executor d).Run G s₀ steps s) :
    (∀ call ∈ s.calls, call.Sound) ∧ Synced C s.world := by
  refine hrun.invariant (fun _ s => (∀ call ∈ s.calls, call.Sound) ∧ Synced C s.world)
    ⟨hidle, hsync⟩ ?_
  rintro steps s a s' es ⟨hcalls, hsync⟩ _ htaken
  obtain ⟨heffect, hkeep⟩ := step_effect C htaken
  exact ⟨fun call hcall => (heffect.mem_calls C hcall).sound hcalls C, hkeep hsync⟩

/-- A suspended call that the store will let finish: an `execute` id is still
free and its amount is a number, an `approve` id is stored. -/
def Call.Finishable (b : Books) (call : Call) : Prop :=
  call.intentId = call.intent.id ∧
    match call.entry with
    | .execute => b.intents.get call.intent.id = none ∧ call.intent.amount ≠ .nan
    | .approve => ∃ x, b.intents.get call.intent.id = some x

include C in
/-- The store takes the outcome of a call it will let finish. -/
theorem filing_ok {s : State σ} {call : Call} (outcome : Except String (Receipt × Bool))
    (h : call.Finishable (s.books C)) :
    ∃ store, filing d call outcome s.world.store = .ok store := by
  obtain ⟨hid, hentry⟩ := h
  unfold filing
  cases hcase : call.entry with
  | execute =>
      rw [hcase] at hentry
      have hrow : (executedIntent call outcome).intent = call.intent ∧
          (executedIntent call outcome).refundedMinor = none := by
        cases outcome <;> exact ⟨rfl, rfl⟩
      refine C.insertIntent_fresh s.world.store (executedIntent call outcome) ?_ ?_ ?_
      · rw [StoredIntent.id, hrow.1]
        exact hentry.1
      · rw [hrow.1]
        exact hentry.2
      · rw [hrow.2]
        simp
  | approve =>
      rw [hcase] at hentry
      obtain ⟨x, hx⟩ := hentry
      have hplain : (approvedUpdate outcome).refundedMinor = none := by
        cases outcome <;> rfl
      refine C.updateIntent_found s.world.store call.intentId (approvedUpdate outcome) x ?_ ?_
      · rw [hid]
        exact hx
      · rw [hplain]
        simp

end AgentWorth
