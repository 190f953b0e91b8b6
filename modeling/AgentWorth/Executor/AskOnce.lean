import AgentWorth.Executor.Rows
import AgentWorth.Executor.SettleOnce

/-!
# At most one rail call per intent

A settlement that failed may have moved the money all the same: the rail may
have thrown after the transfer.  So what has to be at most one is not only the
settlements of an id but the calls of `provider.settle` for it.  Under
`OneCallPerId` that holds: an id whose rail was called is in flight or filed as
closed, and from neither can it be started again.
-/

namespace AgentWorth

open AgentWorth.Js AgentWorth.Lib

variable {σ : Type} {d : ExecutorDeps σ} (C : Contract d.store)

/-- The calls whose rail was asked to settle, in order. -/
def railCalls (es : List Event) : List Call :=
  es.filterMap fun e =>
    match e with
    | .railInvoked call _ => some call
    | _ => none

/-- The ids whose rail was asked to settle, in order. -/
def railIds (es : List Event) : List String := (railCalls es).map fun call => call.intent.id

@[simp] theorem railIds_nil : railIds [] = [] := rfl

@[simp] theorem railIds_append (es es' : List Event) :
    railIds (es ++ es') = railIds es ++ railIds es' := by
  simp [railIds, railCalls]

theorem railIds_quiet {es : List Event} (h : ∀ e ∈ es, e.isQuiet = true) : railIds es = [] := by
  rw [railIds, List.map_eq_nil_iff, railCalls, List.filterMap_eq_nil_iff]
  intro e he
  have hq := h e he
  cases e <;> first | rfl | cases hq

theorem railIds_refundSettled {call : RefundCall} {es : List Event}
    (h : ∀ e ∈ es, e.isQuiet = true) : railIds (.refundSettled call :: es) = [] := by
  show railIds es = []
  exact railIds_quiet h

/-- Only a call that has just started is handed to its rail. -/
theorem railIds_invocation (call : Call) :
    railIds call.invocation = [] ∨ railIds call.invocation = [call.intent.id] := by
  unfold Call.invocation
  split
  · exact Or.inr rfl
  · exact Or.inl rfl

/-- An id that no entry point will start: it is in flight, or stored as not
pending. -/
def SpentId (b : Books) (calls : List Call) (id : String) : Prop :=
  (∃ call ∈ calls, call.intent.id = id) ∨ ∃ x, b.intents.get id = some x ∧ x.status ≠ .pending

/-- The invariant of runs under `OneCallPerId`. -/
structure AskOnceInv (past : List Event) (s : State σ) : Prop where
  settles : SettleOnceInv C past s
  once : (railIds past).Nodup
  spent : ∀ id ∈ railIds past, SpentId (s.books C) s.calls id

section Steps

variable {s s' : State σ} {a : Action} {es : List Event} {past : List Event} {id : String}

/-- A row that is not pending stays so. -/
theorem RowChange.closed {x x' : StoredIntent} (h : RowChange s id x a es x')
    (hclosed : x.status ≠ .pending) : x'.status ≠ .pending := by
  cases h with
  | kept unrefunded => exact hclosed
  | refundLost waiting named nan => exact hclosed
  | refused pending unrefunded => exact absurd pending hclosed
  | refunded waiting named quiet => simpa [IntentUpdate.apply] using hclosed
  | @approved _ _ outcome waiting entry named =>
      cases outcome <;> simp [approvedUpdate, IntentUpdate.apply]

/-- A call that is still suspended, at whatever stage, keeps its id spent. -/
theorem SpentId.of_call {b : Books} {calls : List Call} {call : Call} (h : call ∈ calls) :
    SpentId b calls call.intent.id := Or.inl ⟨call, h, rfl⟩

/-- The id of a call stays spent when a call at another slot ends. -/
theorem mem_or_eq_of_slot {calls : List Call} {k : Nat} {ended call : Call}
    (hk : calls[k]? = some ended) (h : call ∈ calls) :
    call ∈ calls.eraseIdx k ∨ call = ended := by
  rcases List.mem_cons.1 ((perm_eraseIdx hk).mem_iff.1 h) with h | h
  · exact Or.inr h
  · exact Or.inl h

/-- **A spent id stays spent**: a call in flight ends by filing its row as
closed, and a closed row stays closed. -/
theorem SpentId.step (h : SpentId (s.books C) s.calls id) (hinv : SettleOnceInv C past s)
    (heffect : Effect C s a s' es) : SpentId (s'.books C) s'.calls id := by
  rcases h with ⟨call, hcall, rfl⟩ | ⟨x, hx, hclosed⟩
  case inr =>
    obtain ⟨x', hx', hchange⟩ := heffect.row C hx
    exact Or.inr ⟨x', hx', hchange.closed hclosed⟩
  have hsame : s'.calls = s.calls → SpentId (s'.books C) s'.calls call.intent.id := by
    intro hcalls
    rw [hcalls]
    exact .of_call hcall
  have hmore : ∀ {c : Call}, s'.calls = s.calls ++ [c] →
      SpentId (s'.books C) s'.calls call.intent.id := by
    intro c hcalls
    rw [hcalls]
    exact .of_call (List.mem_append_left _ hcall)
  have hanswered : ∀ {k : Nat} {c : Call} {stage : Stage}, s.calls[k]? = some c →
      s'.calls = s.calls.set k { c with stage := stage } →
      SpentId (s'.books C) s'.calls call.intent.id := by
    intro k c stage hk hcalls
    have hperm := perm_set (b := { c with stage := stage }) hk
    rw [hcalls]
    rcases mem_or_eq_of_slot hk hcall with hrest | rfl
    · exact .of_call (hperm.mem_iff.2 (List.mem_cons_of_mem _ hrest))
    · exact Or.inl ⟨_, hperm.mem_iff.2 (List.mem_cons_self ..), rfl⟩
  -- a call that ends leaves a closed row under its id
  have hended : ∀ {k : Nat} {c : Call} {x : StoredIntent}, s.calls[k]? = some c →
      s'.calls = s.calls.eraseIdx k → (s'.books C).intents.get c.intent.id = some x →
      x.status ≠ .pending → SpentId (s'.books C) s'.calls call.intent.id := by
    intro k c x hk hcalls hrow hclosed
    rcases mem_or_eq_of_slot hk hcall with hrest | rfl
    · rw [hcalls]
      exact .of_call hrest
    · exact Or.inr ⟨x, hrow, hclosed⟩
  cases heffect with
  | quiet same calls refunds quiet => exact hsame calls
  | filed intent_eq status unrefunded fresh mandates intents receipts calls refunds quiet =>
      exact hsame calls
  | refused present pending mandates intents receipts calls refunds quiet => exact hsame calls
  | executeStarted runs decides automatic recorded calls refunds => exact hmore calls
  | approveStarted runs present pending decides passes unchallenged recorded calls refunds =>
      exact hmore calls
  | answered waiting mandates intents receipts booked calls refunds =>
      exact hanswered (atRail_iff.1 waiting).1 calls
  | railFailed waiting same calls refunds => exact hanswered (atRail_iff.1 waiting).1 calls
  | answerLost waiting outOfStep mandates intents receipts calls refunds =>
      exact absurd hinv.synced outOfStep
  | railFailureLost waiting outOfStep same calls refunds =>
      exact absurd hinv.synced outOfStep
  | @executeFinished _ call' outcome _ waiting entry fresh mandates intents receipts calls
      refunds =>
      refine hended (atResume_iff.1 waiting).1 calls
        (x := C.saved (executedIntent call' outcome)) ?_ ?_
      · rw [intents, ← executedIntent_id call' outcome, ← C.saved_id]
        exact Table.get_put_self _ _
      · rw [C.saved_status]
        cases outcome <;> simp [executedIntent, unsettled]
  | @approveFinished _ call' outcome x _ waiting entry present mandates intents receipts calls
      refunds =>
      have hslot := (atResume_iff.1 waiting).1
      have hnamed := (hinv.finishable _ (mem_of_slot hslot)).1
      refine hended hslot calls (x := (approvedUpdate outcome).apply x) ?_ ?_
      · rw [intents, ← hnamed, ← Table.key_of_get present,
          ← IntentUpdate.apply_id (approvedUpdate outcome) x]
        exact Table.get_put_self _ _
      · cases outcome <;> simp [approvedUpdate, IntentUpdate.apply]
  | finishRefused waiting refusal same calls refunds =>
      have hcall := hinv.finishable _ (mem_of_slot (atResume_iff.1 waiting).1)
      obtain ⟨store, hok⟩ := filing_ok C _ hcall
      rw [hok] at refusal
      cases refusal
  | refundStarted starts same calls refunds => exact hsame calls
  | refunded waiting present mandates intents receipts calls refunds quiet => exact hsame calls
  | refundRefused waiting refusal same calls refunds => exact hsame calls
  | refundFailed waiting same calls refunds => exact hsame calls
  | mandateChanged change intents receipts calls refunds quiet => exact hsame calls

/-- What a step hands to a rail: nothing, or one id that was not spent and is in
flight afterwards. -/
theorem Effect.asks (heffect : Effect C s a s' es)
    {steps : List (Step (State σ) Action Event)} (hguard : OneCallPerId d steps s a) :
    railIds es = [] ∨ ∃ id, railIds es = [id] ∧ ¬ SpentId (s.books C) s.calls id ∧
      SpentId (s'.books C) s'.calls id := by
  cases heffect with
  | executeStarted runs decides automatic recorded calls refunds =>
      rename_i now src intent attestation decision inputs
      rcases railIds_invocation (settle d .execute intent.id intent now decision) with h | h
      · exact Or.inl h
      obtain ⟨hfree, halone⟩ := hguard
      rw [C.getIntent] at hfree
      refine Or.inr ⟨_, h, ?_, ?_⟩
      · rintro (⟨c, hc, hid⟩ | ⟨x, hx, -⟩)
        · exact halone c hc hid
        · have hx' : (C.books s.world.store).intents.get intent.id = some x := hx
          rw [hfree] at hx'
          cases hx'
      · rw [calls]
        exact .of_call (List.mem_append_right _ (List.mem_singleton_self _))
  | approveStarted runs present pending decides passes unchallenged recorded calls refunds =>
      rename_i now src intentId rationale acknowledged x decision
      rcases railIds_invocation (settle d .approve intentId x.intent now decision) with h | h
      · exact Or.inl h
      have hid : x.intent.id = intentId := by
        have hkey : x.id = intentId := Table.key_of_get present
        exact hkey
      have hpresent : (C.books s.world.store).intents.get intentId = some x := present
      refine Or.inr ⟨_, h, ?_, ?_⟩
      · rintro (⟨c, hc, hcid⟩ | ⟨y, hy, hclosed⟩)
        · refine hguard (by rw [C.getIntent]; simp [hpresent, pending]) c hc ?_
          rw [← hid]
          exact hcid
        · have hy' : (s.books C).intents.get x.intent.id = some y := hy
          rw [hid, present] at hy'
          cases hy'
          exact hclosed pending
      · rw [calls]
        exact .of_call (List.mem_append_right _ (List.mem_singleton_self _))
  | quiet same calls refunds quiet => exact Or.inl (railIds_quiet quiet)
  | filed intent_eq status unrefunded fresh mandates intents receipts calls refunds quiet =>
      exact Or.inl (railIds_quiet quiet)
  | refused present pending mandates intents receipts calls refunds quiet =>
      exact Or.inl (railIds_quiet quiet)
  | refunded waiting present mandates intents receipts calls refunds quiet =>
      exact Or.inl (railIds_refundSettled quiet)
  | mandateChanged change intents receipts calls refunds quiet =>
      exact Or.inl (railIds_quiet quiet)
  | answered waiting mandates intents receipts booked calls refunds => exact Or.inl rfl
  | answerLost waiting outOfStep mandates intents receipts calls refunds => exact Or.inl rfl
  | railFailed waiting same calls refunds => exact Or.inl rfl
  | railFailureLost waiting outOfStep same calls refunds => exact Or.inl rfl
  | executeFinished waiting entry fresh mandates intents receipts calls refunds =>
      exact Or.inl rfl
  | approveFinished waiting entry present mandates intents receipts calls refunds =>
      exact Or.inl rfl
  | finishRefused waiting refusal same calls refunds => exact Or.inl rfl
  | refundStarted starts same calls refunds => exact Or.inl rfl
  | refundRefused waiting refusal same calls refunds => exact Or.inl rfl
  | refundFailed waiting same calls refunds => exact Or.inl rfl

theorem askOnce_step (hinv : AskOnceInv C past s)
    {steps : List (Step (State σ) Action Event)} (hguard : OneCallPerId d steps s a)
    (htaken : step d s a = some (s', es)) : AskOnceInv C (past ++ es) s' := by
  obtain ⟨heffect, -⟩ := step_effect C htaken
  have hkept : ∀ id ∈ railIds past, SpentId (s'.books C) s'.calls id :=
    fun id hid => (hinv.spent id hid).step C hinv.settles heffect
  refine ⟨settleOnce_step C hinv.settles hguard htaken, ?_, ?_⟩
  · rw [railIds_append]
    rcases heffect.asks C hguard with h | ⟨id, h, hfresh, -⟩
    · rw [h, List.append_nil]
      exact hinv.once
    · rw [h]
      refine hinv.once.append (List.nodup_singleton _) (List.disjoint_singleton.2 ?_)
      exact fun hmem => hfresh (hinv.spent id hmem)
  · rw [railIds_append]
    intro id hid
    rcases List.mem_append.1 hid with hpast | hnow
    · exact hkept id hpast
    · rcases heffect.asks C hguard with h | ⟨id', h, -, hspent⟩
      · rw [h] at hnow
        cases hnow
      · rw [h] at hnow
        rw [List.mem_singleton.1 hnow]
        exact hspent

end Steps

theorem askOnce_start {s₀ : State σ} (hidle : s₀.calls = []) (hsync : Synced C s₀.world) :
    AskOnceInv C [] s₀ where
  settles := settleOnce_start C hidle hsync
  once := List.nodup_nil
  spent := fun _ hid => absurd hid List.not_mem_nil

end AgentWorth
