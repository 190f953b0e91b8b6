import AgentWorth.Executor.Effect

/-!
# Stored rows under steps

What a step may do to the row of one intent id: leave it, rewrite it in one of
four ways, or bring it in.  The payment itself and the mandate it was filed
under never change.  Receipts are only ever written.
-/

namespace AgentWorth

open AgentWorth.Js AgentWorth.Lib

variable {σ : Type} {d : ExecutorDeps σ} (C : Contract d.store)

/-- No rail confirmed a refund of the intent. -/
def Unrefunded (id : String) (es : List Event) : Prop :=
  ∀ call, .refundSettled call ∈ es → call.intentId ≠ id

theorem unrefunded_of_quiet (id : String) {es : List Event}
    (h : ∀ e ∈ es, e.isQuiet = true) : Unrefunded id es := by
  intro call hcall
  have hquiet := h _ hcall
  cases hquiet

/-- How a step rewrites the row stored under `id`. -/
inductive RowChange (s : State σ) (id : String) (x : StoredIntent) :
    Action → List Event → StoredIntent → Prop
  | kept {a : Action} {es : List Event} (unrefunded : Unrefunded id es) :
      RowChange s id x a es x
  /-- `approve` finds it blocked by now -/
  | refused {a : Action} {es : List Event} {reasons : List String}
      (pending : x.status = .pending) (unrefunded : Unrefunded id es) :
      RowChange s id x a es
        (IntentUpdate.apply { status := some .blocked, reasons := some reasons } x)
  /-- an `approve` call files its outcome -/
  | approved {k : Nat} {call : Call} {outcome : Except String (Receipt × Bool)}
      (waiting : atResume s k = some (call, outcome)) (entry : call.entry = .approve)
      (named : call.intentId = id) :
      RowChange s id x (.resume k) [.finished call (settlementResult call outcome)]
        ((approvedUpdate outcome).apply x)
  /-- a `refund` call writes its total -/
  | refunded {k : Nat} {refundRef : String} {call : RefundCall} {es : List Event}
      (waiting : s.refunds[k]? = some call) (named : call.intentId = id)
      (quiet : ∀ e ∈ es, e.isQuiet = true) :
      RowChange s id x (.refundReturns k refundRef) (.refundSettled call :: es)
        (IntentUpdate.apply { refundedMinor := some (call.already + call.amount) } x)
  /-- a `refund` call can not write its total, which is not a number -/
  | refundLost {k : Nat} {refundRef e : String} {call : RefundCall}
      (waiting : s.refunds[k]? = some call) (named : call.intentId = id)
      (nan : call.already + call.amount = .nan) :
      RowChange s id x (.refundReturns k refundRef) [.refundSettled call, .threw e] x

/-- How a row comes in. -/
inductive NewRow (s : State σ) (id : String) : Action → List Event → StoredIntent → Prop
  | filed {now : String} {src : Sources} {intent : PaymentIntent}
      {attestation : Option Attestation} {x : StoredIntent} {es : List Event}
      (status : x.status = .blocked ∨ x.status = .pending)
      (unrefunded : x.refundedMinor = none)
      (priced : x.mandateId ≠ none → ∃ n : Int, 0 < n ∧ x.intent.amount = .fin n)
      (quiet : ∀ e ∈ es, e.isQuiet = true) :
      NewRow s id (.execute now src intent attestation) es (C.saved x)
  | executed {k : Nat} {call : Call} {outcome : Except String (Receipt × Bool)}
      (waiting : atResume s k = some (call, outcome)) (entry : call.entry = .execute)
      (named : call.intent.id = id) :
      NewRow s id (.resume k) [.finished call (settlementResult call outcome)]
        (C.saved (executedIntent call outcome))

theorem RowChange.intent_eq {s : State σ} {id : String} {x x' : StoredIntent} {a : Action}
    {es : List Event} (h : RowChange s id x a es x') : x'.intent = x.intent := by
  cases h <;> rfl

theorem RowChange.mandateId_eq {s : State σ} {id : String} {x x' : StoredIntent} {a : Action}
    {es : List Event} (h : RowChange s id x a es x') : x'.mandateId = x.mandateId := by
  cases h <;> rfl

section

variable {s s' : State σ} {a : Action} {es : List Event} {id : String} {x : StoredIntent}

/-- The row under `id` after one row was written. -/
private theorem get_of_put {t t' : Table StoredIntent.id} {v : StoredIntent}
    (h : t' = t.put v) (hx : t.get id = some x) :
    v.id = id ∧ t'.get id = some v ∨ v.id ≠ id ∧ t'.get id = some x := by
  by_cases hid : v.id = id
  · exact Or.inl ⟨hid, by rw [h, ← hid, Table.get_put_self]⟩
  · exact Or.inr ⟨hid, by rw [h, Table.get_put_of_ne (Ne.symm hid), hx]⟩

/-- A stored row stays, and changes only in the listed ways. -/
theorem Effect.row (heffect : Effect C s a s' es)
    (hx : (s.books C).intents.get id = some x) :
    ∃ x', (s'.books C).intents.get id = some x' ∧ RowChange s id x a es x' := by
  have hkeep : (s'.books C).intents = (s.books C).intents → Unrefunded id es →
      ∃ x', (s'.books C).intents.get id = some x' ∧ RowChange s id x a es x' := by
    intro hintents hunrefunded
    exact ⟨x, by rw [hintents, hx], .kept hunrefunded⟩
  cases heffect with
  | quiet same calls refunds quiet => exact hkeep same.intents (unrefunded_of_quiet _ quiet)
  | filed intent_eq status unrefunded fresh mandates intents receipts calls refunds quiet =>
      rcases get_of_put intents hx with ⟨hid, -⟩ | ⟨-, h⟩
      · rw [C.saved_id] at hid
        rw [hid, hx] at fresh
        cases fresh
      · exact ⟨x, h, .kept (unrefunded_of_quiet _ quiet)⟩
  | refused present pending mandates intents receipts calls refunds quiet =>
      rcases get_of_put intents hx with ⟨hid, h⟩ | ⟨-, h⟩
      · rw [IntentUpdate.apply_id, Table.key_of_get present] at hid
        rw [hid, hx] at present
        cases present
        exact ⟨_, h, .refused pending (unrefunded_of_quiet _ quiet)⟩
      · exact ⟨x, h, .kept (unrefunded_of_quiet _ quiet)⟩
  | executeStarted runs decides automatic recorded calls refunds =>
      refine hkeep recorded.same.intents ?_
      intro call hcall
      unfold Call.invocation at hcall
      split at hcall <;> simp at hcall
  | approveStarted runs present pending decides passes unchallenged recorded calls refunds =>
      refine hkeep recorded.same.intents ?_
      intro call hcall
      unfold Call.invocation at hcall
      split at hcall <;> simp at hcall
  | answered waiting mandates intents receipts booked calls refunds =>
      exact hkeep intents (by intro call hcall; simp at hcall)
  | answerLost waiting outOfStep mandates intents receipts calls refunds =>
      exact hkeep intents (by intro call hcall; simp at hcall)
  | railFailed waiting same calls refunds =>
      exact hkeep same.intents (by intro call hcall; simp at hcall)
  | railFailureLost waiting outOfStep same calls refunds =>
      exact hkeep same.intents (by intro call hcall; simp at hcall)
  | executeFinished waiting entry fresh mandates intents receipts calls refunds =>
      rcases get_of_put intents hx with ⟨hid, -⟩ | ⟨-, h⟩
      · rw [C.saved_id, executedIntent_id] at hid
        rw [hid, hx] at fresh
        cases fresh
      · exact ⟨x, h, .kept (by intro call hcall; simp at hcall)⟩
  | approveFinished waiting entry present mandates intents receipts calls refunds =>
      rcases get_of_put intents hx with ⟨hid, h⟩ | ⟨-, h⟩
      · rw [IntentUpdate.apply_id, Table.key_of_get present] at hid
        rw [hid, hx] at present
        cases present
        exact ⟨_, h, .approved waiting entry hid⟩
      · exact ⟨x, h, .kept (by intro call hcall; simp at hcall)⟩
  | finishRefused waiting refusal same calls refunds =>
      exact hkeep same.intents (by intro call hcall; simp at hcall)
  | refundStarted starts same calls refunds =>
      exact hkeep same.intents (by intro call hcall; simp at hcall)
  | @refunded _ _ call _ _ es waiting present mandates intents receipts calls refunds quiet =>
      rcases get_of_put intents hx with ⟨hid, h⟩ | ⟨hid, h⟩ <;>
        rw [IntentUpdate.apply_id, Table.key_of_get present] at hid
      · rw [hid, hx] at present
        cases present
        exact ⟨_, h, .refunded waiting hid quiet⟩
      · refine ⟨x, h, .kept ?_⟩
        intro call' hcall'
        rcases List.mem_cons.1 hcall' with heq | hmem
        · cases heq
          exact hid
        · exact unrefunded_of_quiet _ quiet call' hmem
  | @refundRefused _ _ _ call _ waiting refusal same calls refunds =>
      by_cases hid : call.intentId = id
      · refine ⟨x, by rw [same.intents, hx], .refundLost waiting hid ?_⟩
        by_contra hnan
        obtain ⟨e', hrefused⟩ := refusal
        obtain ⟨store, hok⟩ := C.updateIntent_found s.world.store call.intentId
          { refundedMinor := some (call.already + call.amount) } x (by rw [hid]; exact hx)
          (by simpa using hnan)
        rw [hok] at hrefused
        cases hrefused
      · refine hkeep same.intents ?_
        intro call' hcall'
        simp only [List.mem_cons, Event.refundSettled.injEq, reduceCtorEq, List.not_mem_nil,
          or_self, or_false] at hcall'
        rw [hcall']
        exact hid
  | refundFailed waiting same calls refunds =>
      exact hkeep same.intents (by intro call hcall; simp at hcall)
  | mandateChanged change intents receipts calls refunds quiet =>
      exact hkeep intents (unrefunded_of_quiet _ quiet)

/-- A row that was not there was filed by `execute`. -/
theorem Effect.new_row (heffect : Effect C s a s' es)
    (hnone : (s.books C).intents.get id = none)
    (hx : (s'.books C).intents.get id = some x) : NewRow C s id a es x := by
  have hsame : ¬ (s'.books C).intents = (s.books C).intents := by
    intro h
    rw [h, hnone] at hx
    cases hx
  -- a rewritten row was there before
  have hold : ∀ {k : String} {y v : StoredIntent}, (s.books C).intents.get k = some y →
      v.id = y.id → ¬ (s'.books C).intents = (s.books C).intents.put v := by
    intro k y v hy hv h
    rw [h, Table.get_put, hv, Table.key_of_get hy] at hx
    split at hx
    · next hid =>
        rw [← hid, hnone] at hy
        cases hy
    · rw [hnone] at hx
      cases hx
  cases heffect with
  | quiet same calls refunds quiet => exact absurd same.intents hsame
  | filed intent_eq status unrefunded fresh mandates intents receipts calls refunds quiet priced =>
      rw [intents, Table.get_put] at hx
      split at hx
      · cases hx
        exact .filed status unrefunded (by rw [intent_eq]; exact priced) quiet
      · rw [hnone] at hx
        cases hx
  | refused present pending mandates intents receipts calls refunds quiet =>
      exact absurd intents (hold present rfl)
  | executeStarted runs decides automatic recorded calls refunds =>
      exact absurd recorded.same.intents hsame
  | approveStarted runs present pending decides passes unchallenged recorded calls refunds =>
      exact absurd recorded.same.intents hsame
  | answered waiting mandates intents receipts booked calls refunds =>
      exact absurd intents hsame
  | answerLost waiting outOfStep mandates intents receipts calls refunds =>
      exact absurd intents hsame
  | railFailed waiting same calls refunds => exact absurd same.intents hsame
  | railFailureLost waiting outOfStep same calls refunds => exact absurd same.intents hsame
  | executeFinished waiting entry fresh mandates intents receipts calls refunds =>
      rw [intents, Table.get_put] at hx
      split at hx
      · next hid =>
          cases hx
          rw [C.saved_id, executedIntent_id] at hid
          exact .executed waiting entry hid.symm
      · rw [hnone] at hx
        cases hx
  | approveFinished waiting entry present mandates intents receipts calls refunds =>
      exact absurd intents (hold present rfl)
  | finishRefused waiting refusal same calls refunds => exact absurd same.intents hsame
  | refundStarted starts same calls refunds => exact absurd same.intents hsame
  | refunded waiting present mandates intents receipts calls refunds quiet =>
      exact absurd intents (hold present rfl)
  | refundRefused waiting refusal same calls refunds => exact absurd same.intents hsame
  | refundFailed waiting same calls refunds => exact absurd same.intents hsame
  | mandateChanged change intents receipts calls refunds quiet => exact absurd intents hsame

end

/-- A step writes a receipt only when a rail returns one and the store takes
it. -/
theorem Effect.receipts {s s' : State σ} {a : Action} {es : List Event}
    (heffect : Effect C s a s' es) :
    ((∀ call p r, .railSettled call p r ∉ es) ∧
      (s'.books C).receipts = (s.books C).receipts) ∨
    ∃ call p r rest, es = .railSettled call p r :: rest ∧ (∀ e ∈ rest, e.isQuiet = true) ∧
      (s'.books C).receipts = receiptsAfter C s.world.store (issuedBy p r) := by
  have hquiet : (∀ e ∈ es, e.isQuiet = true) → ∀ call p r, .railSettled call p r ∉ es := by
    intro h call p r hmem
    cases h _ hmem
  cases heffect with
  | quiet same calls refunds quiet => exact Or.inl ⟨hquiet quiet, same.receipts⟩
  | filed intent_eq status unrefunded fresh mandates intents receipts calls refunds quiet =>
      exact Or.inl ⟨hquiet quiet, receipts⟩
  | refused present pending mandates intents receipts calls refunds quiet =>
      exact Or.inl ⟨hquiet quiet, receipts⟩
  | executeStarted runs decides automatic recorded calls refunds =>
      refine Or.inl ⟨?_, recorded.same.receipts⟩
      unfold Call.invocation
      split <;> simp
  | approveStarted runs present pending decides passes unchallenged recorded calls refunds =>
      refine Or.inl ⟨?_, recorded.same.receipts⟩
      unfold Call.invocation
      split <;> simp
  | answered waiting mandates intents receipts booked calls refunds =>
      exact Or.inr ⟨_, _, _, [], rfl, by simp, receipts⟩
  | answerLost waiting outOfStep mandates intents receipts calls refunds =>
      exact Or.inr ⟨_, _, _, _, rfl, by simp [Event.isQuiet], receipts⟩
  | railFailed waiting same calls refunds => exact Or.inl ⟨by simp, same.receipts⟩
  | railFailureLost waiting outOfStep same calls refunds =>
      exact Or.inl ⟨by simp, same.receipts⟩
  | executeFinished waiting entry fresh mandates intents receipts calls refunds =>
      exact Or.inl ⟨by simp, receipts⟩
  | approveFinished waiting entry present mandates intents receipts calls refunds =>
      exact Or.inl ⟨by simp, receipts⟩
  | finishRefused waiting refusal same calls refunds =>
      exact Or.inl ⟨by simp, same.receipts⟩
  | refundStarted starts same calls refunds => exact Or.inl ⟨by simp, same.receipts⟩
  | refunded waiting present mandates intents receipts calls refunds quiet =>
      refine Or.inl ⟨?_, receipts⟩
      intro call p r hmem
      rcases List.mem_cons.1 hmem with h | h
      · cases h
      · cases quiet _ h
  | refundRefused waiting refusal same calls refunds => exact Or.inl ⟨by simp, same.receipts⟩
  | refundFailed waiting same calls refunds => exact Or.inl ⟨by simp, same.receipts⟩
  | mandateChanged change intents receipts calls refunds quiet =>
      exact Or.inl ⟨hquiet quiet, receipts⟩

/-- A change of mandates removes none, and only amendments change a budget. -/
theorem MandateChange.get {ms ms' : Table Mandate.id} {a : Action} {id : String}
    {m : Mandate} (h : MandateChange ms a ms') (hm : ms.get id = some m) :
    ∃ m', ms'.get id = some m' ∧
      (m'.perPeriodCap = m.perPeriodCap ∧ m'.period = m.period ∨
        ∃ now patch, a = .amendMandate now id patch ∧ m' = patch.apply m) := by
  cases h with
  | grant fresh =>
      refine ⟨m, ?_, Or.inl ⟨rfl, rfl⟩⟩
      rw [Table.get_put_of_ne, hm]
      rintro rfl
      rw [hm] at fresh
      cases fresh
  | @revoke now id' =>
      rw [Table.get_modify (by intro v; rfl)]
      split
      · next hid =>
          rw [← hid, hm]
          exact ⟨_, rfl, Or.inl ⟨rfl, rfl⟩⟩
      · exact ⟨m, hm, Or.inl ⟨rfl, rfl⟩⟩
  | @amend now id' patch =>
      rw [Table.get_modify (MandatePatch.apply_id patch)]
      split
      · next hid =>
          subst hid
          rw [hm]
          exact ⟨_, rfl, Or.inr ⟨now, patch, rfl, rfl⟩⟩
      · exact ⟨m, hm, Or.inl ⟨rfl, rfl⟩⟩
  | @extend now id' expiresAt =>
      rw [Table.get_modify (MandatePatch.apply_id _)]
      split
      · next hid =>
          rw [← hid, hm]
          exact ⟨_, rfl, Or.inl ⟨rfl, rfl⟩⟩
      · exact ⟨m, hm, Or.inl ⟨rfl, rfl⟩⟩

/-- A step changes the mandates only as an operator asks. -/
theorem Effect.mandates {s s' : State σ} {a : Action} {es : List Event}
    (heffect : Effect C s a s' es) :
    (s'.books C).mandates = (s.books C).mandates ∨
      MandateChange (s.books C).mandates a (s'.books C).mandates := by
  cases heffect with
  | mandateChanged change intents receipts calls refunds quiet => exact Or.inr change
  | quiet same calls refunds quiet => exact Or.inl same.mandates
  | filed intent_eq status unrefunded fresh mandates intents receipts calls refunds quiet =>
      exact Or.inl mandates
  | refused present pending mandates intents receipts calls refunds quiet =>
      exact Or.inl mandates
  | executeStarted runs decides automatic recorded calls refunds =>
      exact Or.inl recorded.same.mandates
  | approveStarted runs present pending decides passes unchallenged recorded calls refunds =>
      exact Or.inl recorded.same.mandates
  | answered waiting mandates intents receipts booked calls refunds => exact Or.inl mandates
  | answerLost waiting outOfStep mandates intents receipts calls refunds =>
      exact Or.inl mandates
  | railFailed waiting same calls refunds => exact Or.inl same.mandates
  | railFailureLost waiting outOfStep same calls refunds => exact Or.inl same.mandates
  | executeFinished waiting entry fresh mandates intents receipts calls refunds =>
      exact Or.inl mandates
  | approveFinished waiting entry present mandates intents receipts calls refunds =>
      exact Or.inl mandates
  | finishRefused waiting refusal same calls refunds => exact Or.inl same.mandates
  | refundStarted starts same calls refunds => exact Or.inl same.mandates
  | refunded waiting present mandates intents receipts calls refunds quiet =>
      exact Or.inl mandates
  | refundRefused waiting refusal same calls refunds => exact Or.inl same.mandates
  | refundFailed waiting same calls refunds => exact Or.inl same.mandates

/-- A mandate stays, and its budget changes only when it is amended. -/
theorem Effect.mandate {s s' : State σ} {a : Action} {es : List Event} {id : String}
    {m : Mandate} (heffect : Effect C s a s' es)
    (hm : (s.books C).mandates.get id = some m) :
    ∃ m', (s'.books C).mandates.get id = some m' ∧
      (m'.perPeriodCap = m.perPeriodCap ∧ m'.period = m.period ∨
        ∃ now patch, a = .amendMandate now id patch ∧ m' = patch.apply m) := by
  rcases heffect.mandates C with h | h
  · exact ⟨m, by rw [h, hm], Or.inl ⟨rfl, rfl⟩⟩
  · exact h.get hm

end AgentWorth
