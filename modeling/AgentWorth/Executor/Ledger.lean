import AgentWorth.Executor.Attribution
import AgentWorth.Executor.Booking

/-!
# The ledger of a mandate

The payments that `execute` made under a mandate on its own and that their rails
confirmed, against the rows the store keeps.  Between the confirmation and the
row there is the suspended call: a payment is owed to the books until its call
files it, and booked from then on.
-/

namespace AgentWorth

open AgentWorth.Js AgentWorth.Lib

variable {σ : Type} {d : ExecutorDeps σ} (C : Contract d.store)

/-- A payment a rail has confirmed, with the call that made it. -/
structure Payment where
  call : Call
  receipt : Receipt

namespace Payment

def id (p : Payment) : String := p.call.intent.id

/-- When it settled, in milliseconds. -/
def time (p : Payment) : JsNumber := Date.getTime p.receipt.settledAt

end Payment

/-- The payment an event confirms, if `execute` made it under `m`. -/
def executedPayment (m : String) : Event → Option Payment
  | .railSettled call provider receipt =>
      if call.entry = .execute ∧ call.decision.mandateId = some m then
        some ⟨call, issuedBy provider receipt⟩
      else none
  | _ => none

/-- The payments auto-executed and settled under `m`, in order. -/
def paidUnder (m : String) (es : List Event) : List Payment := es.filterMap (executedPayment m)

/-! ## Disciplines -/

/-- The receipt a rail returns can be booked. -/
def Takes (d : ExecutorDeps σ) (s : State σ) : Action → Prop
  | .railReturns k receipt verified => ∀ w ∈ atRail s k,
      Bookable d s.world.store (issuedBy w.2 receipt) verified
  | _ => True

/-- Every id has one call, and the store takes the receipts its rails return,
once verified. -/
def KeepsBooks (d : ExecutorDeps σ) : Guard (State σ) Action Event := fun steps s a =>
  OneCallPerId d steps s a ∧ Takes d s a

/-- A rail settles at the `now` its call was given. -/
def SettlesNow (s : State σ) : Action → Prop
  | .railReturns k receipt _ => ∀ w ∈ atRail s k, receipt.settledAt = w.1.now
  | _ => True

/-- The time an entry point is called at. -/
def Action.clock : Action → Option String
  | .execute now .. | .approve now .. | .refund now .. | .grantMandate now _
  | .revokeMandate now _ | .amendMandate now .. | .extendMandate now .. => some now
  | _ => none

/-- The action does not amend `m`. -/
def Action.Keeps (m : String) : Action → Prop
  | .amendMandate _ id _ => id ≠ m
  | _ => True

/-- The clock does not go back and `m` is not amended. -/
def Steady (m : String) : Guard (State σ) Action Event := fun steps _ a =>
  (∀ now ∈ a.clock, ∀ t ∈ steps, ∀ earlier ∈ t.action.clock, strLt now earlier = false) ∧
    a.Keeps m

/-- One call at a time, on a clock that reads timestamps, over rails that settle
at `now` and books that are kept. -/
def Orderly (d : ExecutorDeps σ) : Guard (State σ) Action Event := fun steps s a =>
  Sequential steps s a ∧ KeepsBooks d steps s a ∧ SettlesNow s a ∧
    ∀ now ∈ a.clock, IsTimestamp now

instance (store : σ) (receipt : Receipt) (verified : Except String Bool) :
    Decidable (Bookable d store receipt verified) := inferInstanceAs (Decidable (_ ∧ _))

instance (s : State σ) (a : Action) : Decidable (Takes d s a) := by
  unfold Takes
  split <;> infer_instance

instance (steps : List (Step (State σ) Action Event)) (s : State σ) (a : Action) :
    Decidable (KeepsBooks d steps s a) := inferInstanceAs (Decidable (_ ∧ _))

instance (s : State σ) (a : Action) : Decidable (SettlesNow s a) := by
  unfold SettlesNow
  split <;> infer_instance

instance (m : String) (a : Action) : Decidable (a.Keeps m) := by
  unfold Action.Keeps
  split <;> infer_instance

instance (m : String) (steps : List (Step (State σ) Action Event)) (s : State σ) (a : Action) :
    Decidable (Steady m steps s a) := inferInstanceAs (Decidable (_ ∧ _))

instance (steps : List (Step (State σ) Action Event)) (s : State σ) (a : Action) :
    Decidable (Orderly d steps s a) :=
  inferInstanceAs (Decidable (_ ∧ _ ∧ _ ∧ _))

/-! ## Events -/

section Events

variable {m : String}

@[simp] theorem paidUnder_nil : paidUnder m [] = [] := rfl

@[simp] theorem paidUnder_append (es es' : List Event) :
    paidUnder m (es ++ es') = paidUnder m es ++ paidUnder m es' := List.filterMap_append

theorem paidUnder_quiet {es : List Event} (h : ∀ e ∈ es, e.isQuiet = true) :
    paidUnder m es = [] := by
  rw [paidUnder, List.filterMap_eq_nil_iff]
  intro e he
  have hquiet := h e he
  cases e <;> first | rfl | cases hquiet

@[simp] theorem paidUnder_invocation (call : Call) : paidUnder m call.invocation = [] := by
  unfold Call.invocation
  split <;> rfl

theorem call_of_mem {es : List Event} {p : Payment} (h : p ∈ paidUnder m es) :
    p.call.entry = .execute ∧ p.call.decision.mandateId = some m := by
  obtain ⟨e, -, he⟩ := List.mem_filterMap.1 h
  cases e with
  | railSettled call provider receipt =>
      simp only [executedPayment, Option.ite_none_right_eq_some, Option.some.injEq] at he
      obtain ⟨hcall, rfl⟩ := he
      exact hcall
  | _ => cases he

/-- A payment is named by the id that settled. -/
theorem ids_sublist (m : String) (es : List Event) :
    ((paidUnder m es).map Payment.id).Sublist (settledIds es) := by
  induction es with
  | nil => exact List.Sublist.refl _
  | cons e es ih =>
      cases e with
      | railSettled call provider receipt =>
          by_cases h : call.entry = .execute ∧ call.decision.mandateId = some m
          · simpa [paidUnder, settledIds, executedPayment, h, Payment.id] using ih
          · have hskip : paidUnder m (.railSettled call provider receipt :: es) =
                paidUnder m es := by
              simp [paidUnder, executedPayment, h]
            rw [hskip]
            exact ih.trans (List.sublist_cons_self _ _)
      | _ => exact ih

end Events

/-! ## Owed and booked -/

/-- The payment's call has the receipt and has still to file it. -/
def Owed (p : Payment) (s : State σ) : Prop :=
  ∃ v, { p.call with stage := .settled (.ok (p.receipt, v)) } ∈ s.calls

/-- The payment has its row. -/
structure Booked (p : Payment) (s : State σ) : Prop where
  settled : SettledRow C p.id p.receipt.settledAt p.call.decision.mandateId s
  intent : ∃ x, (s.books C).intents.get p.id = some x ∧ x.intent = p.call.intent

/-- The payments of a mandate and the books, in runs that keep the books. -/
structure LedgerInv (m : String) (past : List Event) (s : State σ) : Prop where
  once : SettleOnceInv C past s
  entered : ∀ p ∈ paidUnder m past, Owed p s ∨ Booked C p s

section Steps

variable {s s' : State σ} {a : Action} {es past : List Event} {m : String} {p : Payment}

theorem Booked.step (h : Booked C p s) (heffect : Effect C s a s' es) : Booked C p s' := by
  refine ⟨h.settled.step C heffect, ?_⟩
  obtain ⟨x, hx, hintent⟩ := h.intent
  obtain ⟨x', hx', hchange⟩ := heffect.row C hx
  exact ⟨x', hx', by rw [hchange.intent_eq, hintent]⟩

/-- A step that confirms a payment is the answer of its rail. -/
theorem Effect.paid (heffect : Effect C s a s' es) (hsync : Synced C s.world)
    (hp : p ∈ paidUnder m es) :
    ∃ k receipt verified provider outcome, a = .railReturns k receipt verified ∧
      atRail s k = some (p.call, provider) ∧ p.receipt = issuedBy provider receipt ∧
      paidUnder m es = [p] ∧
      s'.calls = s.calls.set k { p.call with stage := .settled outcome } := by
  have hquiet : (∀ e ∈ es, e.isQuiet = true) → p ∉ paidUnder m es := by
    intro h
    rw [paidUnder_quiet h]
    exact List.not_mem_nil
  cases heffect with
  | answered waiting mandates intents receipts booked calls refunds =>
      simp only [paidUnder, executedPayment, List.filterMap_cons, List.filterMap_nil] at hp ⊢
      split at hp
      · cases hp
      · next p' hmade =>
          cases List.mem_singleton.1 hp
          simp only [Option.ite_none_right_eq_some, Option.some.injEq] at hmade
          obtain ⟨hcall, rfl⟩ := hmade
          exact ⟨_, _, _, _, _, rfl, waiting, rfl, rfl, calls⟩
  | answerLost waiting outOfStep mandates intents receipts calls refunds =>
      exact absurd hsync outOfStep
  | quiet same calls refunds quiet => exact absurd hp (hquiet quiet)
  | filed intent_eq status unrefunded fresh mandates intents receipts calls refunds quiet =>
      exact absurd hp (hquiet quiet)
  | refused present pending mandates intents receipts calls refunds quiet =>
      exact absurd hp (hquiet quiet)
  | mandateChanged change intents receipts calls refunds quiet =>
      exact absurd hp (hquiet quiet)
  | @refunded _ _ _ _ _ es waiting present mandates intents receipts calls refunds quiet =>
      have hnone : p ∈ paidUnder m es := hp
      rw [paidUnder_quiet quiet] at hnone
      cases hnone
  | executeStarted runs decides automatic recorded calls refunds => simp at hp
  | approveStarted runs present pending decides passes unchallenged recorded calls refunds =>
      simp at hp
  | railFailed waiting same calls refunds => simp [paidUnder, executedPayment] at hp
  | railFailureLost waiting outOfStep same calls refunds =>
      simp [paidUnder, executedPayment] at hp
  | executeFinished waiting entry fresh mandates intents receipts calls refunds =>
      simp [paidUnder, executedPayment] at hp
  | approveFinished waiting entry present mandates intents receipts calls refunds =>
      simp [paidUnder, executedPayment] at hp
  | finishRefused waiting refusal same calls refunds =>
      simp [paidUnder, executedPayment] at hp
  | refundStarted starts same calls refunds => simp [paidUnder, executedPayment] at hp
  | refundRefused waiting refusal same calls refunds =>
      simp [paidUnder, executedPayment] at hp
  | refundFailed waiting same calls refunds => simp [paidUnder, executedPayment] at hp

/-- A call whose settlement is over stays until it files its outcome. -/
theorem Effect.settled_call (heffect : Effect C s a s' es) (hinv : SettleOnceInv C past s)
    {call : Call} {outcome : Except String (Receipt × Bool)} (hcall : call ∈ s.calls)
    (hstage : call.stage = .settled outcome) :
    call ∈ s'.calls ∨ ∃ k, s.calls[k]? = some call ∧ s'.calls = s.calls.eraseIdx k ∧
      Finished C s s' call outcome := by
  have hset : ∀ {k : Nat} {c c' : Call} {provider : PaymentProvider},
      atRail s k = some (c, provider) → s'.calls = s.calls.set k c' → call ∈ s'.calls := by
    intro k c c' provider hwait hcalls
    obtain ⟨hk, hrail⟩ := atRail_iff.1 hwait
    rw [hcalls]
    refine (perm_set hk).mem_iff.2 (List.mem_cons_of_mem _ ?_)
    rcases List.mem_cons.1 ((perm_eraseIdx hk).mem_iff.1 hcall) with rfl | h
    · rw [hrail] at hstage
      cases hstage
    · exact h
  have hdone : ∀ {k : Nat} {c : Call} {o : Except String (Receipt × Bool)},
      atResume s k = some (c, o) → s'.calls = s.calls.eraseIdx k → Finished C s s' c o →
      call ∈ s'.calls ∨ ∃ k, s.calls[k]? = some call ∧ s'.calls = s.calls.eraseIdx k ∧
        Finished C s s' call outcome := by
    intro k c o hwait hcalls hfinished
    obtain ⟨hk, hover⟩ := atResume_iff.1 hwait
    rcases List.mem_cons.1 ((perm_eraseIdx hk).mem_iff.1 hcall) with rfl | h
    · rw [hstage] at hover
      cases hover
      exact Or.inr ⟨k, hk, hcalls, hfinished⟩
    · exact Or.inl (by rw [hcalls]; exact h)
  cases heffect with
  | quiet same calls refunds quiet => exact Or.inl (by rw [calls]; exact hcall)
  | filed intent_eq status unrefunded fresh mandates intents receipts calls refunds quiet =>
      exact Or.inl (by rw [calls]; exact hcall)
  | refused present pending mandates intents receipts calls refunds quiet =>
      exact Or.inl (by rw [calls]; exact hcall)
  | executeStarted runs decides automatic recorded calls refunds =>
      exact Or.inl (by rw [calls]; exact List.mem_append_left _ hcall)
  | approveStarted runs present pending decides passes unchallenged recorded calls refunds =>
      exact Or.inl (by rw [calls]; exact List.mem_append_left _ hcall)
  | answered waiting mandates intents receipts booked calls refunds =>
      exact Or.inl (hset waiting calls)
  | railFailed waiting same calls refunds => exact Or.inl (hset waiting calls)
  | answerLost waiting outOfStep mandates intents receipts calls refunds =>
      exact absurd hinv.synced outOfStep
  | railFailureLost waiting outOfStep same calls refunds => exact absurd hinv.synced outOfStep
  | executeFinished waiting entry fresh mandates intents receipts calls refunds =>
      exact hdone waiting calls (.execute entry fresh intents)
  | approveFinished waiting entry present mandates intents receipts calls refunds =>
      exact hdone waiting calls (.approve entry present intents)
  | finishRefused waiting refusal same calls refunds =>
      obtain ⟨store, hok⟩ := filing_ok C _
        (hinv.finishable _ (mem_of_slot (atResume_iff.1 waiting).1))
      rw [hok] at refusal
      cases refusal
  | refundStarted starts same calls refunds => exact Or.inl (by rw [calls]; exact hcall)
  | refunded waiting present mandates intents receipts calls refunds quiet =>
      exact Or.inl (by rw [calls]; exact hcall)
  | refundRefused waiting refusal same calls refunds =>
      exact Or.inl (by rw [calls]; exact hcall)
  | refundFailed waiting same calls refunds => exact Or.inl (by rw [calls]; exact hcall)
  | mandateChanged change intents receipts calls refunds quiet =>
      exact Or.inl (by rw [calls]; exact hcall)

/-- An owed payment stays owed until it is booked. -/
theorem Owed.step (howed : Owed p s) (hinv : SettleOnceInv C past s)
    (hentry : p.call.entry = .execute) (heffect : Effect C s a s' es) :
    Owed p s' ∨ Booked C p s' := by
  obtain ⟨v, hcall⟩ := howed
  rcases heffect.settled_call C hinv hcall rfl with h | ⟨k, hk, hcalls, hfinished⟩
  · exact Or.inl ⟨v, h⟩
  · cases hfinished with
    | approve entry present intents =>
        rw [show p.call.entry = .approve from entry] at hentry
        cases hentry
    | execute entry fresh intents =>
        have hkey : (C.saved (executedIntent
            { p.call with stage := .settled (.ok (p.receipt, v)) }
            (.ok (p.receipt, v)))).id = p.id := by
          rw [C.saved_id, executedIntent_id]
          rfl
        have hrow : (s'.books C).intents.get p.id = some (C.saved (executedIntent
            { p.call with stage := .settled (.ok (p.receipt, v)) } (.ok (p.receipt, v)))) := by
          rw [intents, ← hkey, Table.get_put_self]
        refine Or.inr ⟨⟨⟨_, hrow, ?_, ?_, ?_⟩, ?_⟩, _, hrow, ?_⟩
        · rw [C.saved_status]
          rfl
        · rw [C.saved_settledAt]
          rfl
        · rw [C.saved_mandateId]
          rfl
        · -- the other calls are for other ids
          intro c hc _
          rw [hcalls] at hc
          have hc' := (hinv.finishable c (List.mem_of_mem_eraseIdx hc)).1
          rw [hc']
          exact ne_of_mem_eraseIdx hinv.distinct hk c hc
        · rw [C.saved_intent]
          rfl

/-- **Each step keeps the ledger.** -/
theorem ledger_step {steps : List (Step (State σ) Action Event)} (hinv : LedgerInv C m past s)
    (hguard : KeepsBooks d steps s a) (htaken : step d s a = some (s', es)) :
    LedgerInv C m (past ++ es) s' := by
  obtain ⟨hone, hkeeps⟩ := hguard
  obtain ⟨heffect, -⟩ := step_effect C htaken
  refine ⟨settleOnce_step C hinv.once hone htaken, ?_⟩
  intro p hp
  rw [paidUnder_append] at hp
  rcases List.mem_append.1 hp with hold | hnew
  · rcases hinv.entered p hold with howed | hbooked
    · exact howed.step C hinv.once (call_of_mem hold).1 heffect
    · exact Or.inr (hbooked.step C heffect)
  · obtain ⟨k, receipt, verified, provider, _, rfl, hwait, hreceipt, -⟩ :=
      heffect.paid C hinv.once.synced hnew
    obtain ⟨hk, -⟩ := atRail_iff.1 hwait
    obtain ⟨hlt, -⟩ := List.getElem?_eq_some_iff.1 hk
    obtain ⟨v, w', entries, hret, -⟩ := settleReturned_ok C p.call.intent p.call.now
      hinv.once.synced (hkeeps _ hwait)
    simp only [step, hwait, Option.map_some, Option.some.injEq, hret] at htaken
    cases htaken
    refine Or.inl ⟨v, ?_⟩
    rw [hreceipt]
    exact List.mem_set hlt _

end Steps

/-- What the gate read before a payment is executed under `m`: the stored mandate
and the rows of its period. -/
theorem rows_of_decision {w : World σ} {src : Sources} {now : String} {intent : PaymentIntent}
    {attestation : Option Attestation} {decision : GateDecision} {m : String}
    (hdecides : agentDecision d src w now intent attestation = .ok decision)
    (hauto : decision.outcome = .autoExecute) (hm : decision.mandateId = some m) :
    ∃ mandate start, mandate.id = m ∧ d.store.getMandate w.store m = some mandate ∧
      periodStart now mandate.period = .ok start ∧
      AutoExecutable intent (context d src w.store now intent attestation) mandate
        (((C.books w.store).spendRows m start).map priorSpend) := by
  obtain ⟨hgate, -⟩ := agentDecision_auto hdecides hauto
  obtain ⟨mandate, spend, hexec, hverdict⟩ := evaluateGate_auto hgate hauto
  have hid : mandate.id = m := by
    have h := congrArg Verdict.mandateId hverdict
    rw [show decision.verdict.mandateId = some m from hm] at h
    exact (Option.some.inj h).symm
  subst hid
  have hheld := (selectMandate_spec C hexec.selected).1
  have hspend : d.store.periodSpend w.store mandate.id now = .ok spend := hexec.spend
  rw [C.periodSpend, Books.periodSpend, ← C.getMandate, hheld] at hspend
  obtain ⟨start, hstart, rfl⟩ := except_map_eq_ok.1 hspend
  exact ⟨mandate, start, rfl, hheld, hstart, hexec⟩

/-- In every run that keeps the books, each payment is owed or booked. -/
theorem ledger_run {G : Guard (State σ) Action Event} {s₀ s : State σ}
    {steps : List (Step (State σ) Action Event)}
    (himp : ∀ steps s a, G steps s a → KeepsBooks d steps s a) (m : String)
    (hidle : s₀.calls = []) (hsync : Synced C s₀.world)
    (hrun : (executor d).Run G s₀ steps s) : LedgerInv C m (events steps) s := by
  refine hrun.invariant (fun steps s => LedgerInv C m (events steps) s) ?_ ?_
  · exact ⟨settleOnce_start C hidle hsync, by simp⟩
  · intro steps s a s' es ih hg ht
    rw [events_snoc]
    exact ledger_step C ih (himp _ _ _ hg) ht

end AgentWorth
