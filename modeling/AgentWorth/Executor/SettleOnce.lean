import AgentWorth.Executor.Deployment
import AgentWorth.Executor.InFlight
import AgentWorth.Lib.Slots

/-!
# At most one settlement per intent

An intent id is enforced to be unique only when `execute` files the intent,
after the rail has been asked, and `approve` checks that its intent is pending
before it awaits.  So an id settles once only if nobody starts a second call
for it while the first can still settle: the discipline `OneCallPerId`.
-/

namespace AgentWorth

open AgentWorth.Js AgentWorth.Lib

variable {σ : Type} {d : ExecutorDeps σ} (C : Contract d.store)

/-- The ids whose settlement a rail has confirmed, in order. -/
def settledIds (es : List Event) : List String :=
  es.filterMap fun e =>
    match e with
    | .railSettled call _ _ => some call.intent.id
    | _ => none

@[simp] theorem settledIds_append (es es' : List Event) :
    settledIds (es ++ es') = settledIds es ++ settledIds es' := List.filterMap_append

theorem settledIds_quiet {es : List Event} (h : ∀ e ∈ es, e.isQuiet = true) :
    settledIds es = [] := by
  rw [settledIds, List.filterMap_eq_nil_iff]
  intro e he
  have hq := h e he
  cases e <;> first | rfl | cases hq

theorem settledIds_refundSettled {call : RefundCall} {es : List Event}
    (h : ∀ e ∈ es, e.isQuiet = true) : settledIds (.refundSettled call :: es) = [] := by
  show settledIds es = []
  exact settledIds_quiet h

@[simp] theorem settledIds_invocation (call : Call) : settledIds call.invocation = [] := by
  unfold Call.invocation
  split <;> rfl

/-- `execute` gets ids that are neither stored nor in flight, and `approve` of a
pending intent is not called while a call for the same id is in flight. -/
def OneCallPerId (d : ExecutorDeps σ) : Guard (State σ) Action Event := fun _ s a =>
  match a with
  | .execute _ _ intent _ =>
      d.store.getIntent s.world.store intent.id = none ∧
        ∀ call ∈ s.calls, call.intent.id ≠ intent.id
  | .approve _ _ intentId _ _ =>
      (d.store.getIntent s.world.store intentId).any (fun x => x.status == .pending) = true →
        ∀ call ∈ s.calls, call.intent.id ≠ intentId
  | _ => True

instance (steps : List (Step (State σ) Action Event)) (s : State σ) (a : Action) :
    Decidable (OneCallPerId d steps s a) :=
  match a with
  | .execute .. => inferInstanceAs (Decidable (_ ∧ ∀ call ∈ s.calls, _))
  | .approve .. => inferInstanceAs (Decidable (_ → ∀ call ∈ s.calls, _))
  | .railReturns .. | .railThrows .. | .resume .. | .refund .. | .refundReturns ..
  | .refundThrows .. | .grantMandate .. | .revokeMandate .. | .amendMandate ..
  | .extendMandate .. | .engageKillSwitch | .disengageKillSwitch | .resetCircuitBreaker =>
      inferInstanceAs (Decidable True)

/-- The rail of a call has already answered. -/
def Call.isAnswered (call : Call) : Bool :=
  match call.stage with
  | .settled _ => true
  | .rail _ => false

/-- An id that has settled and can not be started again: its call is past the
rail, or no call has it and the store holds it as not pending. -/
def ClosedId (b : Books) (calls : List Call) (id : String) : Prop :=
  (∃ call ∈ calls, call.intent.id = id ∧ call.isAnswered = true) ∨
    (∀ call ∈ calls, call.intent.id ≠ id) ∧ ∃ x, b.intents.get id = some x ∧ x.status ≠ .pending

/-- The invariant of runs under `OneCallPerId`. -/
structure SettleOnceInv (es : List Event) (s : State σ) : Prop where
  synced : Synced C s.world
  distinct : (s.calls.map fun call => call.intent.id).Nodup
  finishable : ∀ call ∈ s.calls, call.Finishable (s.books C)
  once : (settledIds es).Nodup
  closed : ∀ id ∈ settledIds es, ClosedId (s.books C) s.calls id

/-! ## Each step keeps the invariant -/

/-- A finished or resumed call leaves the other calls as they were. -/
theorem Call.Finishable.mono {b b' : Books} {call : Call} (h : call.Finishable b)
    (hfree : b.intents.get call.intent.id = none → b'.intents.get call.intent.id = none)
    (hheld : (∃ x, b.intents.get call.intent.id = some x) →
      ∃ x, b'.intents.get call.intent.id = some x) : call.Finishable b' := by
  refine ⟨h.1, ?_⟩
  have h2 := h.2
  cases hentry : call.entry with
  | execute =>
      rw [hentry] at h2
      exact ⟨hfree h2.1, h2.2⟩
  | approve =>
      rw [hentry] at h2
      exact hheld h2

theorem ClosedId.mono {b b' : Books} {calls : List Call} {id : String}
    (h : ClosedId b calls id)
    (hheld : ∀ x, b.intents.get id = some x → x.status ≠ .pending →
      ∃ x', b'.intents.get id = some x' ∧ x'.status ≠ .pending) : ClosedId b' calls id := by
  rcases h with h | ⟨hnone, x, hx, hstatus⟩
  · exact Or.inl h
  · exact Or.inr ⟨hnone, hheld x hx hstatus⟩

/-- A row written under one id leaves every other id alone, and the id it is
written under held. -/
private theorem get_put_cases {t : Table StoredIntent.id} {v : StoredIntent} {id : String}
    {x : StoredIntent} (h : t.get id = some x) :
    (t.put v).get id = some x ∨ id = v.id ∧ (t.put v).get id = some v := by
  by_cases hid : id = v.id
  · exact Or.inr ⟨hid, by rw [hid, Table.get_put_self]⟩
  · exact Or.inl (by rw [Table.get_put_of_ne hid, h])

section Steps

variable {s s' : State σ} {a : Action} {es : List Event} {past : List Event}

/-- Steps that suspend and resume no call: the intents may gain a row or have
one rewritten, as long as no pending row appears and no suspended `execute`
loses its id. -/
theorem SettleOnceInv.idle (hinv : SettleOnceInv C past s) (hsync : Synced C s'.world)
    (hcalls : s'.calls = s.calls) (hes : settledIds es = [])
    (hfree : ∀ call ∈ s.calls, (s.books C).intents.get call.intent.id = none →
      (s'.books C).intents.get call.intent.id = none)
    (hheld : ∀ id x, (s.books C).intents.get id = some x →
      ∃ x', (s'.books C).intents.get id = some x' ∧
        (x.status ≠ .pending → x'.status ≠ .pending)) :
    SettleOnceInv C (past ++ es) s' where
  synced := hsync
  distinct := by rw [hcalls]; exact hinv.distinct
  finishable := by
    rw [hcalls]
    intro call hcall
    refine (hinv.finishable call hcall).mono (hfree call hcall) ?_
    rintro ⟨x, hx⟩
    obtain ⟨x', hx', -⟩ := hheld _ x hx
    exact ⟨x', hx'⟩
  once := by rw [settledIds_append, hes, List.append_nil]; exact hinv.once
  closed := by
    rw [settledIds_append, hes, List.append_nil, hcalls]
    intro id hid
    refine (hinv.closed id hid).mono ?_
    intro x hx hstatus
    obtain ⟨x', hx', hkeep⟩ := hheld id x hx
    exact ⟨x', hx', hkeep hstatus⟩

/-- Idle steps that leave the intents alone. -/
theorem SettleOnceInv.same (hinv : SettleOnceInv C past s) (hsync : Synced C s'.world)
    (hcalls : s'.calls = s.calls) (hes : settledIds es = [])
    (hintents : (s'.books C).intents = (s.books C).intents) :
    SettleOnceInv C (past ++ es) s' := by
  refine hinv.idle C hsync hcalls hes ?_ ?_
  · intro call _ h
    rw [hintents]
    exact h
  · intro id x hx
    exact ⟨x, by rw [hintents]; exact hx, fun h => h⟩

/-- Rewriting a row to one that is not pending, or to one with its status, is
idle. -/
theorem SettleOnceInv.rewrite (hinv : SettleOnceInv C past s) (hsync : Synced C s'.world)
    (hcalls : s'.calls = s.calls) (hes : settledIds es = []) {x v : StoredIntent}
    (hx : (s.books C).intents.get v.id = some x)
    (hstatus : x.status ≠ .pending → v.status ≠ .pending)
    (hintents : (s'.books C).intents = (s.books C).intents.put v) :
    SettleOnceInv C (past ++ es) s' := by
  refine hinv.idle C hsync hcalls hes ?_ ?_
  · intro call _ h
    rw [hintents, Table.get_put_of_ne]
    · exact h
    · intro hid
      rw [hid, hx] at h
      cases h
  · intro id y hy
    rw [hintents]
    rcases get_put_cases (v := v) hy with h | ⟨hid, h⟩
    · exact ⟨y, h, fun h => h⟩
    · rw [hid, hx] at hy
      cases hy
      exact ⟨v, h, hstatus⟩

/-- A call that nobody else is making, for an id that has not settled, may be
started. -/
theorem SettleOnceInv.start (hinv : SettleOnceInv C past s) (hsync : Synced C s'.world)
    {call : Call} (hcalls : s'.calls = s.calls ++ [call]) (hes : settledIds es = [])
    (hintents : (s'.books C).intents = (s.books C).intents)
    (hfinish : call.Finishable (s.books C))
    (halone : ∀ c ∈ s.calls, c.intent.id ≠ call.intent.id)
    (hopen : ∀ x, (s.books C).intents.get call.intent.id = some x → x.status = .pending) :
    SettleOnceInv C (past ++ es) s' := by
  have hunsettled : call.intent.id ∉ settledIds past := by
    intro hmem
    rcases hinv.closed _ hmem with ⟨c, hc, hid, -⟩ | ⟨-, x, hx, hstatus⟩
    · exact halone c hc hid
    · exact hstatus (hopen x hx)
  refine ⟨hsync, ?_, ?_, ?_, ?_⟩
  · rw [hcalls, List.map_append, List.map_cons, List.map_nil]
    refine hinv.distinct.append (List.nodup_singleton _) (List.disjoint_singleton.2 ?_)
    intro hmem
    obtain ⟨c, hc, hid⟩ := List.mem_map.1 hmem
    exact halone c hc hid
  · rw [hcalls]
    intro c hc
    refine Call.Finishable.mono (b := s.books C) ?_ (by rw [hintents]; exact id)
      (by rw [hintents]; exact id)
    rcases List.mem_append.1 hc with hc | hc
    · exact hinv.finishable c hc
    · rw [List.mem_singleton.1 hc]
      exact hfinish
  · rw [settledIds_append, hes, List.append_nil]
    exact hinv.once
  · rw [settledIds_append, hes, List.append_nil, hcalls]
    intro id hid
    rcases hinv.closed id hid with ⟨c, hc, hcid, hans⟩ | ⟨hnone, x, hx, hstatus⟩
    · exact Or.inl ⟨c, List.mem_append_left _ hc, hcid, hans⟩
    · refine Or.inr ⟨?_, x, by rw [hintents]; exact hx, hstatus⟩
      intro c hc
      rcases List.mem_append.1 hc with hc | hc
      · exact hnone c hc
      · rw [List.mem_singleton.1 hc]
        rintro rfl
        exact hunsettled hid

/-- While a call waits for its rail, its id has not settled. -/
theorem SettleOnceInv.unsettled_of_waiting (hinv : SettleOnceInv C past s) {k : Nat}
    {call : Call} {provider : PaymentProvider}
    (hwait : atRail s k = some (call, provider)) : call.intent.id ∉ settledIds past := by
  obtain ⟨hk, hstage⟩ := atRail_iff.1 hwait
  intro hmem
  rcases hinv.closed _ hmem with ⟨c, hc, hid, hans⟩ | ⟨hnone, -⟩
  · have heq : c = call :=
      List.inj_on_of_nodup_map hinv.distinct hc (mem_of_slot hk) hid
    rw [heq] at hans
    simp [Call.isAnswered, hstage] at hans
  · exact hnone call (mem_of_slot hk) rfl

/-- The rail of a call answers. -/
theorem SettleOnceInv.answer (hinv : SettleOnceInv C past s) (hsync : Synced C s'.world)
    {k : Nat} {call : Call} {provider : PaymentProvider}
    {outcome : Except String (Receipt × Bool)}
    (hwait : atRail s k = some (call, provider))
    (hcalls : s'.calls = s.calls.set k { call with stage := .settled outcome })
    (hes : settledIds es = [] ∨ settledIds es = [call.intent.id])
    (hintents : (s'.books C).intents = (s.books C).intents) :
    SettleOnceInv C (past ++ es) s' := by
  obtain ⟨hk, hstage⟩ := atRail_iff.1 hwait
  have hun := hinv.unsettled_of_waiting C hwait
  have hmem : ∀ c ∈ s'.calls, c ∈ s.calls ∨ c = { call with stage := .settled outcome } := by
    rw [hcalls]
    exact fun c hc => List.mem_or_eq_of_mem_set hc
  have hperm := perm_set (b := { call with stage := Stage.settled outcome }) hk
  refine ⟨hsync, ?_, ?_, ?_, ?_⟩
  · rw [hcalls, map_set_eq (f := fun c : Call => c.intent.id)
      (b := { call with stage := Stage.settled outcome }) hk rfl]
    exact hinv.distinct
  · intro c hc
    refine Call.Finishable.mono (b := s.books C) ?_ (by rw [hintents]; exact id)
      (by rw [hintents]; exact id)
    rcases hmem c hc with hc | rfl
    · exact hinv.finishable c hc
    · exact hinv.finishable call (mem_of_slot hk)
  · rw [settledIds_append]
    rcases hes with hes | hes
    · rw [hes, List.append_nil]
      exact hinv.once
    · rw [hes]
      exact hinv.once.append (List.nodup_singleton _) (List.disjoint_singleton.2 hun)
  · rw [settledIds_append]
    intro id hid
    by_cases hcall : id = call.intent.id
    · refine Or.inl ⟨{ call with stage := .settled outcome }, ?_, hcall.symm, rfl⟩
      rw [hcalls]
      exact hperm.mem_iff.2 (List.mem_cons_self ..)
    · have hpast : id ∈ settledIds past := by
        rcases List.mem_append.1 hid with h | h
        · exact h
        · rcases hes with hes | hes <;> rw [hes] at h
          · cases h
          · exact absurd (List.mem_singleton.1 h) hcall
      rcases hinv.closed id hpast with ⟨c, hc, hcid, hans⟩ | ⟨hnone, x, hx, hstatus⟩
      · refine Or.inl ⟨c, ?_, hcid, hans⟩
        rw [hcalls]
        refine hperm.mem_iff.2 (List.mem_cons_of_mem _ ?_)
        rcases List.mem_cons.1 ((perm_eraseIdx hk).mem_iff.1 hc) with rfl | h
        · exact absurd hcid.symm hcall
        · exact h
      · refine Or.inr ⟨?_, x, by rw [hintents]; exact hx, hstatus⟩
        intro c hc
        rcases hmem c hc with hc | rfl
        · exact hnone c hc
        · exact fun h => hcall h.symm

/-- A call finishes: its id is held, not pending, and no other call has it. -/
theorem SettleOnceInv.finish (hinv : SettleOnceInv C past s) (hsync : Synced C s'.world)
    {k : Nat} {call : Call} {outcome : Except String (Receipt × Bool)} {v : StoredIntent}
    (hwait : atResume s k = some (call, outcome))
    (hcalls : s'.calls = s.calls.eraseIdx k) (hes : settledIds es = [])
    (hid : v.id = call.intent.id) (hstatus : v.status ≠ .pending)
    (hintents : (s'.books C).intents = (s.books C).intents.put v) :
    SettleOnceInv C (past ++ es) s' := by
  obtain ⟨hk, -⟩ := atResume_iff.1 hwait
  have hperm := perm_eraseIdx hk
  have hother := ne_of_mem_eraseIdx hinv.distinct hk
  have hmem : ∀ c ∈ s'.calls, c ∈ s.calls ∧ c.intent.id ≠ v.id := by
    rw [hcalls, hid]
    exact fun c hc => ⟨List.mem_of_mem_eraseIdx hc, hother c hc⟩
  refine ⟨hsync, ?_, ?_, ?_, ?_⟩
  · rw [hcalls]
    exact hinv.distinct.sublist ((List.eraseIdx_sublist _ _).map _)
  · intro c hc
    obtain ⟨hold, hne⟩ := hmem c hc
    refine (hinv.finishable c hold).mono ?_ ?_ <;> rw [hintents, Table.get_put_of_ne hne] <;>
      exact id
  · rw [settledIds_append, hes, List.append_nil]
    exact hinv.once
  · rw [settledIds_append, hes, List.append_nil]
    intro id hpast
    by_cases hcall : id = v.id
    · refine Or.inr ⟨?_, v, by rw [hintents, hcall, Table.get_put_self], hstatus⟩
      intro c hc
      rw [hcall]
      exact (hmem c hc).2
    · rcases hinv.closed id hpast with ⟨c, hc, hcid, hans⟩ | ⟨hnone, x, hx, hx'⟩
      · refine Or.inl ⟨c, ?_, hcid, hans⟩
        rw [hcalls]
        rcases List.mem_cons.1 (hperm.mem_iff.1 hc) with rfl | h
        · exact absurd (hcid.symm.trans hid.symm) hcall
        · exact h
      · refine Or.inr ⟨fun c hc => hnone c (hmem c hc).1, x, ?_, hx'⟩
        rw [hintents, Table.get_put_of_ne hcall]
        exact hx

theorem settleOnce_step (hinv : SettleOnceInv C past s) {steps : List (Step (State σ) Action Event)}
    (hguard : OneCallPerId d steps s a) (htaken : step d s a = some (s', es)) :
    SettleOnceInv C (past ++ es) s' := by
  obtain ⟨heffect, hkeep⟩ := step_effect C htaken
  have hsync := hkeep hinv.synced
  cases heffect with
  | quiet same calls refunds quiet =>
      exact hinv.same C hsync calls (settledIds_quiet quiet) same.intents
  | filed intent_eq status unrefunded fresh mandates intents receipts calls refunds quiet =>
      subst intent_eq
      refine hinv.idle C hsync calls (settledIds_quiet quiet) ?_ ?_
      · intro call hcall hnone
        rw [intents, Table.get_put_of_ne]
        · exact hnone
        · rw [C.saved_id]
          exact hguard.2 call hcall
      · intro id y hy
        rw [intents]
        refine ⟨y, ?_, fun h => h⟩
        rw [Table.get_put_of_ne]
        · exact hy
        · rintro rfl
          rw [C.saved_id, fresh] at hy
          cases hy
  | @refused _ _ _ _ _ x _ _ _ present pending mandates intents receipts calls refunds quiet =>
      refine hinv.rewrite C hsync calls (settledIds_quiet quiet) (x := x) ?_ ?_ intents
      · rw [IntentUpdate.apply_id, Table.key_of_get present]
        exact present
      · intro _
        simp [IntentUpdate.apply]
  | @executeStarted _ _ intent _ _ _ _ runs decides automatic recorded calls refunds =>
      obtain ⟨hfree, halone⟩ := hguard
      rw [C.getIntent] at hfree
      obtain ⟨hgate, -⟩ := agentDecision_auto decides automatic
      obtain ⟨mandate, spend, hauto, -⟩ := evaluateGate_auto hgate automatic
      obtain ⟨n, -, hn⟩ := amount_of_not_floored hauto.unfloored
      refine hinv.start C hsync calls (settledIds_invocation _) recorded.same.intents ?_ halone ?_
      · exact ⟨rfl, hfree, by simp [settle, hn]⟩
      · intro x hx
        have hx' : (C.books s.world.store).intents.get intent.id = some x := hx
        rw [hfree] at hx'
        cases hx'
  | @approveStarted _ _ intentId _ _ x _ _ runs present pending decides passes unchallenged
      recorded calls refunds =>
      have hid : x.intent.id = intentId := by
        have hkey : x.id = intentId := Table.key_of_get present
        exact hkey
      refine hinv.start C hsync calls (settledIds_invocation _) recorded.same.intents ?_ ?_ ?_
      · refine ⟨hid.symm, x, ?_⟩
        rw [← present, ← hid]
        rfl
      · intro c hc
        show c.intent.id ≠ x.intent.id
        rw [hid]
        exact hguard (by rw [C.getIntent]; simp [show (C.books s.world.store).intents.get
          intentId = some x from present, pending]) c hc
      · intro y hy
        have hy' : (s.books C).intents.get x.intent.id = some y := hy
        rw [hid, present] at hy'
        cases hy'
        exact pending
  | answered waiting mandates intents receipts booked calls refunds =>
      exact hinv.answer C hsync waiting calls (Or.inr rfl) intents
  | answerLost waiting outOfStep mandates intents receipts calls refunds =>
      exact absurd hinv.synced outOfStep
  | railFailed waiting same calls refunds =>
      exact hinv.answer C hsync waiting calls (Or.inl rfl) same.intents
  | railFailureLost waiting outOfStep same calls refunds =>
      exact absurd hinv.synced outOfStep
  | executeFinished waiting entry fresh mandates intents receipts calls refunds =>
      refine hinv.finish C hsync waiting calls rfl ?_ ?_ intents
      · rw [C.saved_id]
        cases ‹Except String (Receipt × Bool)› <;> rfl
      · rw [C.saved_status]
        cases ‹Except String (Receipt × Bool)› <;> simp [executedIntent, unsettled]
  | approveFinished waiting entry present mandates intents receipts calls refunds =>
      have hcall := hinv.finishable _ (mem_of_slot (atResume_iff.1 waiting).1)
      refine hinv.finish C hsync waiting calls rfl ?_ ?_ intents
      · rw [IntentUpdate.apply_id, Table.key_of_get present, hcall.1]
      · cases ‹Except String (Receipt × Bool)› <;> simp [approvedUpdate, IntentUpdate.apply]
  | finishRefused waiting refusal same calls refunds =>
      have hcall := hinv.finishable _ (mem_of_slot (atResume_iff.1 waiting).1)
      obtain ⟨store, hok⟩ := filing_ok C _ hcall
      rw [hok] at refusal
      cases refusal
  | refundStarted starts same calls refunds =>
      exact hinv.same C hsync calls rfl same.intents
  | @refunded _ _ _ x _ es waiting present mandates intents receipts calls refunds quiet =>
      refine hinv.rewrite C hsync calls (settledIds_refundSettled quiet) (x := x) ?_ ?_ intents
      · rw [IntentUpdate.apply_id, Table.key_of_get present]
        exact present
      · intro h
        simpa [IntentUpdate.apply] using h
  | refundRefused waiting refusal same calls refunds =>
      exact hinv.same C hsync calls rfl same.intents
  | refundFailed waiting same calls refunds =>
      exact hinv.same C hsync calls rfl same.intents
  | mandateChanged change intents receipts calls refunds quiet =>
      exact hinv.same C hsync calls (settledIds_quiet quiet) intents

end Steps

theorem settleOnce_start {s₀ : State σ} (hidle : s₀.calls = []) (hsync : Synced C s₀.world) :
    SettleOnceInv C [] s₀ where
  synced := hsync
  distinct := by rw [hidle]; exact List.nodup_nil
  finishable := by rw [hidle]; exact fun c hc => absurd hc List.not_mem_nil
  once := List.nodup_nil
  closed := fun id hid => absurd hid List.not_mem_nil

/-- **At most one settlement per id.**  In every run that starts with no call in
flight and keeps to `OneCallPerId`, whatever the rails answer, each id settles
at most once. -/
theorem settles_at_most_once {s₀ s : State σ} {steps : List (Step (State σ) Action Event)}
    (hidle : s₀.calls = []) (hsync : Synced C s₀.world)
    (hrun : (executor d).Run (OneCallPerId d) s₀ steps s) (id : String) :
    (settledIds (events steps)).count id ≤ 1 := by
  have hinv : SettleOnceInv C (events steps) s := by
    refine hrun.invariant (fun steps s => SettleOnceInv C (events steps) s)
      (settleOnce_start C hidle hsync) ?_
    intro steps s a s' es ih hg ht
    rw [events_snoc]
    exact settleOnce_step C ih hg ht
  exact List.nodup_iff_count_le_one.1 hinv.once id

/-- Two overlapping payments under different ids. -/
theorem settles_at_most_once_overlapping : ∃ steps s,
    (executor Sample.deps).Run (OneCallPerId Sample.deps) Sample.start steps s ∧
      settledIds (events steps) = ["b", "a"] ∧
      (settledIds (events steps)).count "a" ≤ 1 := by
  obtain ⟨steps, s, hrun, hids⟩ := System.exists_run (executor Sample.deps)
    (OneCallPerId Sample.deps) Sample.start
    [Sample.pay "a" 40, Sample.pay "b" 40, Sample.settles 1 "b" 40, Sample.settles 0 "a" 40,
      .resume 0, .resume 0]
    (fun steps _ => decide (settledIds (events steps) = ["b", "a"])) (by decide +kernel)
  exact ⟨steps, s, hrun, of_decide_eq_true hids,
    settles_at_most_once memoryContract rfl Sample.synced_start hrun "a"⟩

/-- Without the discipline: an id used again settles again, before
`insertIntent` refuses it. -/
theorem reused_id_settles_twice : ∃ steps s,
    (executor Sample.deps).Run anyStep Sample.start steps s ∧
      (settledIds (events steps)).count "a" = 2 := by
  obtain ⟨steps, s, hrun, hids⟩ := System.exists_run (executor Sample.deps)
    anyStep Sample.start
    [Sample.pay "a" 40, Sample.settles 0 "a" 40, .resume 0, Sample.pay "a" 40,
      Sample.settles 0 "a" 40, .resume 0]
    (fun steps _ => decide ((settledIds (events steps)).count "a" = 2)) (by decide +kernel)
  exact ⟨steps, s, hrun, of_decide_eq_true hids⟩

end AgentWorth
