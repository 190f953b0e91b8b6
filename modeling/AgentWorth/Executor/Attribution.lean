import AgentWorth.Executor.Deployment
import AgentWorth.Executor.InFlight
import AgentWorth.Executor.Rows

/-!
# Which budget a payment counts against

A stored intent counts against the mandate it was filed under.  `approve` runs
the gate again and may find another mandate, but it writes the outcome without
it: the payment counts where it was filed, for as long as it is stored.
-/

namespace AgentWorth

open AgentWorth.Js AgentWorth.Lib

variable {σ : Type} {d : ExecutorDeps σ} (C : Contract d.store)

/-- A call starts when no other is in flight. -/
def Sequential : Guard (State σ) Action Event := fun _ s a =>
  match a with
  | .execute .. | .approve .. => s.calls = []
  | _ => True

instance (steps : List (Step (State σ) Action Event)) (s : State σ) (a : Action) :
    Decidable (Sequential steps s a) :=
  match a with
  | .execute .. | .approve .. => decidable_of_iff (s.calls.isEmpty = true) List.isEmpty_iff
  | .railReturns .. | .railThrows .. | .resume .. | .refund .. | .refundReturns ..
  | .refundThrows .. | .grantMandate .. | .revokeMandate .. | .amendMandate ..
  | .extendMandate .. | .engageKillSwitch | .disengageKillSwitch | .resetCircuitBreaker =>
      inferInstanceAs (Decidable True)

/-! ## Settled rows stay -/

/-- An intent that settled at a time, under a mandate or none, with nobody left
to rewrite it. -/
structure SettledRow (id : String) (settledAt : String) (mandateId : Option String)
    (s : State σ) : Prop where
  row : ∃ x, (s.books C).intents.get id = some x ∧ x.status = .settled ∧
    x.settledAt = some settledAt ∧ x.mandateId = mandateId
  closed : ∀ call ∈ s.calls, call.entry = .approve → call.intentId ≠ id

section Steps

variable {s s' : State σ} {a : Action} {es : List Event} {id settledAt : String}
  {mandateId : Option String}

/-- Nobody can start to approve an intent that has settled. -/
theorem closed_step (heffect : Effect C s a s' es) {x : StoredIntent}
    (hx : (s.books C).intents.get id = some x) (hstatus : x.status ≠ .pending)
    (hclosed : ∀ call ∈ s.calls, call.entry = .approve → call.intentId ≠ id) :
    ∀ call ∈ s'.calls, call.entry = .approve → call.intentId ≠ id := by
  intro call hcall hentry
  cases heffect.mem_calls C hcall with
  | old mem => exact hclosed call mem hentry
  | executed decides automatic => cases hentry
  | @approved _ _ intentId _ _ y _ present pending decides passes =>
      intro hid
      have hid' : intentId = id := hid
      rw [C.getIntent, hid', show (C.books s.world.store).intents.get id = some x from hx]
        at present
      cases present
      exact hstatus pending
  | @answered _ _ old _ _ waiting returned =>
      exact hclosed old (List.mem_of_getElem? (atRail_iff.1 waiting).1) hentry

theorem SettledRow.step (hrow : SettledRow C id settledAt mandateId s)
    (heffect : Effect C s a s' es) : SettledRow C id settledAt mandateId s' := by
  obtain ⟨⟨x, hx, hstatus, hat, hmandate⟩, hclosed⟩ := hrow
  refine ⟨?_, closed_step C heffect hx (by simp [hstatus]) hclosed⟩
  obtain ⟨x', hx', hchange⟩ := heffect.row C hx
  cases hchange with
  | kept unrefunded => exact ⟨x, hx', hstatus, hat, hmandate⟩
  | refused pending unrefunded =>
      rw [hstatus] at pending
      cases pending
  | approved waiting entry named =>
      exact absurd named (hclosed _ (List.mem_of_getElem? (atResume_iff.1 waiting).1) entry)
  | refunded waiting named quiet =>
      exact ⟨_, hx', hstatus, by simpa [IntentUpdate.apply] using hat, hmandate⟩
  | refundLost waiting named nan => exact ⟨x, hx', hstatus, hat, hmandate⟩

theorem SettledRow.run {G : Guard (State σ) Action Event} {later : State σ}
    {steps : List (Step (State σ) Action Event)} (hrow : SettledRow C id settledAt mandateId s)
    (hrun : (executor d).Run G s steps later) : SettledRow C id settledAt mandateId later := by
  refine hrun.invariant (fun _ s => SettledRow C id settledAt mandateId s) hrow ?_
  intro steps s a s' es ih _ htaken
  exact ih.step C (step_effect C htaken).1

/-- A settled row is among the rows a mandate's spend is summed over exactly
when it was filed under that mandate. -/
theorem SettledRow.counted_iff (hrow : SettledRow C id settledAt mandateId s) {m start : String}
    (hperiod : strLt settledAt start = false) :
    (∃ x ∈ (s.books C).spendRows m start, x.id = id) ↔ mandateId = some m := by
  obtain ⟨⟨x, hx, hstatus, hat, hmandate⟩, -⟩ := hrow
  constructor
  · rintro ⟨y, hy, rfl⟩
    obtain ⟨hget, hcounts⟩ := Books.mem_spendRows.1 hy
    rw [hx] at hget
    cases hget
    exact hmandate.symm.trans (countsFor_iff.1 hcounts).2.1
  · rintro rfl
    have hid : x.id = id := Table.key_of_get hx
    refine ⟨x, Books.mem_spendRows.2 ⟨by rw [hid]; exact hx, ?_⟩, hid⟩
    exact countsFor_iff.2 ⟨hstatus, hmandate, settledAt, hat, hperiod⟩

/-! ## Mandates stay -/

/-- The mandate a call was decided under is one of the store. -/
def Call.Decided (b : Books) (call : Call) : Prop :=
  ∀ m, call.decision.mandateId = some m → ∃ mandate, b.mandates.get m = some mandate

include C in
theorem mandate_of_decision {src : Sources} {store : σ} {now : String}
    {intent : PaymentIntent} {attestation : Option Attestation} {decision : GateDecision}
    (h : evaluateGate intent (context d src store now intent attestation) = .ok decision)
    {m : String} (hm : decision.mandateId = some m) :
    ∃ mandate, (C.books store).mandates.get m = some mandate := by
  obtain ⟨mandate, hsel, rfl⟩ := selectMandate_of_mandateId h hm
  have hheld := (selectMandate_spec C hsel).1
  rw [C.getMandate] at hheld
  exact ⟨mandate, hheld⟩

theorem decided_step (heffect : Effect C s a s' es)
    (hcalls : ∀ call ∈ s.calls, call.Decided (s.books C)) :
    ∀ call ∈ s'.calls, call.Decided (s'.books C) := by
  have hkeep : ∀ m, (∃ mandate, (s.books C).mandates.get m = some mandate) →
      ∃ mandate, (s'.books C).mandates.get m = some mandate := by
    rintro m ⟨mandate, hm⟩
    obtain ⟨mandate', hm', -⟩ := heffect.mandate C hm
    exact ⟨mandate', hm'⟩
  intro call hcall m hm
  refine hkeep m ?_
  cases heffect.mem_calls C hcall with
  | old mem => exact hcalls call mem m hm
  | executed decides automatic =>
      exact mandate_of_decision C (agentDecision_auto decides automatic).1 hm
  | approved present pending decides passes => exact mandate_of_decision C decides hm
  | @answered _ _ old _ _ waiting returned =>
      exact hcalls old (List.mem_of_getElem? (atRail_iff.1 waiting).1) m hm

end Steps

/-! ## Approved payments -/

/-- One call at a time. -/
theorem CallsChange.length_le {s : State σ} {a : Action} {es : List Event}
    {calls : List Call} {steps : List (Step (State σ) Action Event)}
    (h : CallsChange d s a es calls) (hlen : s.calls.length ≤ 1)
    (hguard : Sequential steps s a) : calls.length ≤ 1 := by
  cases h with
  | same unfinished => exact hlen
  | executed decides automatic unfinished =>
      have hidle : s.calls = [] := hguard
      simp [hidle]
  | approved present pending decides passes unfinished =>
      have hidle : s.calls = [] := hguard
      simp [hidle]
  | answered waiting returned unfinished => simpa using hlen
  | ended slot finished => exact (List.length_eraseIdx_le _ _).trans hlen

theorem sequential_run {s₀ s : State σ} {steps : List (Step (State σ) Action Event)}
    (hidle : s₀.calls = []) (hrun : (executor d).Run Sequential s₀ steps s) :
    s.calls.length ≤ 1 ∧ ∀ call ∈ s.calls, call.Decided (s.books C) := by
  refine hrun.invariant
    (fun _ s => s.calls.length ≤ 1 ∧ ∀ call ∈ s.calls, call.Decided (s.books C))
    (by simp [hidle]) ?_
  rintro steps s a s' es ⟨hlen, hcalls⟩ hguard htaken
  obtain ⟨heffect, -⟩ := step_effect C htaken
  exact ⟨(heffect.calls_change C).length_le hlen hguard, decided_step C heffect hcalls⟩

/-- An approval that settles leaves a settled row under the mandate the intent
was filed under, with nobody left to rewrite it. -/
theorem approved_row {s s' : State σ} {a : Action} {es : List Event} {call : Call}
    {result : ExecuteResult} {receipt : Receipt} {x : StoredIntent}
    (halone : s.calls.length ≤ 1) (htaken : step d s a = some (s', es))
    (hfinished : .finished call result ∈ es) (hentry : call.entry = .approve)
    (hreceipt : result.receipt = some receipt)
    (hfiled : (s.books C).intents.get call.intentId = some x) :
    call ∈ s.calls ∧ SettledRow C call.intentId receipt.settledAt x.mandateId s' := by
  obtain ⟨k, outcome, rfl, -, hwait, rfl, hcalls, hdone⟩ :=
    (step_effect C htaken).1.finished C hfinished
  obtain ⟨hslot, -⟩ := atResume_iff.1 hwait
  refine ⟨List.mem_of_getElem? hslot, ?_⟩
  cases hdone with
  | execute entry fresh intents =>
      rw [hentry] at entry
      cases entry
  | @approve y entry present intents =>
      rw [hfiled] at present
      cases present
      cases outcome with
      | error e => cases hreceipt
      | ok r =>
          obtain ⟨r, v⟩ := r
          cases hreceipt
          have hid : ((approvedUpdate (.ok (receipt, v))).apply x).id = call.intentId := by
            rw [IntentUpdate.apply_id]
            exact Table.key_of_get hfiled
          have hnone : s'.calls = [] := by
            obtain ⟨hlt, -⟩ := List.getElem?_eq_some_iff.1 hslot
            rw [hcalls, ← List.length_eq_zero_iff, List.length_eraseIdx_of_lt hlt]
            omega
          refine ⟨⟨(approvedUpdate (.ok (receipt, v))).apply x, ?_, rfl, rfl, rfl⟩,
            by simp [hnone]⟩
          rw [intents, ← hid, Table.get_put_self]

/-- **Where an approved payment counts.**  In every sequential run, a payment
approved under the mandate `m` is among the payments that `periodSpend` sums
for `m`, for as long as its period lasts, exactly when the intent was filed
under `m`. -/
theorem approved_spend_counted_iff {s₀ s s' later : State σ}
    {before after : List (Step (State σ) Action Event)} (hidle : s₀.calls = [])
    (hbefore : (executor d).Run Sequential s₀ before s)
    {a : Action} {es : List Event} (hsettles : (executor d).step s a = some (s', es))
    {call : Call} {result : ExecuteResult} {receipt : Receipt} {m : String}
    (hfinished : .finished call result ∈ es) (hentry : call.entry = .approve)
    (hreceipt : result.receipt = some receipt) (hm : call.decision.mandateId = some m)
    {x : StoredIntent} (hfiled : d.store.getIntent s.world.store call.intentId = some x)
    (hafter : (executor d).Run Sequential s' after later) :
    ∃ mandate, d.store.getMandate later.world.store m = some mandate ∧
      ∀ now start, periodStart now mandate.period = .ok start →
        strLt receipt.settledAt start = false →
        d.store.periodSpend later.world.store m now =
            .ok (((later.books C).spendRows m start).map priorSpend) ∧
          ((∃ y ∈ (later.books C).spendRows m start, y.id = call.intentId) ↔
            x.mandateId = some m) := by
  have htaken : step d s a = some (s', es) := hsettles
  obtain ⟨halone, hdecided⟩ := sequential_run C hidle hbefore
  rw [C.getIntent] at hfiled
  obtain ⟨hmem, hrow⟩ := approved_row C halone htaken hfinished hentry hreceipt hfiled
  -- the mandate of the decision is stored, and no step removes it
  have hmandate : ∃ mandate, (later.books C).mandates.get m = some mandate := by
    refine (hafter.invariant
      (fun _ s => ∃ mandate, (s.books C).mandates.get m = some mandate) ?_ ?_)
    · obtain ⟨mandate, hheld⟩ := hdecided call hmem m hm
      obtain ⟨mandate', hheld', -⟩ := (step_effect C htaken).1.mandate C hheld
      exact ⟨mandate', hheld'⟩
    · rintro steps s a s' es ⟨mandate, hheld⟩ _ hstep
      obtain ⟨mandate', hheld', -⟩ := (step_effect C hstep).1.mandate C hheld
      exact ⟨mandate', hheld'⟩
  obtain ⟨mandate, hheld⟩ := hmandate
  refine ⟨mandate, by rw [C.getMandate]; exact hheld, ?_⟩
  intro now start hstart hperiod
  refine ⟨?_, (hrow.run C hafter).counted_iff C hperiod⟩
  rw [C.periodSpend, Books.periodSpend,
    show (C.books later.world.store).mandates.get m = some mandate from hheld]
  simp only [hstart]
  rfl

/-! ## Two runs -/

namespace Sample

/-- A payment to a new payee, which the gate leaves to the operator. -/
def payNewcomer (id : String) (amount : JsNumber) : Action :=
  .execute noon {} { intent id amount with payee := "newco" } none

def approves (id : String) : Action := .approve noon {} id "known vendor" false

/-- The books before any mandate was granted. -/
def unmandated : State Books := deploy "key" { books with mandates := Table.empty }

end Sample

/-- An intent filed and approved under one mandate. -/
theorem approved_spend_counted_same_mandate :
    ∃ before, ∃ s s' : State Books, ∃ es call result receipt, ∃ x : StoredIntent,
    (executor Sample.deps).Run Sequential Sample.start before s ∧
    (executor Sample.deps).step s (.resume 0) = some (s', es) ∧
    .finished call result ∈ es ∧ call.decision.mandateId = some "m" ∧
    result.receipt = some receipt ∧
    Sample.deps.store.getIntent s.world.store call.intentId = some x ∧
    ∃ mandate, Sample.deps.store.getMandate s'.world.store "m" = some mandate ∧
      ∀ now start, periodStart now mandate.period = .ok start →
        strLt receipt.settledAt start = false →
        Sample.deps.store.periodSpend s'.world.store "m" now =
            .ok (((s'.books (d := Sample.deps) memoryContract).spendRows "m" start).map
              priorSpend) ∧
          ((∃ y ∈ (s'.books (d := Sample.deps) memoryContract).spendRows "m" start,
            y.id = call.intentId) ↔ x.mandateId = some "m") := by
  obtain ⟨before, s, hrun, hfound⟩ := System.exists_run (executor Sample.deps)
    Sequential Sample.start
    [Sample.payNewcomer "a" 40, Sample.approves "a", Sample.settles 0 "a" 40]
    (fun _ s => ((executor Sample.deps).step s (.resume 0)).any fun r => r.2.any fun e =>
      match e with
      | .finished call result =>
          decide (call.entry = .approve ∧ call.decision.mandateId = some "m") &&
            (result.receipt.isSome &&
              (Sample.deps.store.getIntent s.world.store call.intentId).isSome)
      | _ => false) (by decide +kernel)
  obtain ⟨⟨s', es⟩, hsettles, hevents⟩ := (Option.any_eq_true _ _).1 hfound
  obtain ⟨e, he, hcond⟩ := List.any_eq_true.1 hevents
  cases e with
  | finished call result =>
      simp only [Bool.and_eq_true, decide_eq_true_eq, Option.isSome_iff_exists] at hcond
      obtain ⟨⟨hentry, hm⟩, ⟨receipt, hreceipt⟩, x, hx⟩ := hcond
      exact ⟨before, s, s', es, call, result, receipt, x, hrun, hsettles, he, hm, hreceipt, hx,
        approved_spend_counted_iff (d := Sample.deps) memoryContract rfl hrun hsettles he hentry
          hreceipt hm hx .start⟩
  | _ => cases hcond

/-- Parked with no mandate in sight, approved after the grant of `m`: the gate
decides under `m`, the payment settles, and `m` has spent nothing. -/
theorem approved_spend_uncounted : ∃ steps s,
    (executor Sample.deps).Run Sequential Sample.unmandated steps s ∧
      ((events steps).filterMap fun e =>
        match e with
        | .finished call result => some (call.decision.mandateId, result.status)
        | _ => none) = [(some "m", .settled)] ∧
      (Sample.deps.store.getIntent s.world.store "a").map
        (fun x => (x.status, x.settledAt)) = some (.settled, some Sample.noon) ∧
      Sample.deps.store.periodSpend s.world.store "m" Sample.noon = .ok [] := by
  obtain ⟨steps, s, hrun, hids⟩ := System.exists_run (executor Sample.deps)
    Sequential Sample.unmandated
    [Sample.pay "a" 40, .grantMandate Sample.noon Sample.mandate, Sample.approves "a",
      Sample.settles 0 "a" 40, .resume 0]
    (fun steps s => decide (((events steps).filterMap fun e =>
        match e with
        | .finished call result => some (call.decision.mandateId, result.status)
        | _ => none) = [(some "m", .settled)] ∧
      (Sample.deps.store.getIntent s.world.store "a").map
        (fun x => (x.status, x.settledAt)) = some (.settled, some Sample.noon) ∧
      (Sample.deps.store.periodSpend s.world.store "m" Sample.noon).toOption = some []))
    (by decide +kernel)
  obtain ⟨hfinished, hstored, hspend⟩ := of_decide_eq_true hids
  refine ⟨steps, s, hrun, hfinished, hstored, ?_⟩
  cases h : Sample.deps.store.periodSpend s.world.store "m" Sample.noon with
  | ok spend =>
      rw [h] at hspend
      cases hspend
      rfl
  | error e =>
      rw [h] at hspend
      cases hspend

end AgentWorth
