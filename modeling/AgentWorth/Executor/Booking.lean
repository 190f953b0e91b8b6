import AgentWorth.Executor.Rows
import AgentWorth.Executor.SettleOnce

/-!
# Booking settled money

One `try` block holds the rail call and everything that books its receipt.  A
throw after the rail has returned is recorded as a failed payment, although the
money has moved.  While the log is in step with the store there are two such
throws: the store refuses the receipt, and `verifyReceipt` throws.
-/

namespace AgentWorth

open AgentWorth.Js AgentWorth.Lib

variable {σ : Type} {d : ExecutorDeps σ} (C : Contract d.store)

/-- The store takes the receipt and `verifyReceipt` answers. -/
def Bookable (d : ExecutorDeps σ) (store : σ) (receipt : Receipt)
    (verified : Except String Bool) : Prop :=
  (d.store.insertReceipt store receipt).isOk = true ∧ verified.isOk = true

/-- The id of a call is still fresh, or still pending, for the call to file its
result. -/
def Fileable (d : ExecutorDeps σ) (store : σ) (call : Call) : Prop :=
  match call.entry with
  | .execute => d.store.getIntent store call.intentId = none
  | .approve =>
      (d.store.getIntent store call.intentId).any (fun x => x.status == .pending) = true

instance (store : σ) (call : Call) : Decidable (Fileable d store call) := by
  unfold Fileable
  cases call.entry <;> exact inferInstance

/-- What a settled receipt leaves: after `settle` it is stored, and when the
call has completed the intent is settled with it and counts against its
mandate; `settle` recorded no failure. -/
structure MoneyKept (s settled completed : State σ) (call : Call) (receipt : Receipt) :
    Prop where
  stored : d.store.getReceipt settled.world.store receipt.id = some (C.savedReceipt receipt)
  booked : ∃ x, d.store.getIntent completed.world.store call.intentId = some x ∧
    x.status = .settled ∧ x.receiptId = some receipt.id ∧
    ∀ m start, x.mandateId = some m → strLt receipt.settledAt start = false →
      x ∈ (completed.books C).spendRows m start
  unfailed : ∀ e ∈ settled.world.audit.entries.drop s.world.audit.entries.length,
    e.type ≠ .paymentFailed

/-! ## The settle step -/

section Settle

variable {receipt : Receipt} {verified : Except String Bool} {w : World σ}

private theorem record_synced (type : AuditEventType) (payload : JsValue) (ts : String)
    (hobject : payload.isObject = true) (hsync : Synced C w) :
    ∃ w' entry, record d type payload ts w = .ok () w' ∧
      Synced C w' ∧ w'.audit.entries = w.audit.entries ++ [entry] ∧ entry.type = type := by
  obtain ⟨w', hrec⟩ := record_total C type ts hobject hsync
  have h := record_ok C hrec
  obtain ⟨entry, hentries, htype, -⟩ := h.entries
  exact ⟨w', entry, hrec, h.synced hsync, hentries, htype⟩

/-- A throw in the `try` block is recorded as a failed payment. -/
private theorem settleFailed_synced (intent : PaymentIntent) (now error : String)
    (hsync : Synced C w) :
    ∃ w' entry, settleFailed d intent now error w = .ok (.error error) w' ∧
      w'.audit.entries = w.audit.entries ++ [entry] ∧ entry.type = .paymentFailed := by
  obtain ⟨w', entry, hrec, -, hentries, htype⟩ := record_synced C .paymentFailed
    (failedPayload intent error) now rfl hsync
  refine ⟨w', entry, ?_, hentries, htype⟩
  unfold settleFailed
  simp only [bind, EStateM.bind, hrec]
  rfl

theorem settleReturned_ok (intent : PaymentIntent) (now : String) (hsync : Synced C w)
    (h : Bookable d w.store receipt verified) :
    ∃ v w' entries, settleReturned d intent now receipt verified w = .ok (.ok (receipt, v)) w' ∧
      w'.audit.entries = w.audit.entries ++ entries ∧
      ∀ e ∈ entries, e.type ≠ .paymentFailed := by
  obtain ⟨hins, hver⟩ := h
  cases hstore : d.store.insertReceipt w.store receipt with
  | error e => simp [hstore, Except.isOk, Except.toBool] at hins
  | ok store =>
      cases verified with
      | error e => cases hver
      | ok v =>
          have hb := C.insertReceipt hstore
          have hstored : Synced C { w with store := store } := hsync.write C (by rw [hb]; rfl)
          obtain ⟨w₁, e₁, hrec₁, hsync₁, hes₁, ht₁⟩ := record_synced C .paymentSettled
            (settledPayload intent receipt) receipt.settledAt rfl hstored
          obtain ⟨w₂, e₂, hrec₂, -, hes₂, ht₂⟩ := record_synced C .paymentVerified
            (verifiedPayload intent receipt v) receipt.settledAt rfl hsync₁
          refine ⟨v, w₂, [e₁, e₂], ?_, by rw [hes₂, hes₁]; simp, ?_⟩
          · rw [settleReturned_eq]
            simp only [book, bind, EStateM.bind, write, hstore, hrec₁, eval, hrec₂, pure,
              EStateM.pure]
          · intro e he
            simp only [List.mem_cons, List.not_mem_nil, or_false] at he
            rcases he with rfl | rfl
            · simp [ht₁]
            · simp [ht₂]

private theorem settleReturned_failed (intent : PaymentIntent) (now : String) (hsync : Synced C w)
    (h : ¬ Bookable d w.store receipt verified) :
    ∃ e w' entries, settleReturned d intent now receipt verified w = .ok (.error e) w' ∧
      w'.audit.entries = w.audit.entries ++ entries ∧
      ∃ e ∈ entries, e.type = .paymentFailed := by
  rw [settleReturned_eq]
  cases hstore : d.store.insertReceipt w.store receipt with
  | error e =>
      obtain ⟨w', entry, hfail, hes, ht⟩ := settleFailed_synced C intent now e hsync
      refine ⟨e, w', [entry], ?_, hes, entry, List.mem_singleton.2 rfl, ht⟩
      simp only [book, bind, EStateM.bind, write, hstore, hfail]
  | ok store =>
      cases verified with
      | ok v => exact absurd ⟨by rw [hstore]; rfl, rfl⟩ h
      | error e =>
          have hb := C.insertReceipt hstore
          have hstored : Synced C { w with store := store } := hsync.write C (by rw [hb]; rfl)
          obtain ⟨w₁, e₁, hrec₁, hsync₁, hes₁, -⟩ := record_synced C .paymentSettled
            (settledPayload intent receipt) receipt.settledAt rfl hstored
          obtain ⟨w', entry, hfail, hes, ht⟩ := settleFailed_synced C intent now e
            hsync₁
          refine ⟨e, w', [e₁, entry], ?_, by rw [hes, hes₁]; simp, entry, by simp, ht⟩
          simp only [book, bind, EStateM.bind, write, hstore, hrec₁, eval, hfail]

end Settle

/-! ## The completing step -/

/-- A call that settled and can be filed is filed as settled, under its
receipt. -/
private theorem resume_settled {s s' : State σ} {k : Nat} (call : Call) {receipt : Receipt}
    {v : Bool} {es : List Event} (hsound : call.Sound)
    (hwait : s.calls[k]? = some { call with stage := .settled (.ok (receipt, v)) })
    (hfile : Fileable d s.world.store call)
    (htaken : step d s (.resume k) = some (s', es)) :
    ∃ x, (s'.books C).intents.get call.intentId = some x ∧ x.status = .settled ∧
      x.receiptId = some receipt.id ∧ x.settledAt = some receipt.settledAt := by
  let done : Call := { call with stage := .settled (.ok (receipt, v)) }
  have hresume : atResume s k = some (done, .ok (receipt, v)) := atResume_iff.2 ⟨hwait, rfl⟩
  obtain ⟨n, -, hn⟩ := hsound.amount
  have hfinishable : done.Finishable (s.books C) := by
    refine ⟨hsound.named, ?_⟩
    unfold Fileable at hfile
    rw [hsound.named] at hfile
    show match call.entry with
      | .execute => (s.books C).intents.get call.intent.id = none ∧ call.intent.amount ≠ .nan
      | .approve => ∃ x, (s.books C).intents.get call.intent.id = some x
    cases hentry : call.entry with
    | execute =>
        rw [hentry, C.getIntent] at hfile
        exact ⟨hfile, by simp [hn]⟩
    | approve =>
        rw [hentry, C.getIntent] at hfile
        obtain ⟨x, hx, -⟩ := (Option.any_eq_true _ _).1 hfile
        exact ⟨x, hx⟩
  obtain ⟨store, hfiling⟩ := filing_ok C (.ok (receipt, v)) hfinishable
  simp only [step, hresume, Option.map_some, Option.some.injEq] at htaken
  rcases finish_cases d done (.ok (receipt, v)) s.world with
    ⟨e, herror, -⟩ | ⟨store', w', hstore', hcount, hfin⟩
  · rw [hfiling] at herror
    cases herror
  · rw [hfin] at htaken
    cases htaken
    rw [hfiling] at hstore'
    cases hstore'
    have hsame := (recordOutcome_spec C hcount).1
    show ∃ x, (C.books w'.store).intents.get call.intentId = some x ∧ _
    rw [hsame.intents]
    unfold filing at hfiling
    cases hentry : done.entry with
    | execute =>
        rw [hentry] at hfiling
        obtain ⟨-, hb⟩ := C.insertIntent_spec hfiling
        have hkey : (C.saved (executedIntent done (.ok (receipt, v)))).id = call.intentId := by
          rw [C.saved_id, executedIntent_id]
          exact hsound.named.symm
        refine ⟨C.saved (executedIntent done (.ok (receipt, v))), ?_, ?_, ?_, ?_⟩
        · rw [show C.books store = _ from hb, ← hkey, Table.get_put_self]
        · rw [C.saved_status]
          rfl
        · rw [C.saved_receiptId]
          rfl
        · rw [C.saved_settledAt]
          rfl
    | approve =>
        rw [hentry] at hfiling
        obtain ⟨y, hy, hb⟩ := C.updateIntent_spec hfiling
        have hkey : ((approvedUpdate (.ok (receipt, v))).apply y).id = call.intentId := by
          rw [IntentUpdate.apply_id]
          exact Table.key_of_get hy
        refine ⟨(approvedUpdate (.ok (receipt, v))).apply y, ?_, rfl, rfl, rfl⟩
        rw [show C.books store = _ from hb, ← hkey, Table.get_put_self]

/-- **Settled money is kept, exactly when it can be booked.**  In every run, a
rail returns to a call, other calls go on, and the call completes. -/
theorem settled_money_kept_iff {G : Guard (State σ) Action Event}
    {s₀ s settled resumed completed : State σ}
    {before between : List (Step (State σ) Action Event)}
    (hidle : s₀.calls = []) (hsync : Synced C s₀.world)
    (hbefore : (executor d).Run G s₀ before s)
    {k : Nat} {call : Call} {provider : PaymentProvider} {receipt : Receipt}
    {verified : Except String Bool} {es : List Event}
    (hwait : atRail s k = some (call, provider))
    (hsettles : (executor d).step s (.railReturns k receipt verified) = some (settled, es))
    (hbetween : (executor d).Run G settled between resumed)
    {k' : Nat} {done : Call} {es' : List Event}
    (hdone : settled.calls[k]? = some done) (hstill : resumed.calls[k']? = some done)
    (hfile : Fileable d resumed.world.store done)
    (hcompletes : (executor d).step resumed (.resume k') = some (completed, es')) :
    MoneyKept C s settled completed done (issuedBy provider receipt) ↔
      Bookable d s.world.store (issuedBy provider receipt) verified := by
  obtain ⟨hsound, hsynced⟩ := inFlight_run C (by simp [hidle]) hsync hbefore
  obtain ⟨hk, hstage⟩ := atRail_iff.1 hwait
  obtain ⟨hlt, -⟩ := List.getElem?_eq_some_iff.1 hk
  have hcall : call.Sound := hsound call (List.mem_of_getElem? hk)
  have htaken : step d s (.railReturns k receipt verified) = some (settled, es) := hsettles
  have hstep : s.answered k call (.railSettled call provider receipt)
      (settleReturned d call.intent call.now (issuedBy provider receipt) verified s.world) =
        (settled, es) := by
    have h := htaken
    simp only [step, hwait, Option.map_some, Option.some.injEq] at h
    exact h
  by_cases hbook : Bookable d s.world.store (issuedBy provider receipt) verified
  · refine iff_of_true ?_ hbook
    obtain ⟨v, w', entries, hret, hentries, hclean⟩ := settleReturned_ok C call.intent
      call.now hsynced hbook
    rw [hret] at hstep
    cases hstep
    have hdone' : done = { call with stage := .settled (.ok (issuedBy provider receipt, v)) } := by
      have h : (s.calls.set k
          { call with stage := .settled (.ok (issuedBy provider receipt, v)) })[k]? =
            some done := hdone
      rw [List.getElem?_set_self hlt] at h
      exact (Option.some.inj h).symm
    subst hdone'
    refine ⟨?_, ?_, ?_⟩
    · obtain ⟨hbooks, -⟩ := step_effect C htaken
      have hreceipts : (C.books w'.store).receipts =
          receiptsAfter C s.world.store (issuedBy provider receipt) := by
        rcases hbooks.receipts C with ⟨hnone, -⟩ | ⟨call', p, r, rest, heq, -, hafter⟩
        · exact absurd (List.mem_singleton.2 rfl) (hnone call provider receipt)
        · cases heq
          exact hafter
      obtain ⟨hins, -⟩ := hbook
      rw [C.getReceipt]
      show (C.books w'.store).receipts.get _ = _
      rw [hreceipts, receiptsAfter]
      split
      · rw [← C.savedReceipt_id, Table.get_put_self]
      · next herror => simp [herror, Except.isOk, Except.toBool] at hins
    · obtain ⟨x, hx, hstatus, hid, hat⟩ := resume_settled C
        { call with stage := .settled (.ok (issuedBy provider receipt, v)) }
        ⟨hcall.named, hcall.amount⟩ hstill hfile hcompletes
      refine ⟨x, by rw [C.getIntent]; exact hx, hstatus, hid, ?_⟩
      intro m start hm hstart
      refine Books.mem_spendRows.2 ⟨?_, countsFor_iff.2 ⟨hstatus, hm, _, hat, hstart⟩⟩
      rw [Table.key_of_get hx]
      exact hx
    · show ∀ e ∈ w'.audit.entries.drop s.world.audit.entries.length, _
      rw [hentries, List.drop_left]
      exact hclean
  · refine iff_of_false ?_ hbook
    rintro ⟨-, -, hunfailed⟩
    obtain ⟨e, w', entries, hret, hentries, entry, hmem, htype⟩ := settleReturned_failed C
      call.intent call.now hsynced hbook
    rw [hret] at hstep
    cases hstep
    have hdrop : w'.audit.entries.drop s.world.audit.entries.length = entries := by
      rw [hentries, List.drop_left]
    exact hunfailed entry (hdrop ▸ hmem) htype

/-! ## Two runs -/

/-- A payment whose receipt is taken and verifies. -/
theorem settled_money_kept_verified :
    ∃ s settled completed call provider done,
      atRail s 0 = some (call, provider) ∧ settled.calls[0]? = some done ∧
      (MoneyKept (d := Sample.deps) memoryContract s settled completed done
          (issuedBy provider (Sample.receipt "a" 40)) ↔
        Bookable Sample.deps s.world.store (issuedBy provider (Sample.receipt "a" 40))
          (.ok true)) := by
  obtain ⟨before, s, hrun, hfound⟩ := System.exists_run (executor Sample.deps)
    anyStep Sample.start [Sample.pay "a" 40]
    (fun _ s => (atRail s 0).isSome &&
      ((executor Sample.deps).step s (Sample.settles 0 "a" 40)).any fun r =>
        r.1.calls[0]?.any (fun done => decide (Fileable Sample.deps r.1.world.store done)) &&
          ((executor Sample.deps).step r.1 (.resume 0)).isSome) (by decide +kernel)
  rw [Bool.and_eq_true, Option.isSome_iff_exists, Option.any_eq_true] at hfound
  obtain ⟨⟨⟨call, provider⟩, hwait⟩, ⟨settled, es⟩, hsettles, hrest⟩ := hfound
  rw [Bool.and_eq_true, Option.isSome_iff_exists, Option.any_eq_true] at hrest
  obtain ⟨⟨done, hdone, hfile⟩, ⟨completed, es'⟩, hcompletes⟩ := hrest
  exact ⟨s, settled, completed, call, provider, done, hwait, hdone,
    settled_money_kept_iff (d := Sample.deps) memoryContract rfl Sample.synced_start hrun
      hwait hsettles .start hdone hdone (of_decide_eq_true hfile) hcompletes⟩

/-- `verifyReceipt` throws after the money has moved: the intent is filed as
failed, and the log says both that it settled and that it failed. -/
theorem unverified_money_is_lost : ∃ steps s,
    (executor Sample.deps).Run anyStep Sample.start steps s ∧ s.calls.length = 0 ∧
      settledIds (events steps) = ["a"] ∧
      (Sample.deps.store.getIntent s.world.store "a").map StoredIntent.status = some .failed ∧
      s.world.audit.entries.map AuditEntry.type =
        [.gateDecision, .paymentSettled, .paymentFailed] := by
  obtain ⟨steps, s, hrun, hids⟩ := System.exists_run (executor Sample.deps)
    anyStep Sample.start
    [Sample.pay "a" 40, .railReturns 0 (Sample.receipt "a" 40) (.error "timeout"), .resume 0]
    (fun steps s => decide (s.calls.length = 0 ∧ settledIds (events steps) = ["a"] ∧
      (Sample.deps.store.getIntent s.world.store "a").map StoredIntent.status = some .failed ∧
      s.world.audit.entries.map AuditEntry.type =
        [.gateDecision, .paymentSettled, .paymentFailed])) (by decide +kernel)
  exact ⟨steps, s, hrun, of_decide_eq_true hids⟩

end AgentWorth
