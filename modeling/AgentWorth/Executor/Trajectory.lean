import AgentWorth.Evals.Process
import AgentWorth.Executor.Entries
import AgentWorth.Executor.Attribution
import AgentWorth.Executor.SettleOnce

/-!
# Process checks over the executor's own trace

A call in flight has a decision on record that let it through, so what it
settles is never a settlement without a decision or of a blocked intent.  The
checks do not see order, though: an approval that meets a halt leaves its intent
pending, and a later one may settle it.
-/

namespace AgentWorth

open AgentWorth.Js AgentWorth.Lib

variable {σ : Type} {d : ExecutorDeps σ} (C : Contract d.store)

/-- The chain records that a call for the intent met a halt. -/
def metHalt (log : List AuditEntry) (id : String) : Bool :=
  log.any fun e => e.type == .paymentHalted && e.isFor (.str id)

/-- A rail that returns a receipt does so for an intent that met no halt. -/
def answersUnhalted (s : State σ) : Action → Bool
  | .railReturns k _ _ =>
      (atRail s k).all fun r => !metHalt s.world.audit.entries r.1.intent.id
  | _ => true

/-- One call per id, and no rail returns a receipt for an intent that an earlier
call found halted. -/
def UnhaltedReceipts (d : ExecutorDeps σ) : Guard (State σ) Action Event := fun steps s a =>
  OneCallPerId d steps s a ∧ answersUnhalted s a = true

instance (steps : List (Step (State σ) Action Event)) (s : State σ) (a : Action) :
    Decidable (UnhaltedReceipts d steps s a) :=
  inferInstanceAs (Decidable (_ ∧ _))

/-! ## Entries about an intent -/

theorem isFor_str {e : AuditEntry} {id id' : String} (h : e.intentId = .str id') :
    e.isFor (.str id) = true ↔ id' = id ∧ id ≠ "" := by
  rw [isFor_iff, h]
  simp [JsValue.truthy, JsValue.isScalar]

/-- A decision on record that lets a payment of the intent through. -/
def LetThrough (log : List AuditEntry) (id : String) : Prop :=
  id ≠ "" → ∃ e ∈ decisionsFor (.str id) log, e.passes = true

theorem LetThrough.append {log : List AuditEntry} {id : String} (h : LetThrough log id)
    (later : List AuditEntry) : LetThrough (log ++ later) id := by
  intro hid
  obtain ⟨e, he, hpasses⟩ := h hid
  refine ⟨e, ?_, hpasses⟩
  rw [decisionsFor_append]
  exact List.mem_append_left _ he

/-- A recorded decision that does not block lets its intent through. -/
theorem letThrough_of_recorded {log : List AuditEntry} {entry : AuditEntry} {id : String}
    {outcome : GateOutcome} (hmem : entry ∈ log) (htype : entry.type = .gateDecision)
    (hid : entry.intentId = .str id)
    (houtcome : entry.payload.get "outcome" = outcomeCodec.encode outcome)
    (hpasses : outcome ≠ .block) : LetThrough log id := by
  intro hne
  refine ⟨entry, mem_decisionsFor.2 ⟨hmem, htype, (isFor_str hid).2 ⟨rfl, hne⟩⟩, ?_⟩
  unfold AuditEntry.passes saysBlock
  rw [Bool.not_eq_true', ← Bool.not_eq_true, JsValue.strictEq_str, houtcome,
    encode_outcome_eq_iff]
  exact hpasses

section Steps

variable {s s' : State σ} {a : Action} {es : List Event} {past : List Event}

/-- A call that starts has its decision on record. -/
theorem letThrough_step (heffect : Effect C s a s' es)
    (happends : ∃ added, s'.world.audit.entries = s.world.audit.entries ++ added)
    (hcalls : ∀ call ∈ s.calls, LetThrough s.world.audit.entries call.intent.id) :
    ∀ call ∈ s'.calls, LetThrough s'.world.audit.entries call.intent.id := by
  obtain ⟨added, hadded⟩ := happends
  have hold : ∀ call ∈ s.calls, LetThrough s'.world.audit.entries call.intent.id := by
    intro call hcall
    rw [hadded]
    exact (hcalls call hcall).append added
  intro call hcall
  cases heffect.mem_calls C hcall with
  | old mem => exact hold call mem
  | @answered _ _ old _ _ waiting returned =>
      exact hold old (List.mem_of_getElem? (atRail_iff.1 waiting).1)
  | executed decides automatic =>
      cases heffect with
      | executeStarted runs decides' automatic' recorded calls refunds =>
          obtain ⟨entry, hentries, htype, hpayload, -⟩ := recorded.entries
          have hpasses : GateOutcome.autoExecute ≠ .block := by decide
          refine letThrough_of_recorded (by rw [hentries]; simp) htype ?_ ?_ hpasses
          · simp [AuditEntry.intentId, hpayload, stamped, agentPayload, settle]
          · simp [hpayload, stamped, agentPayload, automatic']
      | quiet same calls => exact hold _ (by rw [← calls]; exact hcall)
      | filed _ _ _ _ _ _ _ calls => exact hold _ (by rw [← calls]; exact hcall)
      | mandateChanged _ _ _ calls => exact hold _ (by rw [← calls]; exact hcall)
  | approved present pending decides passes =>
      cases heffect with
      | approveStarted runs present' pending' decides' passes' unchallenged recorded calls
          refunds =>
          obtain ⟨entry, hentries, htype, hpayload, -⟩ := recorded.entries
          rw [C.getIntent] at present
          have hkey := Table.key_of_get present
          refine letThrough_of_recorded (by rw [hentries]; simp) htype ?_ ?_ passes'
          · simp only [AuditEntry.intentId, hpayload, stamped, approvalPayload, if_true,
              JsValue.get_withMember, JsValue.get_obj_cons, String.reduceEq, if_false, settle]
            exact congrArg JsValue.str hkey.symm
          · simp [hpayload, stamped, approvalPayload]
      | quiet same calls => exact hold _ (by rw [← calls]; exact hcall)
      | refused _ _ _ _ _ calls => exact hold _ (by rw [← calls]; exact hcall)
      | mandateChanged _ _ _ calls => exact hold _ (by rw [← calls]; exact hcall)

/-- The trace of a run: calls in flight were let through, and what settled is
cleared by the process checks. -/
structure TraceInv (past : List Event) (s : State σ) : Prop where
  once : SettleOnceInv C past s
  letThrough : ∀ call ∈ s.calls, LetThrough s.world.audit.entries call.intent.id
  settled : ∀ e ∈ s.world.audit.entries, e.type = .paymentSettled →
    ∃ id, e.intentId = .str id ∧ id ∈ settledIds past ∧
      (id ≠ "" → Cleared s.world.audit.entries (.str id))

/-- The rail's answer is an event of its step. -/
theorem settledIds_of_railReturns {k : Nat} {receipt : Receipt} {verified : Except String Bool}
    {call : Call} {provider : PaymentProvider}
    (htaken : step d s (.railReturns k receipt verified) = some (s', es))
    (hwait : atRail s k = some (call, provider)) : call.intent.id ∈ settledIds es := by
  obtain ⟨⟨call', provider'⟩, hwait', heq⟩ := Option.map_eq_some_iff.1 htaken
  rw [hwait] at hwait'
  cases hwait'
  simp only [State.answered] at heq
  split at heq <;> cases heq <;> simp [settledIds]

/-- No call about a settled intent can meet a halt. -/
theorem TraceInv.unhalted {steps : List (Step (State σ) Action Event)}
    (hinv : TraceInv C past s) (hguard : OneCallPerId d steps s a) {e : AuditEntry}
    (hentry : EntryOf d s e a) (htype : e.type = .paymentHalted) {id : String}
    (hsettled : id ∈ settledIds past) : e.isFor (.str id) = false := by
  rw [← Bool.not_eq_true]
  intro hfor
  have hclosed := hinv.once.closed id hsettled
  cases hentry with
  | @halted _ _ intent _ _ _ payload _ =>
      have hid : e.intentId = .str intent.id := by
        simp [AuditEntry.intentId, payload, haltPayload]
      obtain ⟨rfl, -⟩ := (isFor_str hid).1 hfor
      obtain ⟨hfree, halone⟩ := hguard
      rw [C.getIntent] at hfree
      rcases hclosed with ⟨call, hcall, hsame, -⟩ | ⟨-, x, hx, -⟩
      · exact halone call hcall hsame
      · rw [show (C.books s.world.store).intents.get intent.id = some x from hx] at hfree
        cases hfree
  | @approvalHalted _ _ intentId _ _ x _ _ payload present pending _ =>
      have hid : e.intentId = .str intentId := by
        simp [AuditEntry.intentId, payload, haltPayload]
      obtain ⟨rfl, -⟩ := (isFor_str hid).1 hfor
      have halone := hguard (by rw [present]; simp [pending])
      rw [C.getIntent] at present
      rcases hclosed with ⟨call, hcall, hsame, -⟩ | ⟨-, y, hy, hstatus⟩
      · exact halone call hcall hsame
      · rw [show (C.books s.world.store).intents.get intentId = some y from hy] at present
        cases present
        exact hstatus pending
  | decided decided =>
      rw [decided.type_eq] at htype
      cases htype
  | approved type => rw [type] at htype; cases htype
  | settled _ type => rw [type] at htype; cases htype
  | other unhalted => exact unhalted htype

theorem trace_step {steps : List (Step (State σ) Action Event)} (hinv : TraceInv C past s)
    (hguard : UnhaltedReceipts d steps s a) (htaken : step d s a = some (s', es)) :
    TraceInv C (past ++ es) s' := by
  obtain ⟨added, hentries, hadded⟩ := entries_of_step htaken
  refine ⟨settleOnce_step C hinv.once hguard.1 htaken,
    letThrough_step C (step_effect C htaken).1 ⟨added, hentries⟩ hinv.letThrough, ?_⟩
  intro e he htype
  rw [hentries] at he
  rcases List.mem_append.1 he with hmem | hmem
  · obtain ⟨id, hid, hsettled, hcleared⟩ := hinv.settled e hmem htype
    refine ⟨id, hid, by rw [settledIds_append]; exact List.mem_append_left _ hsettled, ?_⟩
    intro hne
    obtain ⟨⟨decision, hdecision, hpasses⟩, hunhalted⟩ := hcleared hne
    rw [hentries]
    refine ⟨⟨decision, by rw [decisionsFor_append]; exact List.mem_append_left _ hdecision,
      hpasses⟩, ?_⟩
    intro halt hhalt hhaltType
    rcases List.mem_append.1 hhalt with hin | hin
    · exact hunhalted halt hin hhaltType
    · exact hinv.unhalted C hguard.1 (hadded halt hin) hhaltType hsettled
  · cases hadded e hmem with
    | @settled k receipt verified call provider waiting type payload =>
        have hid : e.intentId = .str call.intent.id := by
          simp [AuditEntry.intentId, payload, settledPayload]
        refine ⟨call.intent.id, hid, by
          rw [settledIds_append]
          exact List.mem_append_right _ (settledIds_of_railReturns htaken waiting), ?_⟩
        intro hne
        have hunmet := hguard.2
        simp only [answersUnhalted, waiting, Option.all_some, Bool.not_eq_true', metHalt,
          List.any_eq_false] at hunmet
        have hcall := hinv.letThrough call (List.mem_of_getElem? (atRail_iff.1 waiting).1)
        rw [hentries]
        refine ⟨(hcall.append added) hne, ?_⟩
        intro halt hhalt hhaltType
        rcases List.mem_append.1 hhalt with hin | hin
        · simpa [hhaltType] using hunmet halt hin
        · exfalso
          cases hadded halt hin with
          | settled _ type' => rw [type'] at hhaltType; cases hhaltType
          | other unhalted => exact unhalted hhaltType
    | decided decided =>
        rw [decided.type_eq] at htype
        cases htype
    | halted type => rw [type] at htype; cases htype
    | approvalHalted type => rw [type] at htype; cases htype
    | approved type => rw [type] at htype; cases htype
    | other _ _ unsettled => exact absurd htype unsettled

end Steps

/-! ## Runs -/

/-- **The process checks accept every run** in which no intent settles that an
earlier call found halted, whatever its calls, rails and operator controls. -/
theorem honest_runs_pass {s₀ s : State σ} {steps : List (Step (State σ) Action Event)}
    (hidle : s₀.calls = []) (hsync : Synced C s₀.world) (hempty : s₀.world.audit.entries = [])
    (hrun : (executor d).Run (UnhaltedReceipts d) s₀ steps s) :
    (checkTrajectory s.world.audit.entries).blockViolations = [] := by
  have hinv : TraceInv C (events steps) s := by
    refine hrun.invariant (fun steps s => TraceInv C (events steps) s) ?_ ?_
    · refine ⟨⟨hsync, ?_, ?_, List.nodup_nil, ?_⟩, ?_, ?_⟩
      · rw [hidle]
        exact List.nodup_nil
      · rw [hidle]
        exact fun c hc => absurd hc List.not_mem_nil
      · exact fun id hid => absurd hid List.not_mem_nil
      · rw [hidle]
        exact fun c hc => absurd hc List.not_mem_nil
      · rw [hempty]
        exact fun e he => absurd he List.not_mem_nil
    · intro steps s a s' es ih hguard htaken
      rw [events_snoc]
      exact trace_step C ih hguard htaken
  rw [blockViolations_nil_iff]
  intro e he htype htruthy
  obtain ⟨id, hid, -, hcleared⟩ := hinv.settled e he htype
  rw [hid] at htruthy ⊢
  exact hcleared (by simpa [JsValue.truthy] using htruthy)

/-- A payment approved after one approval met a halt on another, and the halt
was lifted. -/
theorem halted_approval_left_alone : ∃ steps s,
    (executor Sample.deps).Run (UnhaltedReceipts Sample.deps) Sample.start steps s ∧
      settledIds (events steps) = ["b"] ∧ metHalt s.world.audit.entries "a" = true ∧
      (checkTrajectory s.world.audit.entries).blockViolations = [] := by
  obtain ⟨steps, s, hrun, hfound⟩ := System.exists_run (executor Sample.deps)
    (UnhaltedReceipts Sample.deps) Sample.start
    [Sample.payNewcomer "a" 40, .engageKillSwitch, Sample.approves "a", .disengageKillSwitch,
      Sample.pay "b" 40, Sample.settles 0 "b" 40, .resume 0]
    (fun steps s => decide (settledIds (events steps) = ["b"] ∧
      metHalt s.world.audit.entries "a" = true)) (by decide +kernel)
  obtain ⟨hsettled, hmet⟩ := of_decide_eq_true hfound
  exact ⟨steps, s, hrun, hsettled, hmet,
    honest_runs_pass memoryContract rfl Sample.synced_start rfl hrun⟩

/-- The halt is lifted and the operator approves again: the payment is one the
gate let through, and the checks convict it. -/
theorem released_approval_is_convicted : ∃ steps s,
    (executor Sample.deps).Run (fun steps s a => Sequential steps s a ∧
        OneCallPerId Sample.deps steps s a) Sample.start steps s ∧
      settledIds (events steps) = ["a"] ∧
      ((checkTrajectory s.world.audit.entries).blockViolations.map fun v =>
        (v.rule, v.detail)) =
        [(.settleWhileHalted, "intent a settled despite a halt (kill switch / breaker)")] := by
  obtain ⟨steps, s, hrun, hfound⟩ := System.exists_run (executor Sample.deps)
    (fun steps s a => Sequential steps s a ∧ OneCallPerId Sample.deps steps s a) Sample.start
    [Sample.payNewcomer "a" 40, .engageKillSwitch, Sample.approves "a", .disengageKillSwitch,
      Sample.approves "a", Sample.settles 0 "a" 40, .resume 0]
    (fun steps s => decide (settledIds (events steps) = ["a"] ∧
      ((checkTrajectory s.world.audit.entries).blockViolations.map fun v =>
        (v.rule, v.detail)) =
        [(.settleWhileHalted, "intent a settled despite a halt (kill switch / breaker)")]))
    (by decide +kernel)
  obtain ⟨hsettled, hviolations⟩ := of_decide_eq_true hfound
  exact ⟨steps, s, hrun, hsettled, hviolations⟩

end AgentWorth
