import AgentWorth.Compliance.Decisions
import AgentWorth.Executor.Attribution
import AgentWorth.Executor.InFlight
import AgentWorth.Executor.Smurfing

/-!
# The operator-confirmed bucket

The report counts the approvals whose re-run gate says `auto_execute`; an
operator confirms what the gate still parks.  So the bucket is that of the
approved settlements only where there are neither.
-/

namespace AgentWorth

open AgentWorth.Js AgentWorth.Lib

variable {σ : Type} {d : ExecutorDeps σ}

/-! ## What the bucket is for -/

/-- The intent of an approval that settled and was decided in the period. -/
def approvedSettlement (period : ReportPeriod) : Event → Option PaymentIntent
  | .finished call result =>
      if call.entry = .approve ∧ result.status = .settled ∧ period.inPeriod call.now = true then
        some call.intent
      else none
  | _ => none

/-- The intents that `approve` settled, each once. -/
def confirmedIntents (period : ReportPeriod) (steps : List (Step (State σ) Action Event)) :
    List PaymentIntent :=
  ((events steps).filterMap (approvedSettlement period)).dedup

/-! ## Steps that the bucket gets wrong -/

/-- An approval in the period whose re-run gate says `auto_execute`. -/
def approvesAutomatically (d : ExecutorDeps σ) (period : ReportPeriod) (s : State σ) :
    Action → Bool
  | .approve now src intentId _ _ =>
      period.inPeriod now && (haltReason d s.world.store).isNone &&
        (d.store.getIntent s.world.store intentId).any fun x =>
          x.status == .pending &&
            (evaluateGate x.intent
              (context d src s.world.store now x.intent none)).toOption.any
                (·.outcome == .autoExecute)
  | _ => false

/-- An approval in the period that has settled and is about to be filed. -/
def settlesApproval (d : ExecutorDeps σ) (period : ReportPeriod) (s : State σ) : Action → Bool
  | .resume k =>
      (atResume s k).any fun r =>
        decide (r.1.entry = .approve) && r.2.isOk && period.inPeriod r.1.now &&
          (d.store.getIntent s.world.store r.1.intentId).isSome
  | _ => false

/-! ## One step -/

section Steps

variable (period : ReportPeriod) {s s' : State σ} {a : Action} {es : List Event}

theorem appended_eq (added : List AuditEntry)
    (h : s'.world.audit.entries = s.world.audit.entries ++ added) :
    appended ⟨s, a, es, s'⟩ = added := by
  show s'.world.audit.entries.drop s.world.audit.entries.length = added
  rw [h, List.drop_left]

/-- The one entry of a recorded approval counts if its gate says `auto_execute`. -/
theorem any_approval (C : Contract d.store) {now intentId rationale : String}
    {acknowledged : Bool} {decision : GateDecision} {w w' : World σ}
    (h : Recorded C .gateDecision (approvalPayload intentId rationale acknowledged decision) now
      w w') :
    ∃ e, w'.audit.entries = w.audit.entries ++ [e] ∧
      classified period .operatorConfirmed e =
        (period.inPeriod now && decision.outcome == .autoExecute) := by
  obtain ⟨e, hentries, htype, hpayload, hts⟩ := h.entries
  refine ⟨e, hentries, ?_⟩
  unfold classified
  rw [hts, htype, hpayload, disposition_approvalPayload, beq_self_eq_true, Bool.and_true]
  cases decision.outcome <;> rfl

/-- **What an approval records** for the bucket. -/
theorem approve_confirms (C : Contract d.store) {src : Sources}
    {now intentId rationale : String} {acknowledged : Bool} (hsync : Synced C s.world)
    (heq : s.started (approve d src now intentId rationale acknowledged s.world) = (s', es)) :
    (appended ⟨s, .approve now src intentId rationale acknowledged, es, s'⟩).any
        (classified period .operatorConfirmed) =
      approvesAutomatically d period s (.approve now src intentId rationale acknowledged) := by
  have hworld := started_world s (approve d src now intentId rationale acknowledged s.world)
  rw [heq] at hworld
  have hnothing : s'.world.audit.entries = s.world.audit.entries →
      (appended ⟨s, .approve now src intentId rationale acknowledged, es, s'⟩).any
        (classified period .operatorConfirmed) = false := by
    intro h
    rw [appended_eq [] (by rw [h, List.append_nil]), List.any_nil]
  have hdecision : ∀ {x : StoredIntent} {decision : GateDecision} {w : World σ},
      d.store.getIntent s.world.store intentId = some x → x.status = .pending →
      haltReason d s.world.store = none →
      evaluateGate x.intent (context d src s.world.store now x.intent none) = .ok decision →
      record d .gateDecision (approvalPayload intentId rationale acknowledged decision) now
        s.world = .ok () w →
      s'.world.audit = w.audit →
      (appended ⟨s, .approve now src intentId rationale acknowledged, es, s'⟩).any
          (classified period .operatorConfirmed) =
        approvesAutomatically d period s (.approve now src intentId rationale acknowledged) := by
    intro x decision w hpresent hpending hruns hdecides hrecord haudit
    obtain ⟨e, hentries, hcounts⟩ := any_approval period C (record_ok C hrecord)
    rw [appended_eq [e] (by rw [haudit, hentries]), List.any_cons, List.any_nil,
      Bool.or_false, hcounts]
    simp [approvesAutomatically, hruns, hpresent, hpending, hdecides, Except.toOption]
  have hrun := approve_run d src now intentId rationale acknowledged s.world
  generalize approve d src now intentId rationale acknowledged s.world = r at hrun hworld
  cases hrun with
  | missing absent =>
      rw [hnothing (by rw [hworld]; rfl)]
      simp [approvesAutomatically, absent]
  | settledAlready present closed =>
      rw [hnothing (by rw [hworld]; rfl)]
      simp [approvesAutomatically, present, closed]
  | haltUnrecorded present pending halts recorded =>
      exact absurd hsync (record_error C rfl recorded).2.1
  | halted present pending halts recorded =>
      obtain ⟨e, hentries, htype, -⟩ := (record_ok C recorded).entries
      rw [appended_eq [e] (by rw [hworld]; exact hentries)]
      simp [approvesAutomatically, halts, classified, htype]
  | undecided present pending runs decides =>
      rw [hnothing (by rw [hworld]; rfl)]
      simp [approvesAutomatically, present, decides, Except.toOption]
  | unrecorded present pending runs decides recorded =>
      exact absurd hsync (record_error C rfl recorded).2.1
  | unblocked present pending runs decides recorded blocks updated =>
      exact hdecision present pending runs decides recorded (by rw [hworld]; rfl)
  | blocked present pending runs decides recorded blocks updated counted =>
      cases counted
      exact hdecision present pending runs decides recorded (by rw [hworld]; rfl)
  | challenged present pending runs decides recorded passes challenges =>
      exact hdecision present pending runs decides recorded (by rw [hworld]; rfl)
  | authorized present pending runs decides recorded passes unchallenged =>
      exact hdecision present pending runs decides recorded (by rw [hworld]; rfl)

/-- Only an approval records for the bucket. -/
theorem EntryOf.unconfirmed {e : AuditEntry} (h : EntryOf d s e a)
    (hother : ∀ now src intentId rationale acknowledged,
      a ≠ .approve now src intentId rationale acknowledged) :
    classified period .operatorConfirmed e = false := by
  have hundecided : e.type ≠ .gateDecision → classified period .operatorConfirmed e = false := by
    intro h
    simp [classified, h]
  cases h with
  | halted type => exact hundecided (by simp [type])
  | decided decided =>
      obtain ⟨decision, inputs, -, -, hpayload⟩ := decided.recorded
      unfold classified
      rw [hpayload, disposition_agentPayload]
      cases decision.outcome <;> simp [GateOutcome.disposition]
  | approvalHalted => exact absurd rfl (hother _ _ _ _ _)
  | approved => exact absurd rfl (hother _ _ _ _ _)
  | settled _ type => exact hundecided (by simp [type])
  | other _ undecided => exact hundecided undecided

/-- **What a step records for the bucket**: the approvals that the gate would
let through by itself. -/
theorem step_confirms (C : Contract d.store) (hsync : Synced C s.world)
    (htaken : step d s a = some (s', es)) :
    (appended ⟨s, a, es, s'⟩).any (classified period .operatorConfirmed) =
      approvesAutomatically d period s a := by
  have hother : (∀ now src intentId rationale acknowledged,
      a ≠ .approve now src intentId rationale acknowledged) →
      (appended ⟨s, a, es, s'⟩).any (classified period .operatorConfirmed) = false := by
    intro hne
    obtain ⟨added, hentries, hadded⟩ := entries_of_step htaken
    rw [appended_eq added hentries, List.any_eq_false]
    intro e he
    rw [(hadded e he).unconfirmed period hne]
    exact Bool.false_ne_true
  cases a with
  | approve now src intentId rationale acknowledged =>
      exact approve_confirms period C hsync (Option.some.inj htaken)
  | _ => exact hother (by simp)

/-- The approvals that a step files as settled. -/
theorem step_settles (C : Contract d.store) (htaken : step d s a = some (s', es)) :
    es.any (fun e => (approvedSettlement period e).isSome) = settlesApproval d period s a := by
  rw [Bool.eq_iff_iff, List.any_eq_true]
  constructor
  · rintro ⟨e, he, hsettles⟩
    cases e with
    | finished call result =>
        obtain ⟨k, outcome, rfl, -, hwait, rfl, -, hfinished⟩ :=
          (step_effect C htaken).1.finished C he
        simp only [approvedSettlement] at hsettles
        split at hsettles
        · next hmet =>
            obtain ⟨hentry, hstatus, hperiod⟩ := hmet
            cases outcome with
            | error error => simp [settlementResult] at hstatus
            | ok r =>
                cases hfinished with
                | execute entry => rw [hentry] at entry; cases entry
                | approve entry present =>
                    rw [State.books, ← C.getIntent] at present
                    simp [settlesApproval, hwait, hentry, hperiod, present, Except.isOk,
                      Except.toBool]
        · cases hsettles
    | _ => cases hsettles
  · intro hsettles
    cases a with
    | resume k =>
        obtain ⟨⟨call, outcome⟩, hwait, heq⟩ := Option.map_eq_some_iff.1 htaken
        simp only [settlesApproval, hwait, Option.any_some, Bool.and_eq_true,
          decide_eq_true_eq] at hsettles
        obtain ⟨⟨⟨hentry, hok⟩, hperiod⟩, hpresent⟩ := hsettles
        obtain ⟨x, hx⟩ := Option.isSome_iff_exists.1 hpresent
        cases outcome with
        | error error => cases hok
        | ok r =>
            rcases finish_cases d call (.ok r) s.world with ⟨e, hfile, -⟩ | ⟨store, w', -, -, hfin⟩
            · rw [filing, hentry] at hfile
              rw [C.getIntent] at hx
              obtain ⟨store, hstore⟩ := C.updateIntent_found s.world.store call.intentId
                (approvedUpdate (.ok r)) x hx (by simp [approvedUpdate])
              rw [hstore] at hfile
              cases hfile
            · simp only [hfin, State.conclude] at heq
              cases heq
              refine ⟨_, List.mem_singleton_self _, ?_⟩
              simp [approvedSettlement, hentry, settlementResult, hperiod]
    | _ => cases hsettles

end Steps

/-! ## Runs -/

section Runs

variable {G : Guard (State σ) Action Event} (period : ReportPeriod) {s₀ s : State σ}
  {steps : List (Step (State σ) Action Event)}

/-- What the bucket counts along a run. -/
theorem confirms_run (C : Contract d.store) (hsync : Synced C s₀.world)
    (hfresh : s₀.world.audit.entries = []) (hrun : (executor d).Run G s₀ steps s) :
    s.world.audit.entries.any (classified period .operatorConfirmed) =
      steps.any fun t => approvesAutomatically d period t.before t.action := by
  have hinv : Synced C s.world ∧
      s.world.audit.entries.any (classified period .operatorConfirmed) =
        steps.any fun t => approvesAutomatically d period t.before t.action := by
    refine hrun.invariant (fun steps s => Synced C s.world ∧
      s.world.audit.entries.any (classified period .operatorConfirmed) =
        steps.any fun t => approvesAutomatically d period t.before t.action)
      ⟨hsync, by simp [hfresh]⟩ ?_
    rintro steps s a s' es ⟨hsync, hold⟩ - htaken
    refine ⟨(step_effect C htaken).2 hsync, ?_⟩
    obtain ⟨added, hentries, -⟩ := entries_of_step htaken
    have hnew := step_confirms period C hsync htaken
    rw [appended_eq added hentries] at hnew
    rw [hentries, List.any_append, List.any_append, hold, hnew]
    simp
  exact hinv.2

/-- What it should count. -/
theorem settles_run (C : Contract d.store) (hrun : (executor d).Run G s₀ steps s) :
    (events steps).any (fun e => (approvedSettlement period e).isSome) =
      steps.any fun t => settlesApproval d period t.before t.action := by
  refine hrun.invariant (fun steps _ =>
    (events steps).any (fun e => (approvedSettlement period e).isSome) =
      steps.any fun t => settlesApproval d period t.before t.action) rfl ?_
  intro steps s a s' es hold _ htaken
  rw [events_snoc, List.any_append, List.any_append, hold, step_settles period C htaken]
  simp

/-- The decisions that the bucket counts carry no intent. -/
theorem unpriced_run (hfresh : s₀.world.audit.entries = [])
    (hrun : (executor d).Run G s₀ steps s) :
    ∀ e ∈ s.world.audit.entries, classified period .operatorConfirmed e = true →
      e.payload.get "intent" = .undefined := by
  refine hrun.invariant (fun _ s => ∀ e ∈ s.world.audit.entries,
    classified period .operatorConfirmed e = true → e.payload.get "intent" = .undefined)
    (by simp [hfresh]) ?_
  intro steps s a s' es hold _ htaken e he hcounts
  obtain ⟨added, hentries, hadded⟩ := entries_of_step htaken
  rw [hentries] at he
  rcases List.mem_append.1 he with hmem | hmem
  · exact hold e hmem hcounts
  · cases hadded e hmem with
    | approved _ approved =>
        obtain ⟨decision, hpayload⟩ := approved
        rw [hpayload]
        exact intent_approvalPayload _ _ _ _ _
    | halted type => simp [classified, type] at hcounts
    | approvalHalted type => simp [classified, type] at hcounts
    | settled _ type => simp [classified, type] at hcounts
    | other _ undecided => simp [classified, undecided] at hcounts
    | decided decided =>
        obtain ⟨decision, inputs, -, -, hpayload⟩ := decided.recorded
        simp only [classified, Bool.and_eq_true, beq_iff_eq, hpayload,
          disposition_agentPayload] at hcounts
        cases hout : decision.outcome <;> simp [hout, GateOutcome.disposition] at hcounts

/-- The report of a state holds, as confirmed by the operator, the intents that
`approve` settled. -/
def ConfirmedExact (period : ReportPeriod) (steps : List (Step (State σ) Action Event))
    (s : State σ) : Prop :=
  ∀ mandates integrity, ∃ report,
    deployerOversightReport
      { audit := s.world.audit.entries, mandates, integrity, period } = some report ∧
    Tallied report.humanOversight.operatorConfirmed (confirmedIntents period steps).length
      (confirmedIntents period steps)

theorem confirmedIntents_eq_nil_iff : confirmedIntents period steps = [] ↔
    (events steps).any (fun e => (approvedSettlement period e).isSome) = false := by
  unfold confirmedIntents
  rw [List.dedup_eq_nil, List.filterMap_eq_nil_iff, List.any_eq_false]
  simp only [Bool.not_eq_true, Option.isSome_eq_false_iff, Option.isNone_iff_eq_none]

/-- **The operator-confirmed bucket of a run** is that of the approved settlements
if and only if no approval of the period is decided `auto_execute`, and none
settles. -/
theorem operatorConfirmed_exact_iff (C : Contract d.store) (hsync : Synced C s₀.world)
    (hfresh : s₀.world.audit.entries = []) (hrun : (executor d).Run anyStep s₀ steps s) :
    ConfirmedExact period steps s ↔ ∀ t ∈ steps,
      approvesAutomatically d period t.before t.action = false ∧
        settlesApproval d period t.before t.action = false := by
  have hcounted := confirms_run period C hsync hfresh hrun
  have hsettled := settles_run period C hrun
  have hsplit : (∀ t ∈ steps, approvesAutomatically d period t.before t.action = false ∧
      settlesApproval d period t.before t.action = false) ↔
      s.world.audit.entries.any (classified period .operatorConfirmed) = false ∧
        confirmedIntents period steps = [] := by
    rw [confirmedIntents_eq_nil_iff, hcounted, hsettled, List.any_eq_false, List.any_eq_false]
    simp only [Bool.not_eq_true]
    exact ⟨fun h => ⟨fun t ht => (h t ht).1, fun t ht => (h t ht).2⟩,
      fun h t ht => ⟨h.1 t ht, h.2 t ht⟩⟩
  rw [hsplit]
  constructor
  · intro hexact
    obtain ⟨report, hreport, htallied⟩ := hexact [] .intact
    have hbucket := bucket_report .operatorConfirmed hreport
    simp only [HumanOversightSection.bucket] at hbucket
    have hempty : confirmedIntents period steps = [] := by
      by_contra hne
      obtain ⟨i, hi⟩ := List.exists_mem_of_ne_nil _ hne
      have htotal := htallied.totals i.currency
      rw [hbucket, bucketOf_totals] at htotal
      · exact totalIn_ne_none hi htotal.symm
      · intro e he
        obtain ⟨hmem, hcounts⟩ := List.mem_filter.1 he
        exact unpriced_run period hfresh hrun e hmem hcounts
    refine ⟨?_, hempty⟩
    have hcount := htallied.count
    rw [hbucket, bucketOf_count, hempty, JsNumber.natCast_inj] at hcount
    have hnil := List.eq_nil_of_length_eq_zero hcount
    rw [List.any_eq_false]
    exact fun e he => (List.filter_eq_nil_iff.1 hnil) e he
  · rintro ⟨hnone, hempty⟩ mandates integrity
    obtain ⟨report, hreport⟩ := report_of_legible
      { audit := s.world.audit.entries, mandates, integrity, period }
      (legible_run hfresh hrun)
    refine ⟨report, hreport, ?_⟩
    have hbucket := bucket_report .operatorConfirmed hreport
    simp only [HumanOversightSection.bucket] at hbucket
    rw [hbucket, hempty, List.filter_eq_nil_iff.2 (List.any_eq_false.1 hnone)]
    exact tallied_empty

end Runs

/-! ## Sample runs -/

/-- A payment that the agent makes by itself, and one that waits for the
operator. -/
theorem operatorConfirmed_exact_unapproved : ∃ steps s,
    (executor Sample.deps).Run anyStep Sample.start steps s ∧ steps.length = 4 ∧
      (ConfirmedExact Sample.marchReport steps s ↔ ∀ t ∈ steps,
        approvesAutomatically Sample.deps Sample.marchReport t.before t.action = false ∧
          settlesApproval Sample.deps Sample.marchReport t.before t.action = false) := by
  obtain ⟨steps, s, hrun, hfound⟩ := System.exists_run (executor Sample.deps) anyStep
    Sample.start [Sample.pay "a" 40, Sample.settles 0 "a" 40, .resume 0,
      Sample.payNewcomer "b" 10]
    (fun steps _ => decide (steps.length = 4)) (by decide +kernel)
  exact ⟨steps, s, hrun, of_decide_eq_true hfound,
    operatorConfirmed_exact_iff Sample.marchReport memoryContract Sample.synced_start rfl hrun⟩

/-- A newcomer's payment is parked, approved and settled; the gate still says
`confirm_operator`, and the bucket stays empty. -/
theorem approved_settlement_uncounted : ∃ steps s,
    (executor Sample.deps).Run anyStep Sample.start steps s ∧
      (confirmedIntents Sample.marchReport steps).map PaymentIntent.id = ["a"] ∧
      (∀ report, deployerOversightReport
        { audit := s.world.audit.entries, mandates := [Sample.mandate], integrity := .intact
          period := Sample.marchReport } = some report →
        report.humanOversight.operatorConfirmed = emptyBucket) ∧
      ¬ ConfirmedExact Sample.marchReport steps s := by
  obtain ⟨steps, s, hrun, hfound⟩ := System.exists_run (executor Sample.deps) anyStep
    Sample.start [Sample.payNewcomer "a" 40, Sample.approves "a", Sample.settles 0 "a" 40,
      .resume 0]
    (fun steps s => decide ((confirmedIntents Sample.marchReport steps).map PaymentIntent.id =
        ["a"] ∧
      (deployerOversightReport
        { audit := s.world.audit.entries, mandates := [Sample.mandate], integrity := .intact
          period := Sample.marchReport }).map (·.humanOversight.operatorConfirmed) =
        some emptyBucket)) (by decide +kernel)
  obtain ⟨hsettled, hbucket⟩ := of_decide_eq_true hfound
  have hempty : ∀ report, deployerOversightReport
      { audit := s.world.audit.entries, mandates := [Sample.mandate], integrity := .intact
        period := Sample.marchReport } = some report →
      report.humanOversight.operatorConfirmed = emptyBucket := by
    intro report hreport
    rw [hreport] at hbucket
    exact Option.some.inj hbucket
  refine ⟨steps, s, hrun, hsettled, hempty, ?_⟩
  intro hexact
  obtain ⟨report, hreport, htallied⟩ := hexact [Sample.mandate] .intact
  have hcount := htallied.count
  have hlength : (confirmedIntents Sample.marchReport steps).length = 1 := by
    have h := congrArg List.length hsettled
    rwa [List.length_map] at h
  rw [hempty report hreport, hlength] at hcount
  exact absurd hcount (by decide)

end AgentWorth
