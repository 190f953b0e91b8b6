import AgentWorth.Executor.Deployment
import AgentWorth.Executor.Entries

/-!
# The smurfing bound

`evaluateRiskChain` reads the whole log each time a payment is decided, and the
decision is recorded before anything else can run.  So of the automatic
decisions for one payee within fifteen minutes, the fourth already sees the
other three.
-/

namespace AgentWorth

open AgentWorth.Js AgentWorth.Lib

variable {σ : Type} {d : ExecutorDeps σ}

/-- The mandate has a period other than a day. -/
def longPeriod (d : ExecutorDeps σ) (store : σ) (mandateId : JsValue) : Bool :=
  match mandateId with
  | .str id => (d.store.getMandate store id).any fun m => m.period != .day
  | _ => false

/-- The fifteen minutes that begin at a time, in milliseconds. -/
def inQuarterHour (start : ℚ) (ts : String) : Bool :=
  decide (.fin start ≤ Date.getTime ts) && decide (Date.getTime ts ≤ .fin (start + 900000))

/-- An agent-phase decision to pay `payee` automatically, within the fifteen
minutes, under a mandate whose period is not a day. -/
def isSlice (d : ExecutorDeps σ) (payee : String) (start : ℚ) (store : σ) (e : AuditEntry) :
    Bool :=
  e.type == .gateDecision && (e.payload.get "phase").strictEq (.str "agent") &&
    (e.payload.get "outcome").strictEq (.str GateOutcome.autoExecute.text) &&
    ((e.payload.get "intent").get "payee").strictEq (.str payee) &&
    longPeriod d store (e.payload.get "mandateId") && inQuarterHour start e.ts

/-- The entries a step appended. -/
def appended (t : Step (State σ) Action Event) : List AuditEntry :=
  t.after.world.audit.entries.drop t.before.world.audit.entries.length

/-- The slices decided in a run, each under the mandates as they then were. -/
def slices (d : ExecutorDeps σ) (payee : String) (start : ℚ)
    (steps : List (Step (State σ) Action Event)) : List AuditEntry :=
  steps.flatMap fun t => (appended t).filter (isSlice d payee start t.before.world.store)

/-! ## One decision -/

/-- What a decision sees of a slice that is already in the log. -/
theorem slice_seen {payee : String} {start : ℚ} {store : σ} {e : AuditEntry}
    (h : isSlice d payee start store e = true) :
    e.type = .gateDecision ∧ .fin start ≤ Date.getTime e.ts ∧ carriesIntent e.payload = true ∧
      ((e.payload.get "intent").get "payee").strictEq (.str payee) = true ∧
      (e.payload.get "outcome").strictEq (.str GateOutcome.autoExecute.text) = true := by
  simp only [isSlice, inQuarterHour, Bool.and_eq_true, beq_iff_eq, decide_eq_true_eq] at h
  obtain ⟨⟨⟨⟨⟨htype, -⟩, houtcome⟩, hpayee⟩, -⟩, hstart, -⟩ := h
  refine ⟨htype, hstart, ?_, hpayee, houtcome⟩
  have hintent := (JsValue.strictEq_str _ _).1 hpayee
  unfold carriesIntent
  cases hp : e.payload with
  | obj members =>
      rw [hp] at hintent
      cases hi : (JsValue.obj members).get "intent" with
      | obj ms => rfl
      | _ =>
          rw [hi] at hintent
          cases hintent
  | _ =>
      rw [hp] at hintent
      cases hintent

/-- The earlier slices of a log are among the decisions that the detector
counts when a slice is decided. -/
theorem samePayeeAuto_length {payee : String} {start : ℚ} {now : String}
    {intent : PaymentIntent} {entries found : List AuditEntry} {opts : RiskChainOptions}
    (hpayee : intent.payee = payee) (hnow : inQuarterHour start now = true)
    (hopts : opts.now = some now) (hminutes : opts.windowMinutes = 15)
    (hfound : found.Sublist entries)
    (hslices : ∀ e ∈ found, ∃ store, isSlice d payee start store e = true) :
    found.length ≤
      (samePayeeAuto intent (recentDecisions entries (riskWindowStart intent opts))).length := by
  have hwindow : riskWindowStart intent opts ≤ .fin start := by
    simp only [inQuarterHour, Bool.and_eq_true, decide_eq_true_eq] at hnow
    obtain ⟨hfirst, hlast⟩ := hnow
    have hminutes' : (15 : JsNumber) * 60 * 1000 = .fin 900000 := by decide +kernel
    unfold riskWindowStart
    rw [hopts, hminutes, Option.getD_some, hminutes']
    cases ht : Date.getTime now with
    | fin t =>
        rw [ht, JsNumber.fin_le_fin] at hlast
        rw [JsNumber.fin_sub_fin, JsNumber.fin_le_fin]
        linarith
    | nan =>
        rw [ht] at hlast
        exact absurd hlast (JsNumber.not_nan_le _)
    | posInf =>
        rw [ht] at hlast
        exact absurd hlast Bool.false_ne_true
    | negInf => rfl
  have hcounted : samePayeeAuto intent
      (recentDecisions found (riskWindowStart intent opts)) = found.map AuditEntry.payload := by
    have hrecent : recentDecisions found (riskWindowStart intent opts) =
        found.map AuditEntry.payload := by
      unfold recentDecisions
      rw [List.filter_eq_self.2, List.filter_eq_self.2]
      · intro e he
        obtain ⟨store, hslice⟩ := hslices e he
        obtain ⟨htype, hstart, -⟩ := slice_seen hslice
        simp only [Bool.and_eq_true, beq_iff_eq, decide_eq_true_eq]
        exact ⟨htype, JsNumber.le_trans hwindow hstart⟩
      · intro p hp
        obtain ⟨e, he, rfl⟩ := List.mem_map.1 hp
        obtain ⟨store, hslice⟩ := hslices e (List.mem_filter.1 he).1
        exact (slice_seen hslice).2.2.1
    unfold samePayeeAuto
    rw [hrecent, List.filter_eq_self.2]
    intro p hp
    obtain ⟨e, he, rfl⟩ := List.mem_map.1 hp
    obtain ⟨store, hslice⟩ := hslices e he
    obtain ⟨-, -, -, hpaid, hauto⟩ := slice_seen hslice
    rw [hpayee, hpaid, hauto]
    rfl
  have hsub : (recentDecisions found (riskWindowStart intent opts)).Sublist
      (recentDecisions entries (riskWindowStart intent opts)) :=
    ((hfound.filter _).map _).filter _
  have hlength := (hsub.filter fun d =>
    ((d.get "intent").get "payee").strictEq (.str intent.payee) &&
      (d.get "outcome").strictEq (.str GateOutcome.autoExecute.text)).length_le
  have hfoundLength : (samePayeeAuto intent
      (recentDecisions found (riskWindowStart intent opts))).length = found.length := by
    rw [hcounted, List.length_map]
  rw [← hfoundLength]
  exact hlength

/-- A slice is decided only while fewer than three are in its window. -/
theorem slice_decided {payee : String} {start : ℚ} {src : Sources} {now : String}
    {intent : PaymentIntent} {attestation : Option Attestation} {w : World σ}
    {found : List AuditEntry} {e : AuditEntry}
    (hdecided : Decided d src now intent attestation w e)
    (hslice : isSlice d payee start w.store e = true)
    (hfound : found.Sublist w.audit.entries)
    (hslices : ∀ e ∈ found, ∃ store, isSlice d payee start store e = true) :
    found.length < 3 := by
  obtain ⟨decision, inputs, hdecides, -, hpayload⟩ := hdecided.recorded
  simp only [isSlice, Bool.and_eq_true, JsValue.strictEq_str, hpayload, hdecided.ts_eq] at hslice
  obtain ⟨⟨⟨⟨-, houtcome⟩, hpayee⟩, hlong⟩, hnow⟩ := hslice
  simp only [stamped, agentPayload, if_true, JsValue.get_withMember, JsValue.get_obj_cons,
    String.reduceEq, if_false] at houtcome hpayee hlong
  have hcalm := (agentDecision_auto hdecides (encode_outcome_eq_iff.1 houtcome)).2
  have hpaid : intent.payee = payee := by
    simpa [intentCodec] using hpayee
  have hstreaming : isStreaming d w.store decision = false := by
    unfold isStreaming
    cases hid : decision.mandateId with
    | none => rfl
    | some id =>
        rw [hid] at hlong
        have hperiod : (d.store.getMandate w.store id).any (fun m => m.period != .day) = true :=
          hlong
        cases hm : d.store.getMandate w.store id with
        | none => simp [hm]
        | some m =>
            rw [hm] at hperiod
            have hday : (m.period == .day) = false := by simpa using hperiod
            simp [hm, hday]
  by_contra hmany
  have halert : (chainAlert d w now intent decision).triggered = true := by
    have hmet : isStreaming d w.store decision = false ∧ (samePayeeAuto intent
        (recentDecisions w.audit.entries (riskWindowStart intent
          { isStreaming := isStreaming d w.store decision, now := some now }))).length ≥ 3 :=
      ⟨hstreaming, (Nat.le_of_not_lt hmany).trans
        (samePayeeAuto_length hpaid hnow rfl rfl hfound hslices)⟩
    unfold chainAlert evaluateRiskChain smurfingAlert
    simp only [if_pos hmet]
  rw [hcalm] at halert
  cases halert

/-! ## Runs -/

/-- **At most three slices** of a payee's payments are decided within any
fifteen minutes of any run. -/
theorem slices_at_most_three {s₀ s : State σ} {steps : List (Step (State σ) Action Event)}
    (hrun : (executor d).Run anyStep s₀ steps s) (payee : String) (start : ℚ) :
    (slices d payee start steps).length ≤ 3 := by
  have hinv : (slices d payee start steps).Sublist s.world.audit.entries ∧
      (∀ e ∈ slices d payee start steps, ∃ store, isSlice d payee start store e = true) ∧
      (slices d payee start steps).length ≤ 3 := by
    refine hrun.invariant (fun steps s =>
      (slices d payee start steps).Sublist s.world.audit.entries ∧
      (∀ e ∈ slices d payee start steps, ∃ store, isSlice d payee start store e = true) ∧
      (slices d payee start steps).length ≤ 3) (by simp [slices]) ?_
    rintro steps s a s' es ⟨hsub, hold, hlength⟩ - htaken
    obtain ⟨added, hentries, hadded⟩ := agentDecision_of_step htaken
    have hdrop : appended ⟨s, a, es, s'⟩ = added := by
      show s'.world.audit.entries.drop s.world.audit.entries.length = added
      rw [hentries, List.drop_left]
    have hsnoc : slices d payee start (steps ++ [⟨s, a, es, s'⟩]) =
        slices d payee start steps ++ added.filter (isSlice d payee start s.world.store) := by
      simp only [slices, List.flatMap_append, List.flatMap_singleton, hdrop]
    rw [hsnoc, hentries]
    refine ⟨hsub.append List.filter_sublist, ?_, ?_⟩
    · intro e he
      rcases List.mem_append.1 he with hmem | hmem
      · exact hold e hmem
      · exact ⟨s.world.store, (List.mem_filter.1 hmem).2⟩
    · rw [List.length_append]
      cases hnew : added.filter (isSlice d payee start s.world.store) with
      | nil => exact hlength
      | cons e rest =>
          have hmem : e ∈ added.filter (isSlice d payee start s.world.store) := by
            rw [hnew]
            exact List.mem_cons_self ..
          obtain ⟨hin, hslice⟩ := List.mem_filter.1 hmem
          have hagent : AgentDecision e := by
            simp only [isSlice, Bool.and_eq_true, beq_iff_eq, JsValue.strictEq_str] at hslice
            exact ⟨hslice.1.1.1.1.1, hslice.1.1.1.1.2⟩
          obtain ⟨now, src, intent, attestation, rfl, hdecided⟩ := hadded e hin hagent
          have hone : added.length ≤ 1 := by
            have hworld := execute_length_le d src now intent attestation s.world
            rw [← started_world s, Option.some.inj htaken, hentries, List.length_append]
              at hworld
            omega
          have hrest : (e :: rest).length ≤ 1 := by
            rw [← hnew]
            exact (List.length_filter_le _ _).trans hone
          have hfew := slice_decided hdecided hslice hsub hold
          omega
  exact hinv.2.2

/-- Three payments of 10 within a minute, and a fourth that is escalated. -/
theorem fourth_slice_is_escalated : ∃ steps s,
    (executor Sample.deps).Run anyStep Sample.start steps s ∧
      s.world.audit.entries.length = 4 ∧
      (slices Sample.deps "acme" 1772712000000 steps).length = 3 ∧
      (slices Sample.deps "acme" 1772712000000 steps).length ≤ 3 := by
  obtain ⟨steps, s, hrun, hfound⟩ := System.exists_run (executor Sample.deps) anyStep
    Sample.start [Sample.pay "a" 10, Sample.pay "b" 10, Sample.pay "c" 10, Sample.pay "d" 10]
    (fun steps s => decide (s.world.audit.entries.length = 4 ∧
      (slices Sample.deps "acme" 1772712000000 steps).length = 3)) (by decide +kernel)
  obtain ⟨hlog, hthree⟩ := of_decide_eq_true hfound
  exact ⟨steps, s, hrun, hlog, hthree, slices_at_most_three hrun "acme" 1772712000000⟩

end AgentWorth
