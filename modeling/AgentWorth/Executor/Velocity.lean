import AgentWorth.Executor.Ledger

/-!
# The velocity ceiling over runs

"More than this many payments in the window forces an operator confirm": the
gate counts the payments of the last `velocityWindowMinutes`, but among the
payments of the current period only.  While every payment of the window lies in
the current period the ceiling holds for every interval of the window's length;
a window that reaches back over the start of a period starts to count afresh.
-/

namespace AgentWorth

open AgentWorth.Js AgentWorth.Lib

variable {σ : Type} {d : ExecutorDeps σ} (C : Contract d.store)

/-- The length of the velocity window, in milliseconds. -/
def windowLength (config : GateConfig) : JsNumber := config.velocityWindowMinutes * .fin 60000

/-- The payment lies in the interval of the window's length that begins at a
time. -/
def inWindow (config : GateConfig) (start : ℚ) (p : Payment) : Bool :=
  decide (.fin start ≤ p.time) && decide (p.time ≤ .fin start + windowLength config)

/-- The payment lies in the window that ends at `now`, or after it. -/
def isRecent (config : GateConfig) (now : String) (p : Payment) : Bool :=
  decide (Date.getTime now - windowLength config ≤ p.time)

/-- When `execute` is called, the payments of the window that ends then are
payments of the current period of `m`. -/
def WindowInPeriod (d : ExecutorDeps σ) (m : String) (paid : List Payment) (store : σ) :
    Action → Prop
  | .execute now _ _ _ => ∀ mandate ∈ d.store.getMandate store m,
      ∀ start ∈ (periodStart now mandate.period).toOption,
        ∀ p ∈ paid, isRecent d.config now p = true → strLt p.receipt.settledAt start = false
  | _ => True

instance (m : String) (paid : List Payment) (store : σ) (a : Action) :
    Decidable (WindowInPeriod d m paid store a) :=
  match a with
  | .execute .. => inferInstanceAs (Decidable (∀ mandate ∈ d.store.getMandate store m,
      ∀ start ∈ (periodStart _ mandate.period).toOption, ∀ p ∈ paid, _ → _))
  | .approve .. | .railReturns .. | .railThrows .. | .resume .. | .refund .. | .refundReturns ..
  | .refundThrows .. | .grantMandate .. | .revokeMandate .. | .amendMandate ..
  | .extendMandate .. | .engageKillSwitch | .disengageKillSwitch | .resetCircuitBreaker =>
      inferInstanceAs (Decidable True)

/-- Orderly runs in which the window of every payment lies within the period. -/
def Throttled (d : ExecutorDeps σ) (m : String) : Guard (State σ) Action Event :=
  fun steps s a => Orderly d steps s a ∧
    WindowInPeriod d m (paidUnder m (events steps)) s.world.store a

instance (m : String) (steps : List (Step (State σ) Action Event)) (s : State σ) (a : Action) :
    Decidable (Throttled d m steps s a) := inferInstanceAs (Decidable (_ ∧ _))

/-- The window before a call had room when the call was decided. -/
structure Roomy (config : GateConfig) (n : Nat) (paid : List Payment) (now : String) : Prop where
  clock : IsTimestamp now
  length : ∃ w : ℚ, windowLength config = .fin w
  room : (paid.filter (isRecent config now)).length < n

/-! ## One decision -/

theorem getTime_of_isTimestamp {ts : String} (h : IsTimestamp ts) :
    ∃ t : Int, Date.FourDigitYear t ∧ ts = Date.toIso t ∧ Date.getTime ts = .fin (t : ℚ) := by
  obtain ⟨t, hlo, hhi, rfl⟩ := h
  have hyear := IsTimestamp.fourDigitYear hlo hhi
  exact ⟨t, hyear, rfl, Date.getTime_toIso hyear⟩

/-- The gate looks at a window of finite length. -/
theorem windowLength_of_start {ctx : GateContext} {windowStart : String} {t : Int}
    (hnow : Date.getTime ctx.now = .fin (t : ℚ))
    (h : velocityWindowStart ctx = .ok windowStart) :
    ∃ w : ℚ, windowLength ctx.config = .fin w ∧
      Date.toISOString (.fin (t - w)) = .ok windowStart := by
  have h' : Date.toISOString (.fin (t : ℚ) - windowLength ctx.config) = .ok windowStart := by
    rw [← hnow]
    exact h
  cases hlength : windowLength ctx.config with
  | fin w =>
      rw [hlength, JsNumber.fin_sub_fin] at h'
      exact ⟨w, rfl, h'⟩
  | nan =>
      rw [hlength] at h'
      cases h'
  | posInf =>
      rw [hlength] at h'
      cases h'
  | negInf =>
      rw [hlength] at h'
      cases h'

/-- What the gate counts of rows. -/
theorem recentCount_rows (rows : List StoredIntent) (windowStart : String) :
    recentCount (rows.map priorSpend) windowStart =
      (rows.filter fun x => !strLt (x.settledAt.getD "") windowStart).length := by
  rw [recentCount, List.filter_map, List.length_map]
  rfl

/-- Booked payments of the window and the period are among the rows the gate
counts. -/
theorem recent_le_recentCount {s : State σ} {m start windowStart : String}
    {paid : List Payment} (hids : (paid.map Payment.id).Nodup)
    (hpaid : ∀ p ∈ paid, Booked C p s ∧ p.call.decision.mandateId = some m ∧
      strLt p.receipt.settledAt start = false ∧
      strLt p.receipt.settledAt windowStart = false) :
    paid.length ≤ recentCount (((s.books C).spendRows m start).map priorSpend) windowStart := by
  have hlength : paid.length = (paid.map Payment.id).length := by rw [List.length_map]
  rw [recentCount_rows, hlength, ← List.length_map (f := StoredIntent.id)]
  refine (List.subperm_of_subset hids ?_).length_le
  intro id hid
  obtain ⟨p, hp, rfl⟩ := List.mem_map.1 hid
  obtain ⟨hbooked, hmandate, hperiod, hwindow⟩ := hpaid p hp
  obtain ⟨x, hx, hstatus, hat, hxm⟩ := hbooked.settled.row
  have hkey : x.id = p.id := Table.key_of_get hx
  refine List.mem_map.2 ⟨x, List.mem_filter.2 ⟨Books.mem_spendRows.2 ⟨?_, ?_⟩, ?_⟩, hkey⟩
  · rw [hkey]
    exact hx
  · exact countsFor_iff.2 ⟨hstatus, hxm.trans hmandate, _, hat, hperiod⟩
  · simp [hat, hwindow]

/-- Payments within an interval that holds `now` are recent then. -/
theorem isRecent_of_inWindow {config : GateConfig} {now : String} {w : ℚ} {t : Int} {start : ℚ}
    {p : Payment} (hlength : windowLength config = .fin w)
    (hnow : Date.getTime now = .fin (t : ℚ)) (hend : (t : ℚ) ≤ start + w)
    (h : inWindow config start p = true) : isRecent config now p = true := by
  simp only [inWindow, Bool.and_eq_true, decide_eq_true_eq] at h
  simp only [isRecent, hlength, hnow, JsNumber.fin_sub_fin, decide_eq_true_eq]
  refine JsNumber.le_trans ?_ h.1
  rw [JsNumber.fin_le_fin]
  linarith

/-- **A payment that is executed finds room in its window.** -/
theorem roomy_of_decision {s : State σ} {m : String} {past : List Event} {src : Sources}
    {now : String} {intent : PaymentIntent} {attestation : Option Attestation}
    {decision : GateDecision} {n : Nat} (hcount : d.config.velocityMaxCount = (n : JsNumber))
    (hinv : LedgerInv C m past s)
    (hstamped : ∀ p ∈ paidUnder m past, IsTimestamp p.receipt.settledAt)
    (hidle : s.calls = []) (hclock : IsTimestamp now)
    (hperiod : WindowInPeriod d m (paidUnder m past) s.world.store
      (.execute now src intent attestation))
    (hdecides : agentDecision d src s.world now intent attestation = .ok decision)
    (hauto : decision.outcome = .autoExecute) (hm : decision.mandateId = some m) :
    Roomy d.config n (paidUnder m past) now := by
  obtain ⟨mandate, start, -, hheld, hperiodStart, hexec⟩ :=
    rows_of_decision C hdecides hauto hm
  obtain ⟨windowStart, hstart, hcalm⟩ := hexec.calm
  obtain ⟨t, -, -, hnow⟩ := getTime_of_isTimestamp hclock
  obtain ⟨w, hlength, hwindow⟩ := windowLength_of_start hnow hstart
  have hlength' : windowLength d.config = .fin w := hlength
  refine ⟨hclock, ⟨w, hlength'⟩, ?_⟩
  have hunder : recentCount (((s.books C).spendRows m start).map priorSpend) windowStart < n := by
    have hceiling : ¬ d.config.velocityMaxCount ≤
        (recentCount (((s.books C).spendRows m start).map priorSpend) windowStart : JsNumber) :=
      not_ceiling_of_calm hcalm
    rw [hcount, JsNumber.natCast_eq_fin, JsNumber.natCast_eq_fin, JsNumber.fin_le_fin] at hceiling
    exact Nat.lt_of_not_le fun hle => hceiling (by exact_mod_cast hle)
  refine lt_of_le_of_lt (recent_le_recentCount C ?_ ?_) hunder
  · exact (hinv.once.once.sublist (ids_sublist m past)).sublist (List.filter_sublist.map _)
  · intro p hp
    obtain ⟨hmem, hrecent⟩ := List.mem_filter.1 hp
    have hbooked : Booked C p s := by
      rcases hinv.entered p hmem with ⟨v, hcall⟩ | hbooked
      · rw [hidle] at hcall
        cases hcall
      · exact hbooked
    refine ⟨hbooked, (call_of_mem hmem).2, ?_, ?_⟩
    · exact hperiod mandate hheld start (by rw [hperiodStart]; rfl) p hmem hrecent
    · obtain ⟨u, hyear, hat, htime⟩ := getTime_of_isTimestamp (hstamped p hmem)
      simp only [isRecent, hlength', hnow, Payment.time, htime, JsNumber.fin_sub_fin,
        JsNumber.fin_le_fin, decide_eq_true_eq] at hrecent
      rw [hat]
      exact Date.not_strLt_toISOString hyear hwindow hrecent

/-! ## Runs -/

/-- The invariant of throttled runs. -/
structure VelocityInv (m : String) (n : Nat) (past : List Event) (s : State σ) : Prop where
  ledger : LedgerInv C m past s
  alone : s.calls.length ≤ 1
  stamped : ∀ p ∈ paidUnder m past, IsTimestamp p.receipt.settledAt
  roomy : ∀ call ∈ s.calls, call.isAnswered = false → call.entry = .execute →
    call.decision.mandateId = some m → Roomy d.config n (paidUnder m past) call.now
  bounded : ∀ start, ((paidUnder m past).filter (inWindow d.config start)).length ≤ n

section Steps

variable {s s' : State σ} {a : Action} {es past : List Event} {m : String} {n : Nat}

/-- The payment that a rail confirms still finds its window as the gate saw it. -/
theorem bounded_paid {paid : List Payment} {p : Payment} {start : ℚ}
    (hroomy : Roomy d.config n paid p.receipt.settledAt)
    (hbounded : (paid.filter (inWindow d.config start)).length ≤ n) :
    ((paid ++ [p]).filter (inWindow d.config start)).length ≤ n := by
  obtain ⟨hclock, ⟨w, hlength⟩, hroom⟩ := hroomy
  obtain ⟨t, -, -, hnow⟩ := getTime_of_isTimestamp hclock
  rw [List.filter_append, List.length_append]
  by_cases hp : inWindow d.config start p = true
  · have hend : (t : ℚ) ≤ start + w := by
      simp only [inWindow, Payment.time, hnow, hlength, JsNumber.fin_add_fin,
        JsNumber.fin_le_fin, Bool.and_eq_true, decide_eq_true_eq] at hp
      exact hp.2
    have hle : (paid.filter (inWindow d.config start)).length ≤
        (paid.filter (isRecent d.config p.receipt.settledAt)).length :=
      (List.monotone_filter_right paid fun q hq =>
        isRecent_of_inWindow hlength hnow hend hq).length_le
    rw [List.filter_cons_of_pos hp, List.filter_nil, List.length_singleton]
    omega
  · rw [List.filter_cons_of_neg hp, List.filter_nil, List.length_nil]
    omega

theorem velocity_step {steps : List (Step (State σ) Action Event)}
    (hcount : d.config.velocityMaxCount = (n : JsNumber))
    (hinv : VelocityInv C m n (events steps) s) (hguard : Throttled d m steps s a)
    (htaken : step d s a = some (s', es)) : VelocityInv C m n (events steps ++ es) s' := by
  obtain ⟨⟨hseq, hkeeps, hnow, hclock⟩, hperiod⟩ := hguard
  obtain ⟨heffect, -⟩ := step_effect C htaken
  have hledger := ledger_step C hinv.ledger hkeeps htaken
  have halone := (heffect.calls_change C).length_le hinv.alone hseq
  by_cases hpaid : paidUnder m es = []
  · -- nothing was paid: a new call found room
    have hsame : paidUnder m (events steps ++ es) = paidUnder m (events steps) := by
      rw [paidUnder_append, hpaid, List.append_nil]
    refine ⟨hledger, halone, by rw [hsame]; exact hinv.stamped, ?_,
      by rw [hsame]; exact hinv.bounded⟩
    rw [hsame]
    intro call hcall hwaiting hentry hm
    cases heffect.mem_calls C hcall with
    | old mem => exact hinv.roomy call mem hwaiting hentry hm
    | executed decides automatic =>
        exact roomy_of_decision C hcount hinv.ledger hinv.stamped hseq (hclock _ rfl) hperiod
          decides automatic hm
    | approved present pending decides passes => cases hentry
    | answered waiting returned => cases hwaiting
  · obtain ⟨p, hp⟩ := List.exists_mem_of_ne_nil _ hpaid
    obtain ⟨k, receipt, verified, provider, outcome, rfl, hwait, hreceipt, hone, hcalls⟩ :=
      heffect.paid C hinv.ledger.once.synced hp
    obtain ⟨hk, hstage⟩ := atRail_iff.1 hwait
    have hat : p.receipt.settledAt = p.call.now := by
      rw [hreceipt]
      exact hnow _ hwait
    obtain ⟨hentry, hm⟩ := call_of_mem hp
    have hroomy := hinv.roomy p.call (mem_of_slot hk) (by simp [Call.isAnswered, hstage])
      hentry hm
    rw [← hat] at hroomy
    refine ⟨hledger, halone, ?_, ?_, ?_⟩ <;> rw [paidUnder_append, hone]
    · intro q hq
      rcases List.mem_append.1 hq with h | h
      · exact hinv.stamped q h
      · rw [List.mem_singleton.1 h]
        exact hroomy.clock
    · -- the one call in flight has been answered
      intro call hcall hwaiting
      rw [hcalls] at hcall
      have hrest : s.calls.eraseIdx k = [] := by
        obtain ⟨hlt, -⟩ := List.getElem?_eq_some_iff.1 hk
        have hlen := hinv.alone
        rw [← List.length_eq_zero_iff, List.length_eraseIdx_of_lt hlt]
        omega
      have hmem := (perm_set hk).mem_iff.1 hcall
      rw [hrest] at hmem
      rw [List.mem_singleton.1 hmem] at hwaiting
      cases hwaiting
    · exact fun start => bounded_paid hroomy (hinv.bounded start)

end Steps

/-- **The velocity ceiling.**  In every throttled run, at most
`velocityMaxCount` payments are auto-executed and settled under a mandate in any
interval of `velocityWindowMinutes`. -/
theorem velocity_ceiling {s₀ s : State σ} {steps : List (Step (State σ) Action Event)}
    {m : String} {n : Nat} (hcount : d.config.velocityMaxCount = (n : JsNumber))
    (hidle : s₀.calls = []) (hsync : Synced C s₀.world)
    (hrun : (executor d).Run (Throttled d m) s₀ steps s) (start : ℚ) :
    ((paidUnder m (events steps)).filter (inWindow d.config start)).length ≤ n := by
  have hinv : VelocityInv C m n (events steps) s := by
    refine hrun.invariant (fun steps s => VelocityInv C m n (events steps) s) ?_ ?_
    · refine ⟨⟨settleOnce_start C hidle hsync, by simp⟩, by simp [hidle], by simp, ?_, by simp⟩
      rw [hidle]
      exact fun call hcall => absurd hcall List.not_mem_nil
    · intro steps s a s' es ih hg ht
      rw [events_snoc]
      exact velocity_step C hcount ih hg ht
  exact hinv.bounded start

/-! ## Two runs -/

namespace Sample

/-- 100 a day. -/
def daily : Mandate := { mandate with period := .day }

def dailyStart : State Books := deploy "key" { books with mandates := Table.empty.put daily }

theorem synced_dailyStart : Synced (d := deps) memoryContract dailyStart.world :=
  synced_deploy (d := deps) memoryContract "key" rfl

/-- A payment of 10 that is executed, settled and filed at one time. -/
def paysAt (ts id : String) : List Action :=
  [.execute ts {} (intent id 10) none,
    .railReturns 0 { receipt id 10 with settledAt := ts } (.ok true), .resume 0]

/-- Two minutes before midnight. -/
def lateEvening : String := "2026-03-05T23:58:00.000Z"

/-- Three minutes later. -/
def earlyMorning : String := "2026-03-06T00:01:00.000Z"

end Sample

/-- Two payments of an evening. -/
theorem velocity_ceiling_evening : ∃ steps s,
    (executor Sample.deps).Run (Throttled Sample.deps "m") Sample.dailyStart steps s ∧
      (paidUnder "m" (events steps)).map Payment.id = ["a", "b"] ∧
      ∀ start, ((paidUnder "m" (events steps)).filter
        (inWindow Sample.deps.config start)).length ≤ 5 := by
  obtain ⟨steps, s, hrun, hids⟩ := System.exists_run (executor Sample.deps)
    (Throttled Sample.deps "m") Sample.dailyStart
    (Sample.paysAt Sample.lateEvening "a" ++ Sample.paysAt Sample.lateEvening "b")
    (fun steps _ => decide ((paidUnder "m" (events steps)).map Payment.id = ["a", "b"]))
    (by decide +kernel)
  exact ⟨steps, s, hrun, of_decide_eq_true hids, velocity_ceiling (d := Sample.deps)
    memoryContract rfl rfl Sample.synced_dailyStart hrun⟩

/-- At most five payments an hour, and six within three minutes: the sixth comes
after midnight, when the day's list is empty again. -/
theorem ceiling_passed_at_midnight : ∃ steps s,
    (executor Sample.deps).Run
      (fun steps s a => Orderly Sample.deps steps s a ∧ Steady "m" steps s a)
      Sample.dailyStart steps s ∧
      Sample.deps.config.velocityMaxCount = 5 ∧ Sample.deps.config.velocityWindowMinutes = 60 ∧
      ∃ start, ((paidUnder "m" (events steps)).filter
        (inWindow Sample.deps.config start)).length = 6 := by
  obtain ⟨steps, s, hrun, hcount⟩ := System.exists_run (executor Sample.deps)
    (fun steps s a => Orderly Sample.deps steps s a ∧ Steady "m" steps s a) Sample.dailyStart
    (["a", "b", "c", "d", "e"].flatMap (Sample.paysAt Sample.lateEvening) ++
      Sample.paysAt Sample.earlyMorning "f")
    (fun steps _ => decide (((paidUnder "m" (events steps)).filter
      (inWindow Sample.deps.config 1772755080000)).length = 6)) (by decide +kernel)
  exact ⟨steps, s, hrun, rfl, rfl, 1772755080000, of_decide_eq_true hcount⟩

end AgentWorth
