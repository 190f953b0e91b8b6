import AgentWorth.Executor.Ledger

/-!
# The budget of a mandate over runs

The gate reads what a mandate has spent before the rail is asked, and the row
that will count is written after the rail has answered.  So the budget holds as
long as no payment of the mandate is under way when the next is decided, or the
payments under way are counted in; and as long as the rows count every payment
at no less than the gate measured it.
-/

namespace AgentWorth

open AgentWorth.Js AgentWorth.Lib

variable {σ : Type} {d : ExecutorDeps σ} (C : Contract d.store)

/-! ## Measured amounts -/

/-- The amount of the payment `id` in the currency of `m`, as the gate converts
it when `execute` is called for it. -/
def measure (d : ExecutorDeps σ) (m id : String) (t : Step (State σ) Action Event) :
    Option JsNumber :=
  match t.action with
  | .execute now src intent attestation =>
      if intent.id = id then
        (d.store.getMandate t.before.world.store m).map
          (amountInMandate intent
            (context d src t.before.world.store now intent attestation))
      else none
  | _ => none

/-- The amount as it was measured last. -/
def measured (d : ExecutorDeps σ) (m : String) (steps : List (Step (State σ) Action Event))
    (id : String) : JsNumber :=
  ((steps.filterMap (measure d m id)).getLast?).getD 0

theorem measured_snoc (m : String) (steps : List (Step (State σ) Action Event))
    (t : Step (State σ) Action Event) (id : String) :
    measured d m (steps ++ [t]) id = (measure d m id t).getD (measured d m steps id) := by
  unfold measured
  rw [List.filterMap_append, List.getLast?_append]
  cases h : measure d m id t <;> simp [h]

/-- The timestamp lies in the period that starts at `start`. -/
def inPeriod (period : Period) (start ts : String) : Bool :=
  (periodStart ts period).toOption == some start

/-- An `execute` call under `m`. -/
def Call.isUnder (m : String) (call : Call) : Bool :=
  call.entry == .execute && call.decision.mandateId == some m

/-- Such a call that waits for its rail. -/
def Call.waits (m : String) (call : Call) : Bool := call.isUnder m && !call.isAnswered

/-- The payments under `m` that settled in the period. -/
def settledIn (m : String) (period : Period) (start : String) (es : List Event) :
    List String :=
  ((paidUnder m es).filter fun p => inPeriod period start p.receipt.settledAt).map Payment.id

/-- The payments under `m` that may still settle in the period. -/
def waitingIn (m : String) (period : Period) (start : String) (calls : List Call) :
    List String :=
  (calls.filter fun call => call.waits m && inPeriod period start call.now).map
    fun call => call.intent.id

/-! ## Disciplines -/

/-- The rows that the gate sums up are not negative, and count each payment of
the period at no less than it was measured. -/
def Covers (d : ExecutorDeps σ) (mandate : Mandate)
    (steps : List (Step (State σ) Action Event)) (store : σ) (now : String) : Prop :=
  ∀ spend ∈ (d.store.periodSpend store mandate.id now).toOption,
    (∀ e ∈ spend, e.amount.isFinite = true ∧ 0 ≤ e.amount) ∧
      ∀ start ∈ (periodStart now mandate.period).toOption,
        ∀ id ∈ settledIn mandate.id mandate.period start (events steps),
          ∀ x ∈ d.store.getIntent store id,
            measured d mandate.id steps id ≤ (priorSpend x).amount

/-- The payments of the period that have settled or may still settle leave room
for the amount. -/
def Fits (d : ExecutorDeps σ) (mandate : Mandate) (steps : List (Step (State σ) Action Event))
    (s : State σ) (now : String) (amount : JsNumber) : Prop :=
  ∀ start ∈ (periodStart now mandate.period).toOption,
    (∀ id ∈ waitingIn mandate.id mandate.period start s.calls,
      0 ≤ measured d mandate.id steps id) ∧
    JsNumber.sum ((settledIn mandate.id mandate.period start (events steps) ++
      waitingIn mandate.id mandate.period start s.calls).map
        (measured d mandate.id steps)) + amount ≤ mandate.perPeriodCap

/-- When `execute` is called for a payment that `m` covers, the payment has a
finite amount, and either no payment under `m` is under way and the rows cover
the others, or there is room with those under way. -/
def Affordable (d : ExecutorDeps σ) (m : String) (steps : List (Step (State σ) Action Event))
    (s : State σ) : Action → Prop
  | .execute now src intent attestation =>
      ∀ mandate ∈ selectMandate intent (context d src s.world.store now intent attestation),
        mandate.id = m →
          (amountInMandate intent (context d src s.world.store now intent attestation)
            mandate).isFinite = true ∧
          ((∀ call ∈ s.calls, call.isUnder m = false) ∧ Covers d mandate steps s.world.store now ∨
            Fits d mandate steps s now (amountInMandate intent
              (context d src s.world.store now intent attestation) mandate))
  | _ => True

/-- Runs on a clock that reads timestamps, over rails that settle at `now` and
books that are kept, where `m` is not amended and every payment is affordable. -/
def Budgeted (d : ExecutorDeps σ) (m : String) : Guard (State σ) Action Event :=
  fun steps s a => KeepsBooks d steps s a ∧ SettlesNow s a ∧
    (∀ now ∈ a.clock, IsTimestamp now) ∧ a.Keeps m ∧ Affordable d m steps s a

instance (mandate : Mandate) (steps : List (Step (State σ) Action Event)) (store : σ)
    (now : String) : Decidable (Covers d mandate steps store now) := by
  unfold Covers
  infer_instance

instance (mandate : Mandate) (steps : List (Step (State σ) Action Event)) (s : State σ)
    (now : String) (amount : JsNumber) : Decidable (Fits d mandate steps s now amount) := by
  unfold Fits
  infer_instance

instance (m : String) (steps : List (Step (State σ) Action Event)) (s : State σ) (a : Action) :
    Decidable (Affordable d m steps s a) := by
  unfold Affordable
  split <;> infer_instance

instance (m : String) (steps : List (Step (State σ) Action Event)) (s : State σ) (a : Action) :
    Decidable (Budgeted d m steps s a) := inferInstanceAs (Decidable (_ ∧ _ ∧ _ ∧ _ ∧ _))

/-! ## Measured amounts stay -/

section Steps

variable {s s' : State σ} {a : Action} {es past : List Event} {m : String}
  {steps : List (Step (State σ) Action Event)}

/-- Nobody can ask again for an id that is in flight or has settled. -/
theorem measured_keeps (hone : OneCallPerId d steps s a) {id : String}
    (htaken : (∃ call ∈ s.calls, call.intent.id = id) ∨
      ∃ x, (s.books C).intents.get id = some x) :
    measured d m (steps ++ [⟨s, a, es, s'⟩]) id = measured d m steps id := by
  rw [measured_snoc]
  have hnone : measure d m id (⟨s, a, es, s'⟩ : Step (State σ) Action Event) = none := by
    cases a with
    | execute now src intent attestation =>
        obtain ⟨hfresh, halone⟩ := hone
        refine if_neg ?_
        rintro rfl
        rcases htaken with ⟨call, hcall, hid⟩ | ⟨x, hx⟩
        · exact halone call hcall hid
        · rw [C.getIntent, show (C.books s.world.store).intents.get _ = some x from hx] at hfresh
          cases hfresh
    | _ => rfl
  rw [hnone, Option.getD_none]

theorem measured_paid (hinv : LedgerInv C m past s) (hone : OneCallPerId d steps s a)
    {p : Payment} (hp : p ∈ paidUnder m past) :
    measured d m (steps ++ [⟨s, a, es, s'⟩]) p.id = measured d m steps p.id := by
  refine measured_keeps C hone ?_
  rcases hinv.entered p hp with ⟨v, hcall⟩ | hbooked
  · exact Or.inl ⟨_, hcall, rfl⟩
  · obtain ⟨x, hx, -⟩ := hbooked.settled.row
    exact Or.inr ⟨x, hx⟩

end Steps

/-! ## What the payments of a period add up to -/

/-- The settled payments of the period, and those under way that can only add to
them. -/
def total (w : String → ℚ) (m : String) (period : Period) (start : String) (es : List Event)
    (calls : List Call) : ℚ :=
  ((settledIn m period start es).map w).sum +
    ((waitingIn m period start calls).map fun id => max 0 (w id)).sum

section Totals

variable {w w' : String → ℚ} {m start : String} {period : Period} {es es' : List Event}
  {calls calls' : List Call}

theorem total_congr (hsettled : ∀ id ∈ settledIn m period start es, w id = w' id)
    (hwaiting : ∀ id ∈ waitingIn m period start calls, w id = w' id) :
    total w m period start es calls = total w' m period start es calls := by
  have hmax : (waitingIn m period start calls).map (fun id => max 0 (w id)) =
      (waitingIn m period start calls).map fun id => max 0 (w' id) :=
    List.map_congr_left fun id hid => by rw [hwaiting id hid]
  unfold total
  rw [List.map_congr_left hsettled, hmax]

/-- Calls that end leave no more under way. -/
theorem total_le_of_subperm
    (h : (waitingIn m period start calls').Subperm (waitingIn m period start calls)) :
    total w m period start es calls' ≤ total w m period start es calls := by
  refine add_le_add_right ?_ _
  obtain ⟨ids, hperm, hsub⟩ := h
  rw [← (hperm.map fun id => max 0 (w id)).sum_eq]
  refine (hsub.map _).sum_le_sum ?_
  intro q hq
  obtain ⟨id, -, rfl⟩ := List.mem_map.1 hq
  exact le_max_left _ _

theorem settledIn_append : settledIn m period start (es ++ es') =
    settledIn m period start es ++ settledIn m period start es' := by
  unfold settledIn
  rw [paidUnder_append, List.filter_append, List.map_append]

theorem total_append_of_unpaid (h : paidUnder m es' = []) :
    total w m period start (es ++ es') calls = total w m period start es calls := by
  unfold total
  rw [settledIn_append, show settledIn m period start es' = [] by simp [settledIn, h],
    List.append_nil]

end Totals

section Steps

variable {s s' : State σ} {a : Action} {es : List Event} {m : String}

/-- Only `execute` adds to what is under way. -/
theorem CallsChange.waiting {calls : List Call} (h : CallsChange d s a es calls) (m : String) :
    (∃ now src intent attestation decision, a = .execute now src intent attestation ∧
      agentDecision d src s.world now intent attestation = .ok decision ∧
      decision.outcome = .autoExecute ∧ decision.mandateId = some m ∧
      calls = s.calls ++ [settle d .execute intent.id intent now decision]) ∨
    ∀ period start, (waitingIn m period start calls).Subperm
      (waitingIn m period start s.calls) := by
  have hadded : ∀ {call : Call}, call.waits m = false → ∀ period start,
      waitingIn m period start (s.calls ++ [call]) = waitingIn m period start s.calls := by
    intro call hcall period start
    simp [waitingIn, List.filter_append, hcall]
  have herased : ∀ {k : Nat} {call : Call}, s.calls[k]? = some call → ∀ period start,
      (waitingIn m period start (s.calls.eraseIdx k)).Subperm
        (waitingIn m period start s.calls) := by
    intro k call _ period start
    exact (((List.eraseIdx_sublist _ _).filter _).map _).subperm
  cases h with
  | same unfinished => exact Or.inr fun period start => List.Subperm.refl _
  | @executed now src intent attestation decision _ decides automatic unfinished =>
      by_cases hm : decision.mandateId = some m
      · exact Or.inl ⟨now, src, intent, attestation, decision, rfl, decides, automatic, hm, rfl⟩
      · refine Or.inr fun period start => ?_
        rw [hadded]
        simp [Call.waits, Call.isUnder, settle, hm]
  | approved present pending decides passes unfinished =>
      refine Or.inr fun period start => ?_
      rw [hadded]
      simp [Call.waits, Call.isUnder, settle]
  | @answered _ _ k call provider outcome waiting returned unfinished =>
      obtain ⟨hk, -⟩ := atRail_iff.1 waiting
      refine Or.inr fun period start => ?_
      have hperm := ((perm_set (b := { call with stage := Stage.settled outcome }) hk).filter
        fun c => c.waits m && inPeriod period start c.now).map fun c => c.intent.id
      rw [List.filter_cons_of_neg (by simp [Call.waits, Call.isAnswered])] at hperm
      exact hperm.subperm.trans (herased hk period start)
  | ended slot finished => exact Or.inr (herased slot)

end Steps

/-! ## One decision -/

section Decision

variable {s : State σ} {m : String} {steps : List (Step (State σ) Action Event)}

/-- Rows that cover the payments of the period add up to at least as much. -/
theorem settled_le_spent {mandate : Mandate} {now start : String} {w : String → ℚ}
    (hinv : LedgerInv C mandate.id (events steps) s)
    (hstamped : ∀ p ∈ paidUnder mandate.id (events steps), IsTimestamp p.receipt.settledAt)
    (hw : ∀ p ∈ paidUnder mandate.id (events steps),
      measured d mandate.id steps p.id = .fin (w p.id))
    (hidle : ∀ call ∈ s.calls, call.isUnder mandate.id = false)
    (hstart : periodStart now mandate.period = .ok start)
    (hspend : d.store.periodSpend s.world.store mandate.id now =
      .ok (((s.books C).spendRows mandate.id start).map priorSpend))
    (hcovers : Covers d mandate steps s.world.store now) :
    ∃ q : ℚ, spentTotal (((s.books C).spendRows mandate.id start).map priorSpend) = .fin q ∧
      ((settledIn mandate.id mandate.period start (events steps)).map w).sum ≤ q := by
  obtain ⟨hrows, hcovered⟩ := hcovers _ (by rw [hspend]; rfl)
  refine ⟨_, JsNumber.sum_of_isFinite ?_, ?_⟩
  · intro x hx
    obtain ⟨e, he, rfl⟩ := List.mem_map.1 hx
    exact (hrows e he).1
  have hsum : (((((s.books C).spendRows mandate.id start).map priorSpend).map
      PriorSpend.amount).map JsNumber.value) = ((s.books C).intents.values.filter
        (countsFor mandate.id start)).map fun x => (priorSpend x).amount.value := by
    rw [List.map_map, List.map_map]
    rfl
  rw [hsum]
  have hkeys : (settledIn mandate.id mandate.period start (events steps)).map w =
      ((settledIn mandate.id mandate.period start (events steps)).map
        fun id => (id, w id)).map Prod.snd := by
    rw [List.map_map]
    rfl
  rw [hkeys]
  refine Table.sum_le_sum_filter _ _ ?_ _ ?_ ?_
  · intro x hx hcounts
    obtain ⟨hfinite, hnonneg⟩ := hrows (priorSpend x)
      (List.mem_map_of_mem (List.mem_filter.2 ⟨hx, hcounts⟩))
    rw [← JsNumber.fin_value hfinite] at hnonneg
    simpa using hnonneg
  · rw [List.map_map]
    have hids : ((settledIn mandate.id mandate.period start (events steps)).map id).Nodup := by
      rw [List.map_id]
      exact hinv.once.once.sublist
        ((List.filter_sublist.map _).trans (ids_sublist mandate.id (events steps)))
    exact hids
  · intro e he
    obtain ⟨id, hid, rfl⟩ := List.mem_map.1 he
    obtain ⟨p, hp, rfl⟩ := List.mem_map.1 hid
    obtain ⟨hmem, hperiod⟩ := List.mem_filter.1 hp
    have hbooked : Booked C p s := by
      rcases hinv.entered p hmem with ⟨v, hcall⟩ | hbooked
      · obtain ⟨hentry, hm⟩ := call_of_mem hmem
        have h := hidle _ hcall
        simp [Call.isUnder, hentry, hm] at h
      · exact hbooked
    obtain ⟨x, hx, hstatus, hat, hm⟩ := hbooked.settled.row
    have hcounts : countsFor mandate.id start x = true := by
      refine countsFor_iff.2 ⟨hstatus, hm.trans (call_of_mem hmem).2, _, hat, ?_⟩
      obtain ⟨start', hstart', hlt⟩ := periodStart_spec (hstamped p hmem) mandate.period
      rw [inPeriod, hstart'] at hperiod
      cases (beq_iff_eq.1 hperiod : some start' = some start)
      exact hlt
    refine ⟨x, hx, hcounts, ?_⟩
    have hle := hcovered start (by rw [hstart]; rfl) p.id hid x (by rw [C.getIntent]; exact hx)
    have hfinite := (hrows (priorSpend x) (List.mem_map_of_mem
      (List.mem_filter.2 ⟨Table.mem_values_of_get hx, hcounts⟩))).1
    rw [hw p hmem, ← JsNumber.fin_value hfinite, JsNumber.fin_le_fin] at hle
    exact hle

/-- A budget that has room for an amount has room for what the rows cover and
the amount. -/
theorem within_of_room {cap : JsNumber} {spent sum amount : ℚ} (hcap : 0 ≤ cap)
    (hroom : ¬ cap - .fin spent - .fin amount < 0) (hle : sum ≤ spent) :
    .fin (sum + amount) ≤ cap := by
  cases cap with
  | fin c =>
      rw [JsNumber.fin_sub_fin, JsNumber.fin_sub_fin, JsNumber.ofNat_eq_fin,
        JsNumber.fin_lt_fin] at hroom
      rw [JsNumber.fin_le_fin]
      have : (0 : ℚ) ≤ c - spent - amount := by simpa using hroom
      linarith
  | posInf => rfl
  | negInf => exact absurd hcap Bool.false_ne_true
  | nan => exact absurd hcap Bool.false_ne_true

end Decision

/-! ## Runs -/

/-- The value of the amount as it was measured last. -/
def weight (d : ExecutorDeps σ) (m : String) (steps : List (Step (State σ) Action Event))
    (id : String) : ℚ := (measured d m steps id).value

/-- If `m` is there, it has this period and this cap. -/
def Agrees (b : Books) (m : String) (period : Period) (cap : JsNumber) : Prop :=
  ∀ mandate, b.mandates.get m = some mandate →
    mandate.period = period ∧ mandate.perPeriodCap = cap

/-- The invariant of budgeted runs. -/
structure BudgetInv (m : String) (steps : List (Step (State σ) Action Event)) (s : State σ) :
    Prop where
  ledger : LedgerInv C m (events steps) s
  clocked : ∀ call ∈ s.calls, IsTimestamp call.now
  stamped : ∀ p ∈ paidUnder m (events steps), IsTimestamp p.receipt.settledAt
  measured_settled : ∀ p ∈ paidUnder m (events steps), (measured d m steps p.id).isFinite = true
  measured_waiting : ∀ call ∈ s.calls, call.isUnder m = true →
    (measured d m steps call.intent.id).isFinite = true
  within : ∀ period cap, Agrees (s.books C) m period cap → 0 ≤ cap → ∀ start,
    .fin (total (weight d m steps) m period start (events steps) s.calls) ≤ cap

section Steps

variable {s s' : State σ} {a : Action} {es : List Event} {m : String}
  {steps : List (Step (State σ) Action Event)}

theorem BudgetInv.finite (hinv : BudgetInv C m steps s) (period : Period) (start : String) :
    (∀ id ∈ settledIn m period start (events steps), (measured d m steps id).isFinite = true) ∧
      ∀ id ∈ waitingIn m period start s.calls, (measured d m steps id).isFinite = true := by
  constructor
  · intro id hid
    obtain ⟨p, hp, rfl⟩ := List.mem_map.1 hid
    exact hinv.measured_settled p (List.mem_of_mem_filter hp)
  · intro id hid
    obtain ⟨call, hcall, rfl⟩ := List.mem_map.1 hid
    obtain ⟨hmem, htest⟩ := List.mem_filter.1 hcall
    simp only [Call.waits, Bool.and_eq_true] at htest
    exact hinv.measured_waiting call hmem htest.1.1

/-- **A payment that is executed fits the budget**, with all that is settled and
under way. -/
theorem room_of_decision (hinv : BudgetInv C m steps s) {src : Sources} {now : String}
    {intent : PaymentIntent} {attestation : Option Attestation} {decision : GateDecision}
    (hafford : Affordable d m steps s (.execute now src intent attestation))
    (hdecides : agentDecision d src s.world now intent attestation = .ok decision)
    (hauto : decision.outcome = .autoExecute) (hm : decision.mandateId = some m) :
    ∃ mandate, d.store.getMandate s.world.store m = some mandate ∧
      ∃ start, periodStart now mandate.period = .ok start ∧
      ∃ amount : ℚ, amountInMandate intent
          (context d src s.world.store now intent attestation) mandate = .fin amount ∧
        (0 ≤ mandate.perPeriodCap →
          .fin (total (weight d m steps) m mandate.period start (events steps) s.calls +
            max 0 amount) ≤ mandate.perPeriodCap) := by
  obtain ⟨mandate, start, rfl, hheld, hstart, hexec⟩ := rows_of_decision C hdecides hauto hm
  obtain ⟨hfinite, hroom⟩ := hafford mandate hexec.selected rfl
  obtain ⟨amount, hamount⟩ := JsNumber.isFinite_iff.1 hfinite
  refine ⟨mandate, hheld, start, hstart, amount, hamount, fun hcap => ?_⟩
  have hprior := hinv.within mandate.period mandate.perPeriodCap (by
    intro held hget
    rw [show (s.books C).mandates.get mandate.id = some mandate by
      rw [← hheld, C.getMandate]; rfl] at hget
    cases hget
    exact ⟨rfl, rfl⟩) hcap start
  rcases hroom with ⟨hidle, hcovers⟩ | hfits
  · -- nothing is under way, and the gate has read what is settled
    obtain ⟨spent, hspent, hle⟩ := settled_le_spent C (w := weight d mandate.id steps) hinv.ledger
      hinv.stamped (fun p hp => (JsNumber.fin_value (hinv.measured_settled p hp)).symm) hidle
      hstart hexec.spend hcovers
    have hquiet : waitingIn mandate.id mandate.period start s.calls = [] := by
      rw [waitingIn, List.map_eq_nil_iff, List.filter_eq_nil_iff]
      intro call hcall
      simp [Call.waits, hidle call hcall]
    have hwithin : ¬ mandate.perPeriodCap - .fin spent - .fin amount < 0 := by
      rw [← hspent, ← hamount]
      exact fun hless => hexec.within (Or.inr hless)
    have hadded := within_of_room hcap hwithin hle
    rcases le_total 0 amount with hpos | hneg
    · rw [max_eq_right hpos]
      simpa [total, hquiet] using hadded
    · rw [max_eq_left hneg, add_zero]
      exact hprior
  · obtain ⟨hnonneg, hsum⟩ := hfits start (by rw [hstart]; rfl)
    obtain ⟨hsettled, hwaiting⟩ := hinv.finite C mandate.period start
    rcases le_total 0 amount with hpos | hneg
    · have htotal : JsNumber.sum ((settledIn mandate.id mandate.period start (events steps) ++
          waitingIn mandate.id mandate.period start s.calls).map (measured d mandate.id steps)) =
          .fin (total (weight d mandate.id steps) mandate.id mandate.period start
            (events steps) s.calls) := by
        have hmax : (waitingIn mandate.id mandate.period start s.calls).map
            (fun id => max 0 (weight d mandate.id steps id)) =
            (waitingIn mandate.id mandate.period start s.calls).map
              (weight d mandate.id steps) := by
          refine List.map_congr_left fun id hid => max_eq_right ?_
          have h := hnonneg id hid
          rw [← JsNumber.fin_value (hwaiting id hid)] at h
          have hvalue : (0 : ℚ) ≤ (measured d mandate.id steps id).value := by simpa using h
          exact hvalue
        rw [JsNumber.sum_of_isFinite]
        · rw [total, hmax, List.map_append, List.map_append, List.sum_append, List.map_map,
            List.map_map]
          rfl
        · intro x hx
          obtain ⟨id, hid, rfl⟩ := List.mem_map.1 hx
          rcases List.mem_append.1 hid with h | h
          · exact hsettled id h
          · exact hwaiting id h
      rw [htotal, hamount, JsNumber.fin_add_fin] at hsum
      rw [max_eq_right hpos]
      exact hsum
    · rw [max_eq_left hneg, add_zero]
      exact hprior

theorem Agrees.back {period : Period} {cap : JsNumber} (heffect : Effect C s a s' es)
    (hkeeps : a.Keeps m) (h : Agrees (s'.books C) m period cap) :
    Agrees (s.books C) m period cap := by
  intro mandate hget
  obtain ⟨mandate', hget', hsame⟩ := heffect.mandate C hget
  obtain ⟨hperiod, hcap⟩ := h mandate' hget'
  rcases hsame with ⟨hcap', hperiod'⟩ | ⟨now, patch, rfl, -⟩
  · exact ⟨hperiod'.symm.trans hperiod, hcap'.symm.trans hcap⟩
  · exact absurd rfl hkeeps

/-- A step that pays nothing and starts nothing under `m` adds nothing. -/
theorem total_unpaid (hpaid : paidUnder m es = [])
    (hwaiting : ∀ period start, (waitingIn m period start s'.calls).Subperm
      (waitingIn m period start s.calls)) (w : String → ℚ) (period : Period) (start : String) :
    total w m period start (events steps ++ es) s'.calls ≤
      total w m period start (events steps) s.calls := by
  rw [total_append_of_unpaid hpaid]
  exact total_le_of_subperm (hwaiting period start)

/-- A payment that settles was counted while it was under way. -/
theorem total_paid {p : Payment} {k : Nat} {provider : PaymentProvider}
    {outcome : Except String (Receipt × Bool)} (hwait : atRail s k = some (p.call, provider))
    (hone : paidUnder m es = [p]) (hunder : p.call.isUnder m = true)
    (hcalls : s'.calls = s.calls.set k { p.call with stage := .settled outcome })
    (hat : p.receipt.settledAt = p.call.now) (w : String → ℚ) (period : Period)
    (start : String) :
    total w m period start (events steps ++ es) s'.calls ≤
      total w m period start (events steps) s.calls := by
  obtain ⟨hk, hstage⟩ := atRail_iff.1 hwait
  have hafter := ((perm_set (b := { p.call with stage := Stage.settled outcome }) hk).filter
    fun c => c.waits m && inPeriod period start c.now).map fun c => c.intent.id
  rw [List.filter_cons_of_neg (by simp [Call.waits, Call.isAnswered]), ← hcalls] at hafter
  have hbefore := ((perm_eraseIdx hk).filter
    fun c => c.waits m && inPeriod period start c.now).map fun c => c.intent.id
  have hwaits : p.call.waits m = true := by
    simp [Call.waits, hunder, Call.isAnswered, hstage]
  unfold total
  rw [settledIn_append]
  by_cases hperiod : inPeriod period start p.call.now = true
  · have hsettled : settledIn m period start es = [p.id] := by
      simp [settledIn, hone, hat, hperiod]
    rw [List.filter_cons_of_pos (by simp [hwaits, hperiod]), List.map_cons] at hbefore
    have hsum := (hafter.map fun id => max 0 (w id)).sum_eq
    have hsum' := (hbefore.map fun id => max 0 (w id)).sum_eq
    rw [List.map_cons, List.sum_cons] at hsum'
    have hle : w p.id ≤ max 0 (w p.call.intent.id) := le_max_right 0 _
    rw [hsettled, List.map_append, List.sum_append, List.map_cons, List.map_nil, List.sum_cons,
      List.sum_nil, waitingIn, waitingIn, hsum, hsum']
    linarith
  · have hsettled : settledIn m period start es = [] := by
      simp [settledIn, hone, hat, hperiod]
    rw [List.filter_cons_of_neg (by simp [hperiod])] at hbefore
    rw [hsettled, List.append_nil, waitingIn, waitingIn,
      (hafter.map fun id => max 0 (w id)).sum_eq, (hbefore.map fun id => max 0 (w id)).sum_eq]

/-- What `execute` was called for is measured anew. -/
theorem measured_asked {now : String} {src : Sources} {intent : PaymentIntent}
    {attestation : Option Attestation} {mandate : Mandate}
    (hheld : d.store.getMandate s.world.store m = some mandate) :
    measured d m (steps ++ [⟨s, .execute now src intent attestation, es, s'⟩]) intent.id =
      amountInMandate intent (context d src s.world.store now intent attestation) mandate := by
  rw [measured_snoc]
  simp [measure, hheld]

/-- A call that starts adds itself to what is under way. -/
theorem total_started {w : String → ℚ} {period : Period} {start : String} {past : List Event}
    {calls : List Call} {call : Call} :
    total w m period start past (calls ++ [call]) = total w m period start past calls +
      if (call.waits m && inPeriod period start call.now) = true then max 0 (w call.intent.id)
      else 0 := by
  unfold total waitingIn
  rw [List.filter_append, List.map_append, List.map_append, List.sum_append, add_assoc]
  by_cases h : (call.waits m && inPeriod period start call.now) = true
  · simp [h]
  · simp [h]

theorem total_step (hinv : BudgetInv C m steps s) (hguard : Budgeted d m steps s a)
    (htaken : step d s a = some (s', es)) {period : Period} {cap : JsNumber}
    (hagrees : Agrees (s'.books C) m period cap) (hcap : 0 ≤ cap) (start : String) :
    .fin (total (weight d m (steps ++ [⟨s, a, es, s'⟩])) m period start (events steps ++ es)
      s'.calls) ≤ cap := by
  obtain ⟨hkeeps, hnow, hclock, hunamended, hafford⟩ := hguard
  obtain ⟨heffect, -⟩ := step_effect C htaken
  have hback := hagrees.back C heffect hunamended
  have hprior := hinv.within period cap hback hcap start
  have hsame : total (weight d m (steps ++ [⟨s, a, es, s'⟩])) m period start (events steps)
      s.calls = total (weight d m steps) m period start (events steps) s.calls := by
    refine total_congr ?_ ?_
    · intro id hid
      obtain ⟨p, hp, rfl⟩ := List.mem_map.1 hid
      exact congrArg JsNumber.value
        (measured_paid C hinv.ledger hkeeps.1 (List.mem_of_mem_filter hp))
    · intro id hid
      obtain ⟨call, hcall, rfl⟩ := List.mem_map.1 hid
      exact congrArg JsNumber.value
        (measured_keeps C hkeeps.1 (Or.inl ⟨call, List.mem_of_mem_filter hcall, rfl⟩))
  have hle : ∀ {q : ℚ}, q ≤ total (weight d m (steps ++ [⟨s, a, es, s'⟩])) m period start
      (events steps) s.calls → .fin q ≤ cap := by
    intro q hq
    rw [hsame] at hq
    exact JsNumber.le_trans (JsNumber.fin_le_fin.2 hq) hprior
  by_cases hpaid : paidUnder m es = []
  · rcases (heffect.calls_change C).waiting m with
      ⟨now, src, intent, attestation, decision, rfl, hdecides, hauto, hm, hcalls⟩ | hwaiting
    · obtain ⟨mandate, hheld, start', hstart', amount, hamount, hroom⟩ :=
        room_of_decision C hinv hafford hdecides hauto hm
      obtain ⟨hperiod, hcap'⟩ := hback mandate (by rw [← hheld, C.getMandate]; rfl)
      rw [total_append_of_unpaid hpaid, hcalls, total_started]
      split
      · next hadds =>
          simp only [Bool.and_eq_true, inPeriod, beq_iff_eq] at hadds
          have hstarts : (periodStart now period).toOption = some start := hadds.2
          rw [← hperiod, hstart'] at hstarts
          cases (hstarts : some start' = some start)
          have hweight : weight d m (steps ++
              [⟨s, .execute now src intent attestation, es, s'⟩]) intent.id = amount := by
            rw [weight, measured_asked hheld, hamount]
            rfl
          rw [hsame]
          show JsNumber.fin (_ + max 0 (weight d m _ intent.id)) ≤ cap
          rw [hweight, ← hperiod, ← hcap']
          exact hroom (by rw [hcap']; exact hcap)
      · rw [add_zero]
        exact hle le_rfl
    · exact hle (total_unpaid hpaid hwaiting _ _ _)
  · obtain ⟨p, hp⟩ := List.exists_mem_of_ne_nil _ hpaid
    obtain ⟨k, receipt, verified, provider, outcome, rfl, hwait, hreceipt, hone, hcalls⟩ :=
      heffect.paid C hinv.ledger.once.synced hp
    obtain ⟨hentry, hm⟩ := call_of_mem hp
    refine hle (total_paid hwait hone (by simp [Call.isUnder, hentry, hm]) hcalls ?_ _ _ _)
    rw [hreceipt]
    exact hnow _ hwait

theorem budget_step (hinv : BudgetInv C m steps s) (hguard : Budgeted d m steps s a)
    (htaken : step d s a = some (s', es)) :
    BudgetInv C m (steps ++ [⟨s, a, es, s'⟩]) s' := by
  obtain ⟨hkeeps, hnow, hclock, -, hafford⟩ := id hguard
  obtain ⟨heffect, -⟩ := step_effect C htaken
  have hledger := ledger_step C hinv.ledger hkeeps htaken
  have hcall : ∀ call ∈ s.calls, measured d m (steps ++ [⟨s, a, es, s'⟩]) call.intent.id =
      measured d m steps call.intent.id :=
    fun call hmem => measured_keeps C hkeeps.1 (Or.inl ⟨call, hmem, rfl⟩)
  -- a payment that settles was a call under `m`
  have hnew : ∀ p ∈ paidUnder m es, p.call ∈ s.calls ∧ p.call.isUnder m = true ∧
      p.receipt.settledAt = p.call.now := by
    intro p hp
    obtain ⟨k, receipt, verified, provider, outcome, rfl, hwait, hreceipt, -⟩ :=
      heffect.paid C hinv.ledger.once.synced hp
    obtain ⟨hentry, hm⟩ := call_of_mem hp
    refine ⟨mem_of_slot (atRail_iff.1 hwait).1, by simp [Call.isUnder, hentry, hm], ?_⟩
    rw [hreceipt]
    exact hnow _ hwait
  refine ⟨by rw [events_snoc]; exact hledger, ?_, ?_, ?_, ?_, ?_⟩
  · intro call hmem
    cases heffect.mem_calls C hmem with
    | old mem => exact hinv.clocked call mem
    | executed decides automatic => exact hclock _ rfl
    | approved present pending decides passes => exact hclock _ rfl
    | @answered _ _ old _ _ waiting returned =>
        exact hinv.clocked old (mem_of_slot (atRail_iff.1 waiting).1)
  · intro p hp
    rw [events_snoc, paidUnder_append] at hp
    rcases List.mem_append.1 hp with h | h
    · exact hinv.stamped p h
    · obtain ⟨hmem, -, hat⟩ := hnew p h
      rw [hat]
      exact hinv.clocked _ hmem
  · intro p hp
    rw [events_snoc, paidUnder_append] at hp
    rcases List.mem_append.1 hp with h | h
    · rw [measured_paid C hinv.ledger hkeeps.1 h]
      exact hinv.measured_settled p h
    · obtain ⟨hmem, hunder, -⟩ := hnew p h
      rw [show p.id = p.call.intent.id from rfl, hcall _ hmem]
      exact hinv.measured_waiting _ hmem hunder
  · intro call hmem hunder
    cases heffect.mem_calls C hmem with
    | old mem =>
        rw [hcall _ mem]
        exact hinv.measured_waiting call mem hunder
    | @executed now src intent attestation decision decides automatic =>
        have hm : decision.mandateId = some m := by
          simpa [Call.isUnder, settle] using hunder
        obtain ⟨mandate, hheld, start, -, amount, hamount, -⟩ :=
          room_of_decision C hinv hafford decides automatic hm
        show (measured d m _ intent.id).isFinite = true
        rw [measured_asked hheld, hamount]
        rfl
    | approved present pending decides passes => cases hunder
    | @answered _ _ old _ _ waiting returned =>
        have mem := mem_of_slot (atRail_iff.1 waiting).1
        show (measured d m _ old.intent.id).isFinite = true
        rw [hcall _ mem]
        exact hinv.measured_waiting old mem hunder
  · intro period cap hagrees hcap start
    rw [events_snoc]
    exact total_step C hinv hguard htaken hagrees hcap start

end Steps

/-- **The budget.**  In every budgeted run, whatever is in flight at once, the
payments under `m` that settled in a period were measured at no more than its
cap together. -/
theorem measured_within_cap {s₀ s : State σ} {steps : List (Step (State σ) Action Event)}
    {m : String} {mandate : Mandate} (hidle : s₀.calls = []) (hsync : Synced C s₀.world)
    (hrun : (executor d).Run (Budgeted d m) s₀ steps s)
    (hheld : d.store.getMandate s.world.store m = some mandate)
    (hcap : 0 ≤ mandate.perPeriodCap) (start : String) :
    JsNumber.sum ((settledIn m mandate.period start (events steps)).map (measured d m steps)) ≤
      mandate.perPeriodCap := by
  have hinv : BudgetInv C m steps s := by
    refine hrun.invariant (fun steps s => BudgetInv C m steps s) ?_ ?_
    · refine ⟨⟨settleOnce_start C hidle hsync, by simp⟩, by simp [hidle], by simp, by simp,
        by simp [hidle], ?_⟩
      intro period cap _ hcap start
      have hzero : total (weight d m []) m period start (events ([] : List (Step (State σ) Action
          Event))) s₀.calls = 0 := by
        simp [total, settledIn, waitingIn, hidle]
      rw [hzero]
      exact hcap
    · intro steps s a s' es ih hg ht
      exact budget_step C ih hg ht
  have hagrees : Agrees (s.books C) m mandate.period mandate.perPeriodCap := by
    intro held hget
    rw [show (s.books C).mandates.get m = some mandate by rw [← hheld, C.getMandate]; rfl] at hget
    cases hget
    exact ⟨rfl, rfl⟩
  have hwithin := hinv.within _ _ hagrees hcap start
  rw [JsNumber.sum_of_isFinite]
  · refine JsNumber.le_trans (JsNumber.fin_le_fin.2 ?_) hwithin
    rw [List.map_map]
    refine le_add_of_nonneg_right (List.sum_nonneg ?_)
    intro q hq
    obtain ⟨id, -, rfl⟩ := List.mem_map.1 hq
    exact le_max_left _ _
  · intro x hx
    obtain ⟨id, hid, rfl⟩ := List.mem_map.1 hx
    exact (hinv.finite C mandate.period start).1 id hid

end AgentWorth
