import AgentWorth.Executor.Deployment
import AgentWorth.Executor.Entries

/-!
# Replaying a decision

An audited decision is replayed from the inputs captured with it, under the
policy as disclosed: mandates in the order of their ids, no token decimals, and
no session history.  Replay agrees with the executor exactly when none of the
three mattered.
-/

namespace AgentWorth

open AgentWorth.Js AgentWorth.Lib

variable {σ : Type} {d : ExecutorDeps σ} (C : Contract d.store)

/-- The governing policy while the store is as given. -/
def policyAt (d : ExecutorDeps σ) (store : σ) : EffectivePolicy :=
  effectivePolicy (d.store.listMandates store) d.config d.denyRules

/-- `replayDecision` of the entry's record answers `matches`. -/
def Replays (d : ExecutorDeps σ) (store : σ) (entry : AuditEntry) : Prop :=
  ∃ record recomputed, decisionRecordFromAuditEntry d.crypto entry = some record ∧
    replayDecision record (policyAt d store) d.denyRules = .ok (true, recomputed)

/-! ## What replay leaves out -/

/-- A payment the gate executes, and a session history that stops it. -/
def Escalates (d : ExecutorDeps σ) (src : Sources) (w : World σ) (now : String)
    (intent : PaymentIntent) (attestation : Option Attestation) : Prop :=
  ∃ m spend, AutoExecutable intent (context d src w.store now intent attestation) m spend ∧
    (evaluateRiskChain intent w.audit.entries
      { isStreaming := m.id != "" && m.period == .day, now := some now }).triggered = true

/-- The gate's context when token decimals are not consulted. -/
def undecimaled (d : ExecutorDeps σ) (src : Sources) (store : σ) (now : String)
    (intent : PaymentIntent) (attestation : Option Attestation) : GateContext :=
  context { d with tokenDecimals := none } src store now intent attestation

/-- The caps read the same with and without token decimals, and leave the same
budget: a number, equal to itself. -/
def SameBudget (intent : PaymentIntent) (ctx plain : GateContext) (m : Mandate)
    (spend : List PriorSpend) : Prop :=
  (OverCap intent ctx m spend ∧ OverCap intent plain m spend) ∨
    ¬ OverCap intent ctx m spend ∧ ¬ OverCap intent plain m spend ∧
      (remainingBudget intent plain m spend).strictEq (remainingBudget intent ctx m spend) =
        true

/-- Neither session history, nor the order of the mandates, nor token decimals
have a part in the decision. -/
def Replayable (d : ExecutorDeps σ) (src : Sources) (w : World σ) (now : String)
    (intent : PaymentIntent) (attestation : Option Attestation) : Prop :=
  let ctx := context d src w.store now intent attestation
  ¬ Escalates d src w now intent attestation ∧
    (Floored intent ctx ∨
      selectMandate intent
          { ctx with mandates := sortByKey Mandate.id (d.store.listMandates w.store) } =
        selectMandate intent ctx ∧
      ∀ m spend, selectMandate intent ctx = some m →
        ctx.periodSpendByMandate m.id = .ok spend →
        SameBudget intent ctx (undecimaled d src w.store now intent attestation) m spend)

/-! ## Two contexts -/

/-- What a context converts an amount to. -/
def GateContext.converted (ctx : GateContext) (intent : PaymentIntent) (m : Mandate) :
    Option JsNumber :=
  ctx.convert.bind fun convert => convert intent.amount intent.currency m.currency

theorem covers_eq (intent : PaymentIntent) (ctx : GateContext) (m : Mandate) :
    covers m intent ctx.convert = (m.allowedRails.contains intent.rail &&
      scopeCovers m.scope intent &&
        (m.currency == intent.currency || (ctx.converted intent m).isSome)) := by
  unfold covers GateContext.converted
  cases ctx.convert <;> rfl

theorem amountInMandate_eq (intent : PaymentIntent) (ctx : GateContext) (m : Mandate) :
    amountInMandate intent ctx m = if m.currency = intent.currency then intent.amount
      else (ctx.converted intent m).getD intent.amount := by
  unfold amountInMandate GateContext.converted
  cases ctx.convert <;> rfl

/-- A gate names the mandate it selects, once the floor is passed. -/
theorem mandateId_eq {intent : PaymentIntent} {ctx : GateContext} {decision : GateDecision}
    (h : evaluateGate intent ctx = .ok decision) (hfloor : ¬ Floored intent ctx) :
    decision.mandateId = (selectMandate intent ctx).map Mandate.id := by
  show decision.verdict.mandateId = _
  rcases evaluateGate_cases h with ⟨hf, -⟩ | ⟨-, hnone, hv⟩ | ⟨-, m, spend, hsel, -, hunder⟩
  · exact absurd hf hfloor
  · rw [hv, hnone]
    rfl
  · rw [hsel]
    rcases evaluateUnderMandate_cases hunder with ⟨-, hv⟩ | ⟨-, ws, -, hv⟩ <;> rw [hv] <;> rfl

theorem verdictsEqual_iff {a b : GateDecision} :
    verdictsEqual a b = true ↔ a.verdict.outcome = b.verdict.outcome ∧
      a.verdict.mandateId = b.verdict.mandateId ∧ a.verdict.tier = b.verdict.tier ∧
      budgetEq a.verdict.remaining b.verdict.remaining = true := by
  simp only [verdictsEqual, Bool.and_eq_true, beq_iff_eq, and_assoc]
  rfl

/-- The signals that do not depend on caps or conversion agree. -/
structure SameSignals (intent : PaymentIntent) (ctx ctx' : GateContext) : Prop where
  trust : gateTrust intent ctx' = gateTrust intent ctx
  risk : ∀ spend, gateRisk intent ctx' spend = gateRisk intent ctx spend
  window : velocityWindowStart ctx' = velocityWindowStart ctx
  config : ctx'.config = ctx.config

theorem SameSignals.elevated {intent : PaymentIntent} {ctx ctx' : GateContext}
    (h : SameSignals intent ctx ctx') (spend : List PriorSpend) (windowStart : String) :
    elevatedReasons intent ctx' spend windowStart =
      elevatedReasons intent ctx spend windowStart := by
  simp only [elevatedReasons, h.trust, h.risk, h.config]

/-- Under one mandate and spend, a second evaluation confirms a record of the
first when the outcome was recorded as decided and the budget is the same. -/
theorem under_mandate_matches_iff {intent : PaymentIntent} {ctx ctx' : GateContext}
    {m : Mandate} {spend : List PriorSpend} {gated recorded : GateDecision}
    (hsignals : SameSignals intent ctx ctx')
    (hunder : evaluateUnderMandate intent ctx m spend = .ok gated)
    (hrecorded : recorded.verdict = { gated.verdict with outcome := recorded.outcome }) :
    (∃ r, evaluateUnderMandate intent ctx' m spend = .ok r ∧
        verdictsEqual r recorded = true) ↔
      recorded.outcome = gated.outcome ∧ SameBudget intent ctx ctx' m spend := by
  have hout : gated.verdict.outcome = gated.outcome := rfl
  rcases evaluateUnderMandate_cases hunder with ⟨hover, hv⟩ | ⟨hwithin, ws, hws, hv⟩
  · rw [hv] at hout hrecorded
    by_cases hover' : OverCap intent ctx' m spend
    · obtain ⟨r, hr, hrv⟩ := evaluateUnderMandate_overCap hover'
      have hsame : SameBudget intent ctx ctx' m spend := Or.inl ⟨hover, hover'⟩
      simp only [hr, Except.ok.injEq, exists_eq_left', verdictsEqual_iff, hrv, hrecorded,
        hsignals.risk, budgetEq, ← hout, hsame, and_true]
      exact eq_comm
    · refine iff_of_false ?_ ?_
      · rintro ⟨r, hr, hmatch⟩
        rcases evaluateUnderMandate_cases hr with ⟨h, -⟩ | ⟨-, ws, -, hrv⟩
        · exact hover' h
        · rw [verdictsEqual_iff, hrv, hrecorded] at hmatch
          cases hmatch.2.2.2
      · rintro ⟨-, ⟨-, h⟩ | ⟨h, -⟩⟩
        · exact hover' h
        · exact h hover
  · rw [hv] at hout hrecorded
    by_cases hover' : OverCap intent ctx' m spend
    · obtain ⟨r, hr, hrv⟩ := evaluateUnderMandate_overCap hover'
      refine iff_of_false ?_ ?_
      · rintro ⟨r', hr', hmatch⟩
        rw [hr] at hr'
        cases hr'
        rw [verdictsEqual_iff, hrv, hrecorded] at hmatch
        cases hmatch.2.2.2
      · rintro ⟨-, ⟨h, -⟩ | ⟨-, h, -⟩⟩
        · exact hwithin h
        · exact h hover'
    · obtain ⟨r, hr, hrv⟩ := evaluateUnderMandate_within hover' (hsignals.window.trans hws)
      have hbudget : SameBudget intent ctx ctx' m spend ↔
          (remainingBudget intent ctx' m spend).strictEq
            (remainingBudget intent ctx m spend) = true := by
        simp only [SameBudget, hwithin, hover', false_and, false_or, not_false_eq_true,
          true_and]
      simp only [hr, Except.ok.injEq, exists_eq_left', verdictsEqual_iff, hrv, hrecorded,
        hsignals.risk, hsignals.elevated, budgetEq, ← hout, hbudget, true_and]
      exact and_congr_left fun _ => eq_comm

/-! ## What was captured -/

section Captured

variable {src : Sources} {store : σ} {now : String} {intent : PaymentIntent}
  {attestation : Option Attestation} {inputs : ReplayInputs} {m : Mandate}

theorem fxKey_injective {source target target' : String}
    (h : fxKey source target = fxKey source target') : target = target' :=
  (String.append_right_inj _).1 h

/-- The rate into the currency of an active mandate is captured. -/
theorem capturedRates_get (src : Sources) (intent : PaymentIntent)
    (hm : m ∈ d.store.listActiveMandates store now) (hcurrency : m.currency ≠ intent.currency) :
    (capturedRates d src store now intent).get (fxKey intent.currency m.currency) =
      src.fxRates.bind fun rate => rate intent.currency m.currency := by
  unfold capturedRates
  cases hrates : src.fxRates with
  | none => simp [JsMap.ofEntries]
  | some rate =>
      simp only [Option.bind_some]
      generalize hentries : (d.store.listActiveMandates store now).filterMap _ = entries
      -- the source currency is fixed, so a key tells the target
      have hrate : ∀ e ∈ entries, e.1 = fxKey intent.currency m.currency →
          rate intent.currency m.currency = some e.2 := by
        intro e he hkey
        rw [← hentries] at he
        obtain ⟨m', -, hm'⟩ := List.mem_filterMap.1 he
        split at hm'
        · cases hm'
        · obtain ⟨r, hr, rfl⟩ := Option.map_eq_some_iff.1 hm'
          rwa [fxKey_injective hkey] at hr
      cases hr : rate intent.currency m.currency with
      | none =>
          rw [JsMap.get_ofEntries (v := 0), if_neg]
          · rintro hmem
            obtain ⟨e, he, hkey⟩ := List.mem_map.1 hmem
            simp [hr] at hrate
            exact hrate e.1 e.2 he hkey
          · intro e he hkey
            rw [hr] at hrate
            cases hrate e he hkey
      | some r =>
          rw [JsMap.get_ofEntries (v := r), if_pos]
          · refine List.mem_map.2 ⟨(fxKey intent.currency m.currency, r), ?_, rfl⟩
            rw [← hentries]
            refine List.mem_filterMap.2 ⟨m, hm, ?_⟩
            rw [if_neg hcurrency, hr]
            rfl
          · intro e he hkey
            rw [hr] at hrate
            exact (Option.some.inj (hrate e he hkey)).symm

theorem collectSpend_mem : ∀ {ms : List Mandate} {spends : List (String × List PriorSpend)},
    collectSpend d store now ms = .ok spends → ∀ {id : String} {spend : List PriorSpend},
      (id, spend) ∈ spends → d.store.periodSpend store id now = .ok spend := by
  intro ms
  induction ms with
  | nil =>
      intro spends h id spend hmem
      cases h
      simp at hmem
  | cons m ms ih =>
      intro spends h id spend hmem
      obtain ⟨s, hs, hrest⟩ := except_bind_eq_ok.1 h
      obtain ⟨rest, hcollect, rfl⟩ := except_map_eq_ok.1 hrest
      rcases List.mem_cons.1 hmem with heq | hmem
      · cases heq
        exact hs
      · exact ih hcollect hmem

theorem collectSpend_keys : ∀ {ms : List Mandate} {spends : List (String × List PriorSpend)},
    collectSpend d store now ms = .ok spends → spends.map Prod.fst = ms.map Mandate.id := by
  intro ms
  induction ms with
  | nil =>
      intro spends h
      cases h
      rfl
  | cons m ms ih =>
      intro spends h
      obtain ⟨s, hs, hrest⟩ := except_bind_eq_ok.1 h
      obtain ⟨rest, hcollect, rfl⟩ := except_map_eq_ok.1 hrest
      simp [ih hcollect]

/-- The spend of every active mandate is captured, so reading it did not throw. -/
theorem capturedSpend_get (hm : m ∈ d.store.listActiveMandates store now)
    (h : replayInputs d src store now intent attestation = .ok inputs) :
    ∃ spend, d.store.periodSpend store m.id now = .ok spend ∧
      inputs.periodSpendByMandate.get m.id = some spend := by
  obtain ⟨spends, hcollect, rfl⟩ := except_map_eq_ok.1 h
  have hkey : m.id ∈ spends.map Prod.fst := by
    rw [collectSpend_keys hcollect]
    exact List.mem_map_of_mem hm
  obtain ⟨⟨id, spend⟩, hmem, rfl⟩ := List.mem_map.1 hkey
  have hspend := collectSpend_mem hcollect hmem
  refine ⟨spend, hspend, ?_⟩
  show (JsMap.ofEntries spends).get _ = _
  rw [JsMap.get_ofEntries (v := spend), if_pos hkey]
  rintro ⟨id', spend'⟩ hmem' rfl
  have hspend' := collectSpend_mem hcollect hmem'
  rw [hspend] at hspend'
  exact (Except.ok.inj hspend').symm

end Captured

/-! ## The context replay rebuilds -/

section Rebuilt

variable {src : Sources} {w : World σ} {now : String} {intent : PaymentIntent}
  {attestation : Option Attestation} {record : DecisionRecord}

/-- The record of a decision `execute` made. -/
structure RecordOf (d : ExecutorDeps σ) (src : Sources) (w : World σ) (now : String)
    (intent : PaymentIntent) (attestation : Option Attestation) (record : DecisionRecord) :
    Prop where
  at_eq : record.at' = now
  intent_eq : record.intent = intent
  decides : agentDecision d src w now intent attestation = .ok record.verdict
  captured : replayInputs d src w.store now intent attestation = .ok record.inputs

/-- The context rebuilt for the replay of a record. -/
def rebuilt (d : ExecutorDeps σ) (store : σ) (record : DecisionRecord) : GateContext :=
  replayContext record (policyAt d store) d.denyRules

theorem rebuilt_converted (h : RecordOf d src w now intent attestation record)
    {m : Mandate} (hm : m ∈ d.store.listActiveMandates w.store now)
    (hcurrency : m.currency ≠ intent.currency) :
    (rebuilt d w.store record).converted intent m =
      (undecimaled d src w.store now intent attestation).converted intent m := by
  obtain ⟨spends, -, hinputs⟩ := except_map_eq_ok.1 h.captured
  have hget := capturedRates_get src intent hm hcurrency
  simp only [GateContext.converted, rebuilt, replayContext, undecimaled, context, ← hinputs]
  split
  · next hempty =>
      have hnone : (capturedRates d src w.store now intent).get
          (fxKey intent.currency m.currency) = none := by
        simp [JsMap.get, List.isEmpty_iff.1 hempty]
      rw [hnone] at hget
      cases hrates : src.fxRates with
      | none => rfl
      | some rate =>
          rw [hrates] at hget
          simp only [Option.bind_some] at hget
          simp [← hget]
  · simp only [Option.map_some, Option.bind_some, replayConvert]
    show ((capturedRates d src w.store now intent).get
      (fxKey intent.currency m.currency)).map _ = _
    rw [hget]
    cases src.fxRates with
    | none => rfl
    | some rate => rfl

/-- Without token decimals a conversion exists where it does with them. -/
theorem undecimaled_isSome (store : σ) (m : Mandate) :
    ((undecimaled d src store now intent attestation).converted intent m).isSome =
      ((context d src store now intent attestation).converted intent m).isSome := by
  simp only [GateContext.converted, undecimaled, context]
  cases src.fxRates with
  | none => rfl
  | some rate => simp

theorem rebuilt_covers (h : RecordOf d src w now intent attestation record)
    {m : Mandate} (hm : m ∈ d.store.listActiveMandates w.store now) :
    covers m intent (rebuilt d w.store record).convert =
      covers m intent (context d src w.store now intent attestation).convert := by
  rw [covers_eq, covers_eq]
  by_cases hcurrency : m.currency = intent.currency
  · simp [hcurrency]
  · rw [rebuilt_converted h hm hcurrency, undecimaled_isSome]

theorem rebuilt_amount (h : RecordOf d src w now intent attestation record)
    {m : Mandate} (hm : m ∈ d.store.listActiveMandates w.store now) :
    amountInMandate intent (rebuilt d w.store record) m =
      amountInMandate intent (undecimaled d src w.store now intent attestation) m := by
  rw [amountInMandate_eq, amountInMandate_eq]
  by_cases hcurrency : m.currency = intent.currency
  · rw [if_pos hcurrency, if_pos hcurrency]
  · rw [if_neg hcurrency, if_neg hcurrency, rebuilt_converted h hm hcurrency]

theorem find?_congr {α : Type} {p q : α → Bool} {xs : List α} (h : ∀ x ∈ xs, p x = q x) :
    xs.find? p = xs.find? q := by
  induction xs with
  | nil => rfl
  | cons x xs ih =>
      rw [List.find?_cons, List.find?_cons, h x (by simp), ih fun y hy => h y (by simp [hy])]

include C in
/-- Replay selects as the gate would in the order of the mandates' ids. -/
theorem rebuilt_select (h : RecordOf d src w now intent attestation record) :
    selectMandate intent (rebuilt d w.store record) =
      selectMandate intent { context d src w.store now intent attestation with
        mandates := sortByKey Mandate.id (d.store.listMandates w.store) } := by
  unfold selectMandate
  refine find?_congr ?_
  intro m hm
  have hmem : m ∈ d.store.listMandates w.store := (mem_sortByKey Mandate.id).1 hm
  show (isLiveMandate m record.at' && _) = (isLiveMandate m now && _)
  rw [h.at_eq]
  cases hlive : isLiveMandate m now with
  | false => rfl
  | true =>
      rw [rebuilt_covers h]
      rw [C.listActiveMandates, Books.listActiveMandates, List.mem_filter]
      exact ⟨by rwa [C.listMandates] at hmem, hlive⟩

theorem rebuilt_reversibility (h : RecordOf d src w now intent attestation record) :
    gateReversibility intent (rebuilt d w.store record) =
      gateReversibility intent (context d src w.store now intent attestation) := by
  obtain ⟨spends, -, hinputs⟩ := except_map_eq_ok.1 h.captured
  simp only [gateReversibility, rebuilt, replayContext, context, ← hinputs, Option.getD_some]

theorem rebuilt_floored (h : RecordOf d src w now intent attestation record) :
    Floored intent (rebuilt d w.store record) ↔
      Floored intent (context d src w.store now intent attestation) := by
  have hknown : (rebuilt d w.store record).knownPayees =
      (context d src w.store now intent attestation).knownPayees := by
    obtain ⟨spends, -, hinputs⟩ := except_map_eq_ok.1 h.captured
    funext payee
    simp only [rebuilt, replayContext, context, ← hinputs, setOf]
    rw [Bool.eq_iff_iff, List.contains_iff_mem, List.contains_iff_mem, mem_sortByKey]
  unfold Floored denyingRule
  rw [rebuilt_reversibility h, hknown]
  rfl

theorem rebuilt_signals (h : RecordOf d src w now intent attestation record) :
    SameSignals intent (context d src w.store now intent attestation)
      (rebuilt d w.store record) := by
  have hreversibility := rebuilt_reversibility h
  obtain ⟨spends, -, hinputs⟩ := except_map_eq_ok.1 h.captured
  have htrust : gateTrust intent (rebuilt d w.store record) =
      gateTrust intent (context d src w.store now intent attestation) := by
    simp only [gateTrust, rebuilt, replayContext, context, ← hinputs, Option.map_some]
  refine ⟨htrust, ?_, ?_, rfl⟩
  · intro spend
    unfold gateRisk
    rw [htrust, hreversibility]
    simp only [rebuilt, replayContext, context, ← hinputs]
    cases src.reputation <;> rfl
  · simp only [velocityWindowStart, rebuilt, replayContext, context, h.at_eq]
    rfl

/-- Replay finds the spend of the mandate it selects. -/
theorem rebuilt_spend (h : RecordOf d src w now intent attestation record)
    {m : Mandate} {spend : List PriorSpend}
    (hm : m ∈ d.store.listActiveMandates w.store now)
    (hspend : d.store.periodSpend w.store m.id now = .ok spend) :
    (rebuilt d w.store record).periodSpendByMandate m.id = .ok spend := by
  obtain ⟨spend', hspend', hget⟩ := capturedSpend_get hm h.captured
  rw [hspend] at hspend'
  cases hspend'
  simp only [rebuilt, replayContext, hget, Option.getD_some]

theorem rebuilt_budget (h : RecordOf d src w now intent attestation record)
    {m : Mandate} (hm : m ∈ d.store.listActiveMandates w.store now) (spend : List PriorSpend) :
    SameBudget intent (context d src w.store now intent attestation)
        (rebuilt d w.store record) m spend ↔
      SameBudget intent (context d src w.store now intent attestation)
        (undecimaled d src w.store now intent attestation) m spend := by
  simp only [SameBudget, OverCap, remainingBudget, rebuilt_amount h hm]

/-! ## Escalation -/

include C in
/-- A session history escalates what the gate would execute. -/
theorem escalates_iff {gated : GateDecision}
    (hgate : evaluateGate intent (context d src w.store now intent attestation) = .ok gated) :
    Escalates d src w now intent attestation ↔
      gated.outcome = .autoExecute ∧ (chainAlert d w now intent gated).triggered = true := by
  have halert : ∀ {m spend},
      AutoExecutable intent (context d src w.store now intent attestation) m spend →
      chainAlert d w now intent gated = evaluateRiskChain intent w.audit.entries
        { isStreaming := m.id != "" && m.period == .day, now := some now } := by
    intro m spend hauto
    have hid : gated.mandateId = some m.id := by
      rw [mandateId_eq hgate hauto.unfloored, hauto.selected]
      rfl
    have hstored := (selectMandate_spec C hauto.selected).1
    simp only [chainAlert, isStreaming, hid, hstored, Option.any_some]
  constructor
  · rintro ⟨m, spend, hauto, htriggered⟩
    exact ⟨hauto.outcome hgate, by rw [halert hauto]; exact htriggered⟩
  · rintro ⟨hout, htriggered⟩
    obtain ⟨m, spend, hauto, -⟩ := evaluateGate_auto hgate hout
    exact ⟨m, spend, hauto, by rw [← halert hauto]; exact htriggered⟩

/-! ## The replay of a record -/

theorem replay_iff (h : RecordOf d src w now intent attestation record) :
    (∃ recomputed, replayDecision record (policyAt d w.store) d.denyRules =
        .ok (true, recomputed)) ↔
      ∃ r, evaluateGate intent (rebuilt d w.store record) = .ok r ∧
        verdictsEqual r record.verdict = true := by
  simp only [replayDecision, h.intent_eq, except_map_eq_ok, Prod.mk.injEq]
  constructor
  · rintro ⟨-, r, hr, hmatch, rfl⟩
    exact ⟨r, hr, hmatch⟩
  · rintro ⟨r, hr, hmatch⟩
    exact ⟨r, r, hr, hmatch, rfl⟩

include C in
/-- A record replays exactly when its decision is replayable. -/
theorem replay_matches_iff (h : RecordOf d src w now intent attestation record) :
    (∃ recomputed, replayDecision record (policyAt d w.store) d.denyRules =
        .ok (true, recomputed)) ↔ Replayable d src w now intent attestation := by
  rw [replay_iff h]
  obtain ⟨gated, hgate, hesc⟩ := except_map_eq_ok.1 h.decides
  have hverdict := escalate_verdict (chainAlert d w now intent gated) gated
  rw [hesc] at hverdict
  have houtcome := congrArg Verdict.outcome hverdict
  simp only at houtcome
  have hrecorded : record.verdict.verdict =
      { gated.verdict with outcome := record.verdict.outcome } := by
    rw [hverdict, ← houtcome]
    rfl
  have hescalates : record.verdict.outcome = gated.outcome ↔
      ¬ Escalates d src w now intent attestation := by
    rw [escalates_iff C hgate, show record.verdict.outcome = _ from houtcome]
    split
    · next hboth => simp [hboth.1, hboth.2]
    · next hnot => exact iff_of_true rfl fun hboth => hnot hboth.symm
  -- what is not executed is not escalated
  have hkept : gated.outcome ≠ .autoExecute → record.verdict.verdict = gated.verdict ∧
      ¬ Escalates d src w now intent attestation := by
    intro hout
    have hnot : ¬ Escalates d src w now intent attestation :=
      fun h => hout ((escalates_iff C hgate).1 h).1
    refine ⟨?_, hnot⟩
    rw [hrecorded, hescalates.2 hnot]
    rfl
  by_cases hfloor : Floored intent (context d src w.store now intent attestation)
  · obtain ⟨r, hr, hrv⟩ := evaluateGate_floored ((rebuilt_floored h).2 hfloor)
    obtain ⟨gated', hgated', hv⟩ := evaluateGate_floored hfloor
    rw [hgate] at hgated'
    cases hgated'
    have hout : gated.verdict.outcome = gated.outcome := rfl
    rw [hv] at hout
    obtain ⟨hsame, hnot⟩ := hkept (by rw [← hout]; simp)
    refine iff_of_true ⟨r, hr, ?_⟩ ⟨hnot, Or.inl hfloor⟩
    rw [verdictsEqual_iff, hrv, hsame, hv]
    exact ⟨rfl, rfl, rfl, rfl⟩
  · have hfloor' : ¬ Floored intent (rebuilt d w.store record) :=
      fun hf => hfloor ((rebuilt_floored h).1 hf)
    simp only [Replayable, hfloor, false_or, ← rebuilt_select C h]
    by_cases hsel : selectMandate intent (rebuilt d w.store record) =
        selectMandate intent (context d src w.store now intent attestation)
    · simp only [hsel, true_and]
      rcases evaluateGate_unfloored hfloor with ⟨hnone, gated', hgated', hv⟩ | ⟨m, hm, heq⟩
      · rw [hgate] at hgated'
        cases hgated'
        have hout : gated.verdict.outcome = gated.outcome := rfl
        rw [hv] at hout
        obtain ⟨hsame, hnot⟩ := hkept (by rw [← hout]; simp)
        rcases evaluateGate_unfloored hfloor' with ⟨-, r, hr, hrv⟩ | ⟨m, hm, -⟩
        · refine iff_of_true ⟨r, hr, ?_⟩ ⟨hnot, ?_⟩
          · rw [verdictsEqual_iff, hrv, hsame, hv]
            exact ⟨rfl, rfl, rfl, rfl⟩
          · rw [hnone]
            simp
        · rw [hsel, hnone] at hm
          cases hm
      · have hactive : m ∈ d.store.listActiveMandates w.store now :=
          List.mem_of_find?_eq_some hm
        rw [hgate] at heq
        obtain ⟨spend, hspend, hunder⟩ := except_bind_eq_ok.1 heq.symm
        rcases evaluateGate_unfloored hfloor' with ⟨hnone, -⟩ | ⟨m', hm', heq'⟩
        · rw [hsel, hm] at hnone
          cases hnone
        · rw [hsel, hm] at hm'
          cases hm'
          rw [heq', rebuilt_spend h hactive hspend,
            show (Except.ok spend).bind (evaluateUnderMandate intent (rebuilt d w.store record) m)
              = evaluateUnderMandate intent (rebuilt d w.store record) m spend from rfl,
            under_mandate_matches_iff (rebuilt_signals h) hunder hrecorded, hescalates,
            rebuilt_budget h hactive]
          refine and_congr_right fun _ => ⟨?_, fun hall => hall m spend hm hspend⟩
          intro hbudget m'' spend'' hm'' hspend''
          rw [hm] at hm''
          cases hm''
          rw [hspend] at hspend''
          cases hspend''
          exact hbudget
    · refine iff_of_false ?_ fun hreplayable => hsel hreplayable.2.1
      rintro ⟨r, hr, hmatch⟩
      refine hsel ?_
      -- ids name stored mandates, so the same id is the same mandate
      have hids : (selectMandate intent (rebuilt d w.store record)).map Mandate.id =
          (selectMandate intent (context d src w.store now intent attestation)).map
            Mandate.id := by
        rw [← mandateId_eq hr hfloor', ← mandateId_eq hgate hfloor]
        have hid := (verdictsEqual_iff.1 hmatch).2.1
        rw [hrecorded] at hid
        exact hid
      have hstored : ∀ {m : Mandate},
          selectMandate intent (rebuilt d w.store record) = some m →
          d.store.getMandate w.store m.id = some m := by
        intro m hm
        have hmem : m ∈ d.store.listMandates w.store :=
          (mem_sortByKey Mandate.id).1 (List.mem_of_find?_eq_some hm)
        rw [C.listMandates, Table.mem_values_iff] at hmem
        rw [C.getMandate]
        exact hmem
      cases hm : selectMandate intent (context d src w.store now intent attestation) with
      | none =>
          rw [hm] at hids
          exact Option.map_eq_none_iff.1 hids
      | some m =>
          rw [hm] at hids
          obtain ⟨m', hm', hid⟩ := Option.map_eq_some_iff.1 hids
          have hget := hstored hm'
          rw [hid, (selectMandate_spec C hm).1] at hget
          rw [hm', hget]

end Rebuilt

/-! ## Every decision in the chain -/

section Chain

variable {src : Sources} {now : String} {intent : PaymentIntent}
  {attestation : Option Attestation} {w : World σ} {entry : AuditEntry}

/-- The entry of a decision reads back as its record. -/
theorem record_of_decided (hsha : ∀ x, d.crypto.sha256 x ≠ "")
    (h : Decided d src now intent attestation w entry) :
    ∃ record, decisionRecordFromAuditEntry d.crypto entry = some record ∧
      RecordOf d src w now intent attestation record := by
  obtain ⟨⟨decision, inputs, hdecides, hcaptures, hpayload⟩, htype, hts⟩ := h
  refine ⟨{ intent := intent, verdict := decision, policyHash := policyHash d w.store,
            at' := now, inputs := inputs,
            ctxDigest := computeContextDigest d.crypto (replayInputsCodec.encode inputs) },
    ?_, rfl, rfl, hdecides, hcaptures⟩
  have hhash : (JsValue.str (policyHash d w.store)).truthy = true := by
    simp [JsValue.truthy, policyHash, computePolicyHash, hsha]
  have hintent : (intentCodec.encode intent).truthy = true := rfl
  have hverdict : (decisionCodec.encode decision).truthy = true := rfl
  have hinputs : (replayInputsCodec.encode inputs).truthy = true := rfl
  simp [decisionRecordFromAuditEntry, htype, hts, hpayload, stamped, agentPayload, hhash,
    hintent, hverdict, hinputs, Codec.str, Codec.optional]

include C in
/-- **Which agent decisions replay.**  In every run, every agent decision in
the chain was appended by a call of `execute`, and replaying its entry under
the policy of that moment confirms it exactly when the decision is replayable. -/
theorem agent_decision_replays_iff {G : Guard (State σ) Action Event} {s₀ s : State σ}
    {steps : List (Step (State σ) Action Event)} (hrun : (executor d).Run G s₀ steps s)
    (hsha : ∀ x, d.crypto.sha256 x ≠ "") {t : Step (State σ) Action Event} (ht : t ∈ steps)
    (hnew : entry ∈ t.after.world.audit.entries.drop t.before.world.audit.entries.length)
    (htype : entry.type = .gateDecision) (hphase : entry.payload.get "phase" = .str "agent") :
    ∃ now src intent attestation, t.action = .execute now src intent attestation ∧
      (Replays d t.before.world.store entry ↔
        Replayable d src t.before.world now intent attestation) := by
  have htaken : step d t.before t.action = some (t.after, t.events) := hrun.taken_of_mem ht
  obtain ⟨es, hes, hdecided⟩ := agentDecision_of_step htaken
  rw [hes, List.drop_left] at hnew
  obtain ⟨now, src, intent, attestation, haction, hmade⟩ := hdecided entry hnew ⟨htype, hphase⟩
  refine ⟨now, src, intent, attestation, haction, ?_⟩
  obtain ⟨record, hrecord, hof⟩ := record_of_decided hsha hmade
  rw [← replay_matches_iff C hof]
  constructor
  · rintro ⟨record', recomputed, hrecord', hmatch⟩
    rw [hrecord] at hrecord'
    cases hrecord'
    exact ⟨recomputed, hmatch⟩
  · rintro ⟨recomputed, hmatch⟩
    exact ⟨record, recomputed, hrecord, hmatch⟩

end Chain

/-! ## Two runs -/

/-- The replay of the entry's record, if it answers at all. -/
def replayAnswer (d : ExecutorDeps σ) (store : σ) (entry : AuditEntry) : Option Bool :=
  (decisionRecordFromAuditEntry d.crypto entry).bind fun record =>
    (replayDecision record (policyAt d store) d.denyRules).toOption.map Prod.fst

theorem replays_iff {store : σ} {entry : AuditEntry} :
    Replays d store entry ↔ replayAnswer d store entry = some true := by
  simp only [Replays, replayAnswer, Option.bind_eq_some_iff, Option.map_eq_some_iff]
  constructor
  · rintro ⟨record, recomputed, hrecord, hmatch⟩
    exact ⟨record, hrecord, (true, recomputed), by rw [hmatch]; rfl, rfl⟩
  · rintro ⟨record, hrecord, ⟨matched, recomputed⟩, hok, rfl⟩
    refine ⟨record, recomputed, hrecord, ?_⟩
    cases h : replayDecision record (policyAt d store) d.denyRules with
    | ok r =>
        rw [h] at hok
        rw [Option.some.inj hok]
    | error e =>
        rw [h] at hok
        cases hok

namespace Sample

/-- An entry of the agent phase. -/
def agentEntry (entry : AuditEntry) : Bool :=
  decide (entry.type = .gateDecision) && (entry.payload.get "phase").strictEq (.str "agent")

theorem agentDecision_of_agentEntry {entry : AuditEntry} (h : agentEntry entry = true) :
    AgentDecision entry := by
  simpa [agentEntry, AgentDecision] using h

/-- A second mandate, granted first, whose id sorts last. -/
def reordered : State Books := deploy "key"
  { books with mandates := (Table.empty.put { mandate with id := "z" }).put mandate }

end Sample

/-- A payment under the only mandate there is. -/
theorem agent_decision_replays_alone : ∃ steps s, ∃ t ∈ steps, ∃ entry,
    (executor Sample.deps).Run anyStep Sample.start steps s ∧
    entry ∈ t.after.world.audit.entries.drop t.before.world.audit.entries.length ∧
    ∃ now src intent attestation, t.action = .execute now src intent attestation ∧
      (Replays Sample.deps t.before.world.store entry ↔
        Replayable Sample.deps src t.before.world now intent attestation) := by
  obtain ⟨steps, s, hrun, hfound⟩ := System.exists_run (executor Sample.deps)
    anyStep Sample.start [Sample.pay "a" 40]
    (fun steps _ => steps.any fun t =>
      (t.after.world.audit.entries.drop t.before.world.audit.entries.length).any
        Sample.agentEntry) (by decide +kernel)
  obtain ⟨t, ht, hentries⟩ := List.any_eq_true.1 hfound
  obtain ⟨entry, hnew, hagent⟩ := List.any_eq_true.1 hentries
  obtain ⟨htype, hphase⟩ := Sample.agentDecision_of_agentEntry hagent
  exact ⟨steps, s, t, ht, entry, hrun, hnew,
    agent_decision_replays_iff (d := Sample.deps) memoryContract hrun
      (by simp [Sample.deps, Sample.crypto]) ht hnew htype hphase⟩

/-- Two mandates cover the payment: the executor takes the one granted first,
replay the one whose id sorts first. -/
theorem reordered_decision_differs : ∃ steps s, ∃ t ∈ steps, ∃ entry,
    (executor Sample.deps).Run anyStep Sample.reordered steps s ∧
    entry ∈ t.after.world.audit.entries.drop t.before.world.audit.entries.length ∧
    AgentDecision entry ∧ ¬ Replays Sample.deps t.before.world.store entry := by
  obtain ⟨steps, s, hrun, hfound⟩ := System.exists_run (executor Sample.deps)
    anyStep Sample.reordered [Sample.pay "a" 40]
    (fun steps _ => steps.any fun t =>
      (t.after.world.audit.entries.drop t.before.world.audit.entries.length).any fun entry =>
        Sample.agentEntry entry &&
          decide (replayAnswer Sample.deps t.before.world.store entry = some false))
    (by decide +kernel)
  obtain ⟨t, ht, hentries⟩ := List.any_eq_true.1 hfound
  obtain ⟨entry, hnew, hcond⟩ := List.any_eq_true.1 hentries
  rw [Bool.and_eq_true, decide_eq_true_eq] at hcond
  refine ⟨steps, s, t, ht, entry, hrun, hnew, Sample.agentDecision_of_agentEntry hcond.1, ?_⟩
  rw [replays_iff, hcond.2]
  simp

end AgentWorth
