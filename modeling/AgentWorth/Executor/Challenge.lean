import AgentWorth.Executor.Attribution
import AgentWorth.Executor.Authority

/-!
# Approvals without acknowledgement

`execute` scores the risk of a payment with the attestation the agent presents.
`approve` runs the gate again without one, so a payment that was high risk only
because its agent was unverified is not challenged when it is approved.
-/

namespace AgentWorth

open AgentWorth.Js AgentWorth.Lib

variable {σ : Type} {d : ExecutorDeps σ} (C : Contract d.store)

/-- The gate refuses the payment: its floor, or the caps of the selected
mandate. -/
def Refused (intent : PaymentIntent) (ctx : GateContext) : Prop :=
  Floored intent ctx ∨ ∃ m spend, selectMandate intent ctx = some m ∧
    ctx.periodSpendByMandate m.id = .ok spend ∧ OverCap intent ctx m spend

/-- The risk scored under the selected mandate is high. -/
def HighRisk (intent : PaymentIntent) (ctx : GateContext) : Prop :=
  ∃ m spend, selectMandate intent ctx = some m ∧
    ctx.periodSpendByMandate m.id = .ok spend ∧ 4 ≤ (gateRisk intent ctx spend).score

/-- The gate gives no answer: past its floor, the clock does not read as a date
where the gate needs one. -/
def Unanswered (intent : PaymentIntent) (ctx : GateContext) : Prop :=
  ¬ Floored intent ctx ∧ ∃ m, selectMandate intent ctx = some m ∧
    ((∃ e, ctx.periodSpendByMandate m.id = .error e) ∨
      ∃ spend e, ctx.periodSpendByMandate m.id = .ok spend ∧
        ¬ OverCap intent ctx m spend ∧ velocityWindowStart ctx = .error e)

/-- What keeps an unacknowledged approval from settling. -/
def Challenged (d : ExecutorDeps σ) (src : Sources) (store : σ) (now : String)
    (intent : PaymentIntent) : Prop :=
  haltReason d store ≠ none ∨ Unanswered intent (context d src store now intent none) ∨
    ¬ Refused intent (context d src store now intent none) ∧
      (settlementReversibility d intent = .irreversible ∨
        challengeThreshold d ≤ intent.amount ∨
        HighRisk intent (context d src store now intent none))

/-- No provider is asked, no call is left in flight, and the intent is pending. -/
structure StaysParked (d : ExecutorDeps σ) (s s' : State σ) (intentId : String)
    (es : List Event) : Prop where
  unasked : ∀ call provider, .railInvoked call provider ∉ es
  idle : s'.calls = s.calls
  pending : ∃ x, d.store.getIntent s'.world.store intentId = some x ∧ x.status = .pending

/-! ## The gate's verdict in those terms -/

section Verdicts

variable {intent : PaymentIntent} {ctx : GateContext} {decision : GateDecision}

theorem blocks_iff (h : evaluateGate intent ctx = .ok decision) :
    decision.outcome = .block ↔ Refused intent ctx := by
  have hout : decision.verdict.outcome = decision.outcome := rfl
  rcases evaluateGate_cases h with ⟨hfloor, hv⟩ | ⟨hfloor, hnone, hv⟩ |
    ⟨hfloor, m, spend, hsel, hspend, hunder⟩
  · rw [hv] at hout
    exact iff_of_true hout.symm (Or.inl hfloor)
  · rw [hv] at hout
    refine iff_of_false (by rw [← hout]; simp) ?_
    rintro (h | ⟨m, spend, hsel, -⟩)
    · exact hfloor h
    · rw [hnone] at hsel
      cases hsel
  · have hcap : Refused intent ctx ↔ OverCap intent ctx m spend := by
      constructor
      · rintro (h | ⟨m', spend', hsel', hspend', hover⟩)
        · exact absurd h hfloor
        · rw [hsel] at hsel'
          cases hsel'
          rw [hspend] at hspend'
          cases hspend'
          exact hover
      · exact fun hover => Or.inr ⟨m, spend, hsel, hspend, hover⟩
    rw [hcap]
    rcases evaluateUnderMandate_cases hunder with ⟨hover, hv⟩ | ⟨hwithin, ws, -, hv⟩
    · rw [hv] at hout
      exact iff_of_true hout.symm hover
    · rw [hv] at hout
      refine iff_of_false ?_ hwithin
      rw [← hout]
      show ¬ (if _ then _ else _) = _
      split <;> simp

theorem high_iff (h : evaluateGate intent ctx = .ok decision)
    (hpasses : decision.outcome ≠ .block) :
    decision.risk.tier = .high ↔ HighRisk intent ctx := by
  have htier : decision.verdict.tier = decision.risk.tier := rfl
  have hout : decision.verdict.outcome = decision.outcome := rfl
  rcases evaluateGate_cases h with ⟨-, hv⟩ | ⟨-, hnone, hv⟩ | ⟨-, m, spend, hsel, hspend, hunder⟩
  · rw [hv] at hout
    exact absurd hout.symm hpasses
  · rw [hv] at htier
    refine iff_of_false (by rw [← htier]; simp) ?_
    rintro ⟨m, spend, hsel, -⟩
    rw [hnone] at hsel
    cases hsel
  · rw [evaluateUnderMandate_risk hunder]
    show riskTier (gateRisk intent ctx spend).score = .high ↔ _
    rw [riskTier_high_iff]
    constructor
    · exact fun hscore => ⟨m, spend, hsel, hspend, hscore⟩
    · rintro ⟨m', spend', hsel', hspend', hscore⟩
      rw [hsel] at hsel'
      cases hsel'
      rw [hspend] at hspend'
      cases hspend'
      exact hscore

/-- Within the caps, the decision needs the start of the velocity window. -/
theorem evaluateUnderMandate_error_iff {m : Mandate} {spend : List PriorSpend} :
    (∃ e, evaluateUnderMandate intent ctx m spend = .error e) ↔
      ¬ OverCap intent ctx m spend ∧ ∃ e, velocityWindowStart ctx = .error e := by
  by_cases hover : OverCap intent ctx m spend
  · obtain ⟨decision, hok, -⟩ := evaluateUnderMandate_overCap hover
    refine iff_of_false ?_ (fun h => h.1 hover)
    rw [hok]
    rintro ⟨e, ⟨⟩⟩
  · cases hwindow : velocityWindowStart ctx with
    | ok windowStart =>
        obtain ⟨decision, hok, -⟩ := evaluateUnderMandate_within hover hwindow
        refine iff_of_false ?_ ?_
        · rw [hok]
          rintro ⟨e, ⟨⟩⟩
        · rintro ⟨-, e, ⟨⟩⟩
    | error e =>
        refine iff_of_true ?_ ⟨hover, e, rfl⟩
        cases hunder : evaluateUnderMandate intent ctx m spend with
        | error e => exact ⟨e, rfl⟩
        | ok decision =>
            rcases evaluateUnderMandate_cases hunder with ⟨h, -⟩ | ⟨-, ws, h, -⟩
            · exact absurd h hover
            · rw [hwindow] at h
              cases h

/-- The gate throws exactly when it has no answer. -/
theorem unanswered_iff : Unanswered intent ctx ↔ ∃ e, evaluateGate intent ctx = .error e := by
  by_cases hfloor : Floored intent ctx
  · obtain ⟨decision, hok, -⟩ := evaluateGate_floored hfloor
    refine iff_of_false (fun h => h.1 hfloor) ?_
    rw [hok]
    rintro ⟨e, ⟨⟩⟩
  · rcases evaluateGate_unfloored hfloor with ⟨hnone, decision, hok, -⟩ | ⟨m, hsel, heq⟩
    · refine iff_of_false ?_ (by rw [hok]; rintro ⟨e, ⟨⟩⟩)
      rintro ⟨-, m, hsel, -⟩
      rw [hnone] at hsel
      cases hsel
    · have hm : Unanswered intent ctx ↔
          (∃ e, ctx.periodSpendByMandate m.id = .error e) ∨
            ∃ spend e, ctx.periodSpendByMandate m.id = .ok spend ∧
              ¬ OverCap intent ctx m spend ∧ velocityWindowStart ctx = .error e := by
        simp only [Unanswered, hfloor, not_false_eq_true, true_and, hsel, Option.some.injEq,
          exists_eq_left']
      rw [hm, heq]
      cases hspend : ctx.periodSpendByMandate m.id with
      | error e => exact iff_of_true (Or.inl ⟨e, rfl⟩) ⟨e, rfl⟩
      | ok spend =>
          rw [show (Except.ok spend).bind (evaluateUnderMandate intent ctx m) =
            evaluateUnderMandate intent ctx m spend from rfl, evaluateUnderMandate_error_iff]
          constructor
          · rintro (⟨e, ⟨⟩⟩ | ⟨spend', e, h, hwithin, hwindow⟩)
            cases h
            exact ⟨hwithin, e, hwindow⟩
          · rintro ⟨hwithin, e, hwindow⟩
            exact Or.inr ⟨spend, e, rfl, hwithin, hwindow⟩

end Verdicts

theorem requiresChallenge_iff {intent : PaymentIntent} {decision : GateDecision} :
    requiresChallenge d intent decision = true ↔
      decision.risk.tier = .high ∨ settlementReversibility d intent = .irreversible ∨
        challengeThreshold d ≤ intent.amount := by
  simp only [requiresChallenge, Bool.or_eq_true, beq_iff_eq, decide_eq_true_eq, or_assoc]

include C in
/-- **An unacknowledged approval settles nothing exactly when it is
challenged.** -/
theorem stays_parked_iff {src : Sources} {now intentId rationale : String}
    {s s' : State σ} {es : List Event} {x : StoredIntent} (hsync : Synced C s.world)
    (hstored : d.store.getIntent s.world.store intentId = some x)
    (hpending : x.status = .pending)
    (htaken : step d s (.approve now src intentId rationale false) = some (s', es)) :
    StaysParked d s s' intentId es ↔ Challenged d src s.world.store now x.intent := by
  have hrow : (C.books s.world.store).intents.get intentId = some x := by
    rw [← C.getIntent]
    exact hstored
  -- a world with the same records holds the intent as it was
  have hkept : ∀ {w : World σ} {es : List Event},
      SameRecords (C.books s.world.store) (C.books w.store) →
      (∀ e ∈ es, e.isQuiet = true) → StaysParked d s { s with world := w } intentId es := by
    intro w es hsame hquiet
    refine ⟨?_, rfl, x, ?_, hpending⟩
    · intro call provider hmem
      cases hquiet _ hmem
    · rw [C.getIntent]
      show (C.books w.store).intents.get intentId = some x
      rw [hsame.intents, hrow]
  have heq : s.started (approve d src now intentId rationale false s.world) = (s', es) :=
    Option.some.inj htaken
  have hrun := approve_run d src now intentId rationale false s.world
  generalize approve d src now intentId rationale false s.world = r at hrun heq
  cases hrun with
  | missing absent =>
      rw [hstored] at absent
      cases absent
  | settledAlready present closed =>
      rw [hstored] at present
      cases present
      exact absurd hpending closed
  | haltUnrecorded present pending halts recorded =>
      exact absurd hsync (record_error C rfl recorded).2.1
  | halted present pending halts recorded =>
      cases heq
      refine iff_of_true (hkept (record_ok C recorded).same (by simp [Event.isQuiet])) ?_
      exact Or.inl (by simp [halts])
  | undecided present pending runs decides =>
      cases heq
      rw [hstored] at present
      cases present
      exact iff_of_true (hkept (SameRecords.refl _) (by simp [Event.isQuiet]))
        (Or.inr (Or.inl (unanswered_iff.2 ⟨_, decides⟩)))
  | unrecorded present pending runs decides recorded =>
      exact absurd hsync (record_error C rfl recorded).2.1
  | @unblocked _ decision _ w₁ present pending runs decides recorded blocks updated =>
      have hsame := (record_ok C recorded).same
      obtain ⟨store, hok⟩ := C.updateIntent_found w₁.store intentId
        { status := some .blocked, reasons := some decision.reasons } x
        (by rw [hsame.intents]; exact hrow) (by simp)
      rw [hok] at updated
      cases updated
  | @blocked _ decision w₁ w₂ store present pending runs decides recorded blocks updated counted =>
      cases heq
      rw [hstored] at present
      cases present
      refine iff_of_false ?_ ?_
      · rintro ⟨-, -, y, hy, hstatus⟩
        have hsame := (record_ok C recorded).same
        obtain ⟨z, hz, hb⟩ := C.updateIntent_spec updated
        have hcount := (recordOutcome_spec C counted).1
        rw [C.getIntent] at hy
        have hy' : (C.books w₂.store).intents.get intentId = some y := hy
        rw [hcount.intents, show C.books store = _ from hb, Table.get_put] at hy'
        rw [hsame.intents, hrow] at hz
        cases hz
        rw [IntentUpdate.apply_id, Table.key_of_get hrow, if_pos rfl] at hy'
        cases hy'
        cases hstatus
      · rintro (h | h | ⟨h, -⟩)
        · exact h runs
        · obtain ⟨e, h⟩ := unanswered_iff.1 h
          rw [decides] at h
          cases h
        · exact h ((blocks_iff decides).1 blocks)
  | challenged present pending runs decides recorded passes challenges =>
      cases heq
      rw [hstored] at present
      cases present
      refine iff_of_true (hkept (record_ok C recorded).same (by simp [Event.isQuiet])) ?_
      refine Or.inr (Or.inr ⟨fun h => passes ((blocks_iff decides).2 h), ?_⟩)
      rw [Bool.not_false, Bool.and_true] at challenges
      rcases requiresChallenge_iff.1 challenges with h | h | h
      · exact Or.inr (Or.inr ((high_iff decides passes).1 h))
      · exact Or.inl h
      · exact Or.inr (Or.inl h)
  | @authorized _ decision _ present pending runs decides recorded passes unchallenged =>
      cases heq
      rw [hstored] at present
      cases present
      refine iff_of_false ?_ ?_
      · rintro ⟨-, hidle, -⟩
        have hlen := congrArg List.length hidle
        simp at hlen
      · rw [Bool.not_false, Bool.and_true] at unchallenged
        have hnot : ¬ requiresChallenge d x.intent decision = true := by simp [unchallenged]
        rw [requiresChallenge_iff, not_or, not_or] at hnot
        obtain ⟨hhigh, hrev, hlarge⟩ := hnot
        rintro (h | h | ⟨-, h | h | h⟩)
        · exact h runs
        · obtain ⟨e, h⟩ := unanswered_iff.1 h
          rw [decides] at h
          cases h
        · exact hrev h
        · exact hlarge h
        · exact hhigh ((high_iff decides passes).2 h)

/-! ## What the attestation contributed -/

theorem escalate_risk (alert : RiskChainAlert) (decision : GateDecision) :
    (escalate alert decision).risk = decision.risk := by
  unfold escalate
  split
  · split <;> rfl
  · rfl

/-- The score of a payment is what it scores without the attestation, and the
attestation's part. -/
theorem gateRisk_score (d : ExecutorDeps σ) (src : Sources) (store : σ) (now : String)
    (intent : PaymentIntent) (attestation : Option Attestation) (spend : List PriorSpend) :
    (gateRisk intent (context d src store now intent attestation) spend).score =
      attestationScore attestation +
        (gateRisk intent (context d src store now intent none) spend).score :=
  classifySpendRisk_score intent _

/-- A high score without an attestation is a high score that an unverified
agent did not tip. -/
theorem high_without_attestation_iff {attestation : Option Attestation} {score : Int}
    (hhigh : 4 ≤ attestationScore attestation + score) :
    4 ≤ score ↔
      attestation ≠ some .none ∨ 5 ≤ attestationScore attestation + score := by
  rcases attestation with _ | _ | _ | _ <;>
    simp [attestationScore, attestationSignal] at hhigh ⊢ <;> omega

/-! ## What `execute` leaves when it parks a payment -/

/-- Everything but mandates and period spend that a decision reads of a store. -/
structure SameStanding (d : ExecutorDeps σ) (store store' : σ) : Prop where
  halts : haltReason d store' = haltReason d store
  settledCount : ∀ payee,
    d.store.payeeSettledCount store' payee = d.store.payeeSettledCount store payee
  known : setOf (d.store.knownPayees store') = setOf (d.store.knownPayees store)

/-- A row that has not settled does not count. -/
theorem sameStanding_filed {store store' : σ} {x : StoredIntent}
    (hfresh : (C.books store).intents.get x.id = none)
    (hmeta : (C.books store').meta' = (C.books store).meta')
    (hfiled : (C.books store').intents = (C.books store).intents.put (C.saved x))
    (hstatus : x.status ≠ .settled) : SameStanding d store store' := by
  have hvalues : (C.books store').intents.values =
      (C.books store).intents.values ++ [C.saved x] := by
    rw [hfiled, Table.values_put_of_none (by rw [C.saved_id]; exact hfresh)]
  have hpayees : (C.books store').settledPayees = (C.books store).settledPayees := by
    rw [Books.settledPayees, Books.settledPayees, hvalues, List.filter_append]
    simp [hstatus]
  refine ⟨?_, ?_, ?_⟩
  · simp only [haltReason, isKilled, breakerOpen, failures, C.getMeta, hmeta]
  · intro payee
    rw [C.payeeSettledCount, C.payeeSettledCount, Books.payeeSettledCount,
      Books.payeeSettledCount, hvalues, List.filter_append]
    simp [hstatus]
  · funext payee
    rw [Bool.eq_iff_iff, setOf, setOf, List.contains_iff_mem, List.contains_iff_mem,
      C.knownPayees, C.knownPayees, hpayees]

structure Parked (d : ExecutorDeps σ) (src : Sources) (now : String) (intent : PaymentIntent)
    (attestation : Option Attestation) (w w' : World σ) (decision : GateDecision) : Prop where
  runs : haltReason d w.store = none
  decides : agentDecision d src w now intent attestation = .ok decision
  confirms : decision.outcome = .confirmOperator
  stored : ∃ x, d.store.getIntent w'.store intent.id = some x ∧ x.intent = intent ∧
    x.status = .pending
  standing : SameStanding d w.store w'.store

include C in
theorem parked_of_returned {src : Sources} {now : String} {intent : PaymentIntent}
    {attestation : Option Attestation} {s s' : State σ} {es : List Event}
    {result : ExecuteResult}
    (htaken : step d s (.execute now src intent attestation) = some (s', es))
    (hreturned : .returned result ∈ es) (hparked : result.status = .pending) :
    Parked d src now intent attestation s.world s'.world result.decision := by
  have heq : s.started (execute d src now intent attestation s.world) = (s', es) :=
    Option.some.inj htaken
  have hrun := execute_run d src now intent attestation s.world
  generalize execute d src now intent attestation s.world = r at hrun heq
  cases hrun with
  | @parked decision inputs w₁ store runs decides captures recorded confirms filed =>
      cases heq
      cases List.mem_singleton.1 hreturned
      let row := unsettled intent .pending decision.mandateId decision.reasons
      obtain ⟨rows, hb₁⟩ := (record_ok C recorded).books
      obtain ⟨hfresh, hb⟩ := C.insertIntent_spec filed
      rw [hb₁] at hfresh hb
      have hintents : (C.books store).intents =
          (C.books s.world.store).intents.put (C.saved row) := by rw [hb]
      refine ⟨runs, decides, confirms, ⟨C.saved row, ?_, C.saved_intent row,
        C.saved_status row⟩, sameStanding_filed C hfresh (by rw [hb]) hintents
          (by simp [unsettled])⟩
      rw [C.getIntent]
      show (C.books store).intents.get row.id = _
      rw [hintents, ← C.saved_id, Table.get_put_self]
  | halted halts recorded filed =>
      cases heq
      cases List.mem_singleton.1 hreturned
      cases hparked
  | blocked runs decides captures recorded blocks filed counted =>
      cases heq
      cases List.mem_singleton.1 hreturned
      cases hparked
  | authorized runs decides captures recorded automatic =>
      cases heq
      split at hreturned <;> simp at hreturned
  | haltUnrecorded halts recorded =>
      cases heq
      simp at hreturned
  | haltUnfiled halts recorded filed =>
      cases heq
      simp at hreturned
  | undecided runs decides =>
      cases heq
      simp at hreturned
  | uncaptured runs decides captures =>
      cases heq
      simp at hreturned
  | unrecorded runs decides captures recorded =>
      cases heq
      simp at hreturned
  | unfiled runs decides captures recorded parks filed =>
      cases heq
      simp at hreturned

/-- The two evaluations differ only in the attestation. -/
theorem gates_compare {src src' : Sources} {store store' : σ} (now now' : String)
    (intent : PaymentIntent) (attestation : Option Attestation)
    (hstanding : SameStanding d store store') (hrep : src'.reputation = src.reputation)
    (hfx : src'.fxRates = src.fxRates) (m : Mandate) (spend : List PriorSpend) :
    (Floored intent (context d src' store' now' intent none) ↔
      Floored intent (context d src store now intent attestation)) ∧
    (OverCap intent (context d src' store' now' intent none) m spend ↔
      OverCap intent (context d src store now intent attestation) m spend) ∧
    (gateRisk intent (context d src store now intent attestation) spend).score =
      attestationScore attestation +
        (gateRisk intent (context d src' store' now' intent none) spend).score := by
  refine ⟨?_, ?_, ?_⟩
  · simp only [Floored, denyingRule, gateReversibility, context, hstanding.known]
  · simp only [OverCap, remainingBudget, amountInMandate, context, hfx]
  · rw [gateRisk_score]
    simp only [gateRisk, gateTrust, gateReversibility, context, hstanding.settledCount, hrep]

/-- The reputation source and the store are as they were when `execute` parked
the payment: the approval decides under the same mandate and spend, at the same
rates. -/
theorem challenged_iff {src src' : Sources} {w w' : World σ} {now now' : String}
    {intent : PaymentIntent} {attestation : Option Attestation} {decision : GateDecision}
    (hparked : Parked d src now intent attestation w w' decision)
    (hhigh : decision.risk.tier = .high) (hrep : src'.reputation = src.reputation)
    (hfx : src'.fxRates = src.fxRates) {m : Mandate} {spend : List PriorSpend}
    (hsel : selectMandate intent (context d src w.store now intent attestation) = some m)
    (hsel' : selectMandate intent (context d src' w'.store now' intent none) = some m)
    (hspend : d.store.periodSpend w.store m.id now = .ok spend)
    (hspend' : d.store.periodSpend w'.store m.id now' = .ok spend) :
    Challenged d src' w'.store now' intent ↔
      (∃ e, velocityWindowStart (context d src' w'.store now' intent none) = .error e) ∨
        settlementReversibility d intent = .irreversible ∨
        challengeThreshold d ≤ intent.amount ∨
        attestation ≠ some .none ∨ 5 ≤ decision.risk.score := by
  obtain ⟨hfloor, hcap, hscore⟩ := gates_compare now now' intent attestation
    hparked.standing hrep hfx m spend
  obtain ⟨gated, hgate, hesc⟩ := except_map_eq_ok.1 hparked.decides
  have hrisk : decision.risk = gated.risk := by rw [← hesc, escalate_risk]
  have hpasses : gated.outcome ≠ .block := by
    intro hblock
    have hv := congrArg Verdict.outcome
      (escalate_verdict (chainAlert d w now intent gated) gated)
    rw [hesc, hblock] at hv
    have hout : decision.verdict.outcome = .confirmOperator := hparked.confirms
    simp [hout] at hv
  have hnot := fun h => hpasses ((blocks_iff hgate).2 h)
  -- neither the floor nor the caps refuse now, since they did not then
  have hunfloored : ¬ Floored intent (context d src' w'.store now' intent none) :=
    fun h => hnot (Or.inl (hfloor.1 h))
  have hwithin : ¬ OverCap intent (context d src' w'.store now' intent none) m spend :=
    fun h => hnot (Or.inr ⟨m, spend, hsel, hspend, hcap.1 h⟩)
  have hrefused : ¬ Refused intent (context d src' w'.store now' intent none) := by
    rintro (h | ⟨m', spend', hm, hs, hover⟩)
    · exact hunfloored h
    · rw [hsel'] at hm
      cases hm
      rw [show (context d src' w'.store now' intent none).periodSpendByMandate m.id =
        .ok spend from hspend'] at hs
      cases hs
      exact hwithin hover
  have hunanswered : Unanswered intent (context d src' w'.store now' intent none) ↔
      ∃ e, velocityWindowStart (context d src' w'.store now' intent none) = .error e := by
    constructor
    · rintro ⟨-, m', hm, ⟨e, he⟩ | ⟨spend', e, -, -, he⟩⟩
      · rw [hsel'] at hm
        cases hm
        rw [show (context d src' w'.store now' intent none).periodSpendByMandate m.id =
          .ok spend from hspend'] at he
        cases he
      · exact ⟨e, he⟩
    · rintro ⟨e, he⟩
      exact ⟨hunfloored, m, hsel', Or.inr ⟨spend, e, hspend', hwithin, he⟩⟩
  -- the score then is the score now and what the attestation added
  have hscores : decision.risk.score = attestationScore attestation +
      (gateRisk intent (context d src' w'.store now' intent none) spend).score := by
    rw [← hscore, hrisk]
    rcases evaluateGate_cases hgate with ⟨h, -⟩ | ⟨-, hnone, -⟩ | ⟨-, m', spend', hm, hs, hunder⟩
    · exact absurd (Or.inl h) hnot
    · rw [hnone] at hsel
      cases hsel
    · rw [hsel] at hm
      cases hm
      rw [show (context d src w.store now intent attestation).periodSpendByMandate m.id =
        .ok spend from hspend] at hs
      cases hs
      rw [evaluateUnderMandate_risk hunder]
  have hhighnow : HighRisk intent (context d src' w'.store now' intent none) ↔
      attestation ≠ some .none ∨ 5 ≤ decision.risk.score := by
    have hfour : 4 ≤ decision.risk.score := by
      rw [← riskTier_high_iff, ← hhigh, hrisk]
      obtain ⟨m', spend', hm, hs, -⟩ := (high_iff hgate hpasses).1 (hrisk ▸ hhigh)
      rcases evaluateGate_cases hgate with ⟨h, -⟩ | ⟨-, hnone, -⟩ | ⟨-, _, _, -, -, hunder⟩
      · exact absurd (Or.inl h) hnot
      · rw [hnone] at hm
        cases hm
      · rw [evaluateUnderMandate_risk hunder]
        rfl
    rw [hscores] at hfour ⊢
    rw [← high_without_attestation_iff hfour]
    constructor
    · rintro ⟨m', spend', hm, hs, h⟩
      rw [hsel'] at hm
      cases hm
      rw [show (context d src' w'.store now' intent none).periodSpendByMandate m.id =
        .ok spend from hspend'] at hs
      cases hs
      exact h
    · exact fun h => ⟨m, spend, hsel', hspend', h⟩
  have hruns : haltReason d w'.store = none := by rw [hparked.standing.halts, hparked.runs]
  simp only [Challenged, hruns, hunanswered, hrefused, hhighnow, ne_eq, not_true_eq_false,
    not_false_eq_true, true_and, false_or]

/-- **A parked high-risk payment is not settled without acknowledgement,
exactly when the approval is challenged.**  Under the mandate and the spend of
the first decision, an unverified agent whose score was four is the one whose
approval needs no acknowledgement. -/
theorem unacknowledged_approval_iff {s s₁ s₂ s₃ : State σ} {now now' rationale : String}
    {src src' : Sources} {intent : PaymentIntent} {attestation : Option Attestation}
    {result : ExecuteResult} {es es' : List Event}
    (hexecute : (executor d).step s (.execute now src intent attestation) = some (s₁, es))
    (hreturned : .returned result ∈ es) (hparked : result.status = .pending)
    (hhigh : result.decision.risk.tier = .high)
    (hsync : Synced C s₂.world) (hstore : s₂.world.store = s₁.world.store)
    (hrep : src'.reputation = src.reputation)
    (happrove : (executor d).step s₂ (.approve now' src' intent.id rationale false) =
      some (s₃, es')) :
    (StaysParked d s₂ s₃ intent.id es' ↔ Challenged d src' s₁.world.store now' intent) ∧
    ∀ m spend, src'.fxRates = src.fxRates →
      selectMandate intent (context d src s.world.store now intent attestation) = some m →
      selectMandate intent (context d src' s₁.world.store now' intent none) = some m →
      d.store.periodSpend s.world.store m.id now = .ok spend →
      d.store.periodSpend s₁.world.store m.id now' = .ok spend →
      (Challenged d src' s₁.world.store now' intent ↔
        (∃ e, velocityWindowStart (context d src' s₁.world.store now' intent none) =
          .error e) ∨
        settlementReversibility d intent = .irreversible ∨
        challengeThreshold d ≤ intent.amount ∨
        attestation ≠ some .none ∨ 5 ≤ result.decision.risk.score) := by
  have hleft := parked_of_returned C hexecute hreturned hparked
  refine ⟨?_, ?_⟩
  · obtain ⟨x, hx, hintent, hpending⟩ := hleft.stored
    rw [← hstore] at hx
    have h := stays_parked_iff C hsync hx hpending happrove
    rwa [hintent, hstore] at h
  · intro m spend hfx hsel hsel' hspend hspend'
    exact challenged_iff hleft hhigh hrep hfx hsel hsel' hspend hspend'

/-! ## Two runs -/

namespace Sample

def wellReputed : Sources := { reputation := some fun _ => .good }

def newcomer (id : String) (amount : JsNumber) : PaymentIntent :=
  { intent id amount with payee := "newco" }

/-- A newcomer is paid by an agent that could not be verified. -/
def payUnverified (src : Sources) (id : String) (amount : JsNumber) : Action :=
  .execute noon src (newcomer id amount) (some .none)

/-- A payment of 10, so that 40 is out of line with the period. -/
def paidTen : List Action := [pay "a" 10, settles 0 "a" 10, .resume 0]

/-- What an event says of a payment `execute` left to the operator. -/
def parkedHigh : Event → Bool
  | .returned result =>
      decide (result.status = .pending) && decide (result.decision.risk.tier = .high)
  | _ => false

theorem returned_of_parkedHigh {e : Event} (h : parkedHigh e = true) :
    ∃ result, e = .returned result ∧ result.status = .pending ∧
      result.decision.risk.tier = .high := by
  cases e with
  | returned result =>
      simp only [parkedHigh, Bool.and_eq_true, decide_eq_true_eq] at h
      exact ⟨result, rfl, h⟩
  | _ => cases h

end Sample

/-- Score five without a verified agent, so four without the attestation. -/
theorem unacknowledged_approval_challenged :
    ∃ s s₁ s₃ : State Books, ∃ es', ∃ result : ExecuteResult,
    (StaysParked Sample.deps s₁ s₃ "b" es' ↔
      Challenged Sample.deps {} s₁.world.store Sample.noon (Sample.newcomer "b" 40)) ∧
    ∃ m spend,
      selectMandate (Sample.newcomer "b" 40) (context Sample.deps {} s.world.store
        Sample.noon (Sample.newcomer "b" 40) (some .none)) = some m ∧
      Sample.deps.store.periodSpend s.world.store m.id Sample.noon = .ok spend ∧
      (Challenged Sample.deps {} s₁.world.store Sample.noon (Sample.newcomer "b" 40) ↔
        (∃ e, velocityWindowStart (context Sample.deps {} s₁.world.store Sample.noon
          (Sample.newcomer "b" 40) none) = .error e) ∨
        settlementReversibility Sample.deps (Sample.newcomer "b" 40) = .irreversible ∨
        challengeThreshold Sample.deps ≤ (Sample.newcomer "b" 40).amount ∨
        some Attestation.none ≠ some .none ∨ 5 ≤ result.decision.risk.score) := by
  obtain ⟨before, s, hrun, hfound⟩ := System.exists_run (executor Sample.deps)
    anyStep Sample.start Sample.paidTen
    (fun _ s => ((executor Sample.deps).step s (Sample.payUnverified {} "b" 40)).any fun r =>
      r.2.any Sample.parkedHigh &&
        (((executor Sample.deps).step r.1 (Sample.approves "b")).isSome &&
        decide (selectMandate (Sample.newcomer "b" 40) (context Sample.deps {} s.world.store
            Sample.noon (Sample.newcomer "b" 40) (some .none)) = some Sample.mandate ∧
          selectMandate (Sample.newcomer "b" 40) (context Sample.deps {} r.1.world.store
            Sample.noon (Sample.newcomer "b" 40) none) = some Sample.mandate ∧
          (Sample.deps.store.periodSpend s.world.store "m" Sample.noon).toOption =
            some [⟨10, Sample.noon⟩] ∧
          (Sample.deps.store.periodSpend r.1.world.store "m" Sample.noon).toOption =
            some [⟨10, Sample.noon⟩]))) (by decide +kernel)
  obtain ⟨⟨s₁, es⟩, hexecute, hcond⟩ := (Option.any_eq_true _ _).1 hfound
  simp only [Bool.and_eq_true, Option.isSome_iff_exists, decide_eq_true_eq] at hcond
  obtain ⟨hparked, ⟨⟨s₃, es'⟩, happrove⟩, hsel, hsel', hspend, hspend'⟩ := hcond
  obtain ⟨e, he, hhigh⟩ := List.any_eq_true.1 hparked
  obtain ⟨result, rfl, hpending, htier⟩ := Sample.returned_of_parkedHigh hhigh
  have htaken : step Sample.deps s (Sample.payUnverified {} "b" 40) = some (s₁, es) := hexecute
  have hsync : Synced (d := Sample.deps) memoryContract s₁.world :=
    (step_effect (d := Sample.deps) memoryContract htaken).2
      (inFlight_run (d := Sample.deps) memoryContract (by simp [Sample.start, deploy])
        Sample.synced_start hrun).2
  have hfinal := unacknowledged_approval_iff (d := Sample.deps) memoryContract hexecute he
    hpending htier hsync rfl (by rfl) happrove
  have hok : ∀ {x : Except String (List PriorSpend)} {spend : List PriorSpend},
      x.toOption = some spend → x = .ok spend := by
    rintro (_ | _) spend ⟨⟩
    rfl
  exact ⟨s, s₁, s₃, es', result, hfinal.1, Sample.mandate, _, hsel, hok hspend,
    hfinal.2 _ _ rfl hsel hsel' (hok hspend) (hok hspend')⟩

/-- With a well-reputed payee the score is four, three without the attestation:
parked as high risk, and settled by a bare rationale. -/
theorem unverified_agent_rubber_stamped :
    ∃ s s₁ s₃ : State Books, ∃ steps es es', ∃ result : ExecuteResult,
    (executor Sample.deps).Run anyStep Sample.start steps s ∧
    (executor Sample.deps).step s (Sample.payUnverified Sample.wellReputed "b" 40) =
      some (s₁, es) ∧
    .returned result ∈ es ∧ result.status = .pending ∧ result.decision.risk.tier = .high ∧
    (executor Sample.deps).step s₁
      (.approve Sample.noon Sample.wellReputed "b" "known vendor" false) = some (s₃, es') ∧
    ∃ call provider, .railInvoked call provider ∈ es' := by
  obtain ⟨steps, s, hrun, hfound⟩ := System.exists_run (executor Sample.deps)
    anyStep Sample.start Sample.paidTen
    (fun _ s => ((executor Sample.deps).step s
        (Sample.payUnverified Sample.wellReputed "b" 40)).any fun r =>
      r.2.any Sample.parkedHigh && ((executor Sample.deps).step r.1
        (.approve Sample.noon Sample.wellReputed "b" "known vendor" false)).any fun r' =>
          r'.2.any fun e => e.railCall.isSome) (by decide +kernel)
  obtain ⟨⟨s₁, es⟩, hexecute, hcond⟩ := (Option.any_eq_true _ _).1 hfound
  rw [Bool.and_eq_true, List.any_eq_true, Option.any_eq_true] at hcond
  obtain ⟨⟨e, he, hhigh⟩, ⟨s₃, es'⟩, happrove, hasked⟩ := hcond
  obtain ⟨result, rfl, hpending, htier⟩ := Sample.returned_of_parkedHigh hhigh
  obtain ⟨e', he', hcall⟩ := List.any_eq_true.1 hasked
  obtain ⟨call, provider, rfl⟩ := railInvoked_of_isSome hcall
  exact ⟨s, s₁, s₃, steps, es, es', result, hrun, hexecute, he, hpending, htier, happrove,
    call, provider, he'⟩

end AgentWorth
