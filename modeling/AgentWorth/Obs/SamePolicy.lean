import AgentWorth.Executor.Rows
import AgentWorth.Obs.Retrace

/-!
# Replaying a log against its own policy

Under the mandates, the configuration and the deny rules of the executor that
wrote the log, the simulator should change no outcome.  It does so in every run
that decides only what the log retraces.
-/

namespace AgentWorth

open AgentWorth.Js AgentWorth.Lib

/-- The policy of the executor itself, as a candidate. -/
def ownPolicy {σ : Type} (d : ExecutorDeps σ) (store : σ) : ReplayCandidate where
  mandates := d.store.listMandates store
  config := some d.config
  denyRules := some d.denyRules

/-! ## One entry -/

section

variable {σ : Type} {d : ExecutorDeps σ} (C : Contract d.store) {src : Sources} {w : World σ}
  {now : String} {intent : PaymentIntent} {attestation : Option Attestation}
  {entry : AuditEntry}

/-- What the simulator reads of a decision of `execute`. -/
def payloadOf (intent : PaymentIntent) (decision : GateDecision) (inputs : ReplayInputs) :
    DecisionPayload where
  outcome := decision.outcome
  intent := intent
  reversibility := inputs.reversibility
  attestation := inputs.attestation
  reputation := inputs.reputation
  trust := inputs.trust

/-- What the payload of a decision tells the simulator. -/
theorem read_agentPayload {store : σ} {decision : GateDecision} {inputs : ReplayInputs} :
    DecisionPayload.read
        (stamped d store .gateDecision (agentPayload d intent decision inputs)) =
      some (payloadOf intent decision inputs) := by
  simp [DecisionPayload.read, stamped, agentPayload, replayInputsCodec, payloadOf]

include C in
/-- A payee is known where settlements to it are counted. -/
theorem known_iff_trust {store : σ} {payee : String} :
    setOf (d.store.knownPayees store) payee = true ↔
      payeeTrust (d.store.payeeSettledCount store payee) ≠ .new := by
  have hcount : payee ∈ (C.books store).settledPayees ↔
      0 < (C.books store).payeeSettledCount payee := by
    unfold Books.settledPayees Books.payeeSettledCount
    simp only [List.mem_map, List.mem_filter, List.length_pos_iff_exists_mem, Bool.and_eq_true,
      beq_iff_eq, and_assoc]
  rw [setOf, List.contains_iff_mem, C.knownPayees, C.payeeSettledCount, hcount, payeeTrust]
  split
  · next htrusted =>
      simp only [trustedAt] at htrusted
      simp only [ne_eq, reduceCtorEq, not_false_eq_true, iff_true]
      omega
  · split
    · next hseen =>
        simp only [ne_eq, reduceCtorEq, not_false_eq_true, iff_true]
        omega
    · next hnew =>
        simp only [ne_eq, not_true_eq_false, iff_false]
        omega

include C in
/-- The context of the replay is the one told from the log. -/
theorem simContext_eq {settled : JsMap (List PriorSpend)} (decision : GateDecision)
    {inputs : ReplayInputs}
    (hcaptured : replayInputs d src w.store now intent attestation = .ok inputs)
    (hsettled : ∀ id, (settled.get id).getD [] = executedUnder id w.audit.entries) :
    simContext (ownPolicy d w.store) settled (payloadOf intent decision inputs) =
      retold d src w now intent attestation := by
  obtain ⟨spends, -, rfl⟩ := except_map_eq_ok.1 hcaptured
  generalize hpayload : payloadOf intent decision _ = p
  have hspend : (simContext (ownPolicy d w.store) settled p).periodSpendByMandate =
      (retold d src w now intent attestation).periodSpendByMandate := by
    funext id
    show spendSince (d.store.listMandates w.store) p.intent.createdAt id _ = _
    rw [hsettled, ← hpayload]
    rfl
  have hknown : (simContext (ownPolicy d w.store) settled p).knownPayees =
      (retold d src w now intent attestation).knownPayees := by
    have htrust : p.recordedTrust =
        payeeTrust (d.store.payeeSettledCount w.store intent.payee) := by
      rw [← hpayload]
      rfl
    have hpayee : p.intent.payee = intent.payee := by
      rw [← hpayload]
      rfl
    funext payee
    show (if p.recordedTrust = .new then setOf [] else setOf [p.intent.payee]) payee =
      (payee == intent.payee && setOf (d.store.knownPayees w.store) payee)
    rw [htrust, hpayee, Bool.eq_iff_iff, Bool.and_eq_true, beq_iff_eq]
    split
    · next hnew =>
        simp only [setOf, List.contains_nil, Bool.false_eq_true, false_iff, not_and]
        rintro rfl hmem
        exact (known_iff_trust C).1 hmem hnew
    · next hold =>
        simp only [setOf, List.contains_cons, List.contains_nil, Bool.or_false, beq_iff_eq]
        constructor
        · rintro rfl
          exact ⟨rfl, (known_iff_trust C).2 hold⟩
        · exact And.left
  have hreputation : (simContext (ownPolicy d w.store) settled p).reputationOf =
      (retold d src w now intent attestation).reputationOf := by
    rw [← hpayload]
    show Option.map _ (Option.map _ src.reputation) = _
    rw [Option.map_map]
    rfl
  calc simContext (ownPolicy d w.store) settled p
      = { retold d src w now intent attestation with
          periodSpendByMandate :=
            (simContext (ownPolicy d w.store) settled p).periodSpendByMandate
          knownPayees := (simContext (ownPolicy d w.store) settled p).knownPayees
          reputationOf := (simContext (ownPolicy d w.store) settled p).reputationOf } := by
        rw [← hpayload]
        rfl
    _ = retold d src w now intent attestation := by rw [hspend, hknown, hreputation]

/-- The payment a decision executes under a mandate. -/
theorem executed_decided {store : σ} {decision : GateDecision} {inputs : ReplayInputs}
    (htype : entry.type = .gateDecision)
    (hpayload : entry.payload =
      stamped d store .gateDecision (agentPayload d intent decision inputs)) (id : String) :
    executed id entry =
      if decision.outcome = .autoExecute ∧ id ≠ "" ∧ decision.mandateId = some id then
        some { amount := intent.amount, at' := intent.createdAt }
      else none := by
  have hid : (idCodec.encode decision.mandateId = .str id) ↔ decision.mandateId = some id := by
    cases decision.mandateId <;> simp [idCodec, Codec.nullable, Codec.str]
  have hmembers : entry.payload.get "phase" = .str "agent" ∧
      entry.payload.get "outcome" = outcomeCodec.encode decision.outcome ∧
      entry.payload.get "mandateId" = idCodec.encode decision.mandateId ∧
      entry.payload.get "intent" = intentCodec.encode intent := by
    rw [hpayload]
    simp [stamped, agentPayload]
  obtain ⟨hphase, houtcome, hmandateId, hintent⟩ := hmembers
  simp only [executed, htype, hphase, houtcome, hmandateId, hintent, JsValue.strictEq_str,
    encode_outcome_eq_iff, hid, Codec.decode_encode, Option.map_some, true_and]

/-- What a replayed decision adds to the spend under a mandate. -/
theorem settleUnder_get {settled : JsMap (List PriorSpend)} {decision : GateDecision}
    (id : String) :
    ((settleUnder settled intent decision).get id).getD [] =
      (settled.get id).getD [] ++
        (if decision.outcome = .autoExecute ∧ id ≠ "" ∧ decision.mandateId = some id then
          some { amount := intent.amount, at' := intent.createdAt : PriorSpend }
        else none).toList := by
  unfold settleUnder
  split
  · next id' hout hid' =>
      rw [hout, hid']
      by_cases hempty : id' = ""
      · subst hempty
        have hnot : ¬ (id ≠ "" ∧ some "" = some id) := by
          rintro ⟨hne, heq⟩
          exact hne (Option.some.inj heq).symm
        rw [if_neg (by simp), if_neg fun h => hnot h.2]
        simp
      · by_cases hid : id' = id
        · subst hid
          simp [hempty]
        · simp [hempty, hid, JsMap.get_set, Ne.symm hid]
  · next hnot =>
      rw [if_neg]
      · simp
      · rintro ⟨hout, -, hid⟩
        exact hnot id hout hid

include C in
/-- **A decision that can be retraced is replayed unchanged**, and is counted as
the log counts it. -/
theorem replayEntry_decided {st : Replaying}
    (hdecided : Decided d src now intent attestation w entry)
    (hretraceable : Retraceable d src w now intent attestation)
    (hsettled : ∀ id, (st.settledByMandate.get id).getD [] = executedUnder id w.audit.entries) :
    ∃ st' record, replayEntry (ownPolicy d w.store) st entry = .ok st' ∧
      st'.records = st.records ++ [record] ∧ record.changed = false ∧
      ∀ id, (st'.settledByMandate.get id).getD [] =
        executedUnder id (w.audit.entries ++ [entry]) := by
  obtain ⟨⟨decision, inputs, hdecides, hcaptured, hpayload⟩, htype, -⟩ := hdecided
  obtain ⟨gated, hgate, hescalated⟩ := except_map_eq_ok.1 hdecides
  -- the recorded decision is the one the gate made
  have hverdict := escalate_verdict (chainAlert d w now intent gated) gated
  rw [hescalated, if_neg fun h => hretraceable.unescalated
    ((escalates_iff C hgate).2 ⟨h.2, h.1⟩)] at hverdict
  have houtcome : decision.outcome = gated.outcome := congrArg Verdict.outcome hverdict
  have hmandateId : decision.mandateId = gated.mandateId := congrArg Verdict.mandateId hverdict
  obtain ⟨replayed, hreplay, hout, hid⟩ := hretraceable.alike.decides hgate
  rw [← simContext_eq C decision hcaptured hsettled] at hreplay
  refine ⟨{ settledByMandate := settleUnder st.settledByMandate intent replayed
            records := st.records ++ [replayRecord (payloadOf intent decision inputs) replayed] },
    replayRecord (payloadOf intent decision inputs) replayed, ?_, rfl, ?_, ?_⟩
  · unfold replayEntry
    rw [hpayload, read_agentPayload]
    show (evaluateGate intent _).map _ = _
    rw [hreplay]
    rfl
  · show (decision.outcome != replayed.outcome) = false
    rw [hout, houtcome, bne_self_eq_false]
  · intro id
    show ((settleUnder st.settledByMandate intent replayed).get id).getD [] = _
    rw [settleUnder_get, hsettled, executedUnder, executedUnder, List.filterMap_append, hout, hid,
      ← houtcome, ← hmandateId]
    congr 1
    rw [← executed_decided htype hpayload]
    simp [List.filterMap_cons]
    cases executed id entry <;> rfl

end

/-! ## The loop over a log -/

section

variable {candidate : ReplayCandidate} {entries : List AuditEntry} {e : AuditEntry}

theorem replayable_snoc (entries : List AuditEntry) (e : AuditEntry) :
    replayable (entries ++ [e]) = (replayable entries).bind fun decisions =>
      (isReplayable e).map fun kept => if kept then decisions ++ [e] else decisions := by
  induction entries with
  | nil =>
      simp only [List.nil_append, replayable]
      cases isReplayable e <;> rfl
  | cons a entries ih =>
      simp only [List.cons_append, replayable, ih]
      cases isReplayable a with
      | error _ => rfl
      | ok kept =>
          cases replayable entries with
          | error _ => rfl
          | ok decisions =>
              cases isReplayable e with
              | error _ => rfl
              | ok kept' => cases kept <;> cases kept' <;> rfl

/-- An entry the filter drops leaves the replay as it is. -/
theorem replayEntries_skip (hskip : isReplayable e = .ok false) :
    replayEntries candidate (entries ++ [e]) = replayEntries candidate entries := by
  unfold replayEntries
  rw [replayable_snoc, hskip]
  cases replayable entries <;> rfl

/-- An entry it keeps is replayed after the others. -/
theorem replayEntries_snoc (hkept : isReplayable e = .ok true) :
    replayEntries candidate (entries ++ [e]) =
      (replayEntries candidate entries).bind fun st => replayEntry candidate st e := by
  unfold replayEntries
  rw [replayable_snoc, hkept]
  cases replayable entries with
  | error _ => rfl
  | ok decisions =>
      show (decisions ++ [e]).foldlM (replayEntry candidate) {} =
        Except.bind (decisions.foldlM (replayEntry candidate) {}) fun st =>
          replayEntry candidate st e
      rw [List.foldlM_append]
      cases decisions.foldlM (replayEntry candidate) {} with
      | error _ => rfl
      | ok st =>
          show Except.bind (replayEntry candidate st e) _ = replayEntry candidate st e
          cases replayEntry candidate st e <;> rfl

/-- The replay so far has changed nothing, and counts as executed what the log
does. -/
def TracksLog (candidate : ReplayCandidate) (entries : List AuditEntry) : Prop :=
  ∃ st, replayEntries candidate entries = .ok st ∧
    (∀ r ∈ st.records, r.changed = false) ∧
    ∀ id, (st.settledByMandate.get id).getD [] = executedUnder id entries

theorem tracksLog_nil : TracksLog candidate [] := by
  refine ⟨{}, rfl, ?_, fun id => rfl⟩
  intro r hr
  cases hr

/-- A dropped entry executes nothing. -/
theorem executed_skip (hskip : isReplayable e = .ok false) (id : String) :
    executed id e = none := by
  unfold executed
  split
  · next h =>
      obtain ⟨htype, hphase, -⟩ := h
      rw [JsValue.strictEq_str] at hphase
      have hintent : e.payload.get "intent" = .undefined := by
        unfold isReplayable at hskip
        rw [if_neg (by simp [htype])] at hskip
        split at hskip
        · cases hskip
        · cases hskip
        · rw [hphase] at hskip
          have hkept := Except.ok.inj hskip
          simp only [JsValue.strictEq, beq_self_eq_true, Bool.true_and,
            Bool.not_eq_false'] at hkept
          cases hvalue : e.payload.get "intent" with
          | undefined => rfl
          | _ => rw [hvalue] at hkept; cases hkept
      rw [hintent]
      rfl
  · rfl

theorem TracksLog.skip (h : TracksLog candidate entries) : ∀ {later : List AuditEntry},
    (∀ e ∈ later, isReplayable e = .ok false) → TracksLog candidate (entries ++ later) := by
  intro later
  induction later using List.reverseRecOn with
  | nil =>
      intro _
      rw [List.append_nil]
      exact h
  | append_singleton later e ih =>
      intro hskip
      obtain ⟨st, hreplay, hsame, hsettled⟩ := ih fun e he => hskip e (by simp [he])
      have hlast : isReplayable e = .ok false := hskip e (by simp)
      refine ⟨st, ?_, hsame, fun id => ?_⟩
      · rw [← List.append_assoc, replayEntries_skip hlast, hreplay]
      · have hnone : [e].filterMap (executed id) = [] := by
          rw [List.filterMap_cons, executed_skip hlast]
          rfl
        rw [hsettled, executedUnder, executedUnder, ← List.append_assoc,
          @List.filterMap_append _ _ (entries ++ later), hnone, List.append_nil]

end

/-! ## What a step appends -/

section

variable {σ : Type} {d : ExecutorDeps σ} (C : Contract d.store)

theorem skipped_of_type {e : AuditEntry} (h : e.type ≠ .gateDecision) :
    isReplayable e = .ok false := by
  unfold isReplayable
  rw [if_pos h]

theorem isReplayable_object {e : AuditEntry} (htype : e.type = .gateDecision)
    (hobject : e.payload.isObject = true) :
    isReplayable e = .ok ((e.payload.get "phase").strictEq (.str "agent") &&
      !(e.payload.get "intent").strictEq .undefined) := by
  unfold isReplayable
  rw [if_neg (by simp [htype])]
  cases hpayload : e.payload with
  | undefined | null => rw [hpayload] at hobject; cases hobject
  | _ => rfl

/-- An operator's approval is not replayed. -/
theorem skipped_of_approved {e : AuditEntry} {intentId rationale : String} {acknowledged : Bool}
    {w : World σ} (htype : e.type = .gateDecision)
    (h : Approved d intentId rationale acknowledged w e) : isReplayable e = .ok false := by
  obtain ⟨decision, hpayload⟩ := h
  rw [isReplayable_object htype (by rw [hpayload]; exact stamped_isObject rfl), hpayload]
  simp [stamped, approvalPayload, JsValue.strictEq]

/-- A decision of `execute` is. -/
theorem kept_of_decided {e : AuditEntry} {src : Sources} {w : World σ} {now : String}
    {intent : PaymentIntent} {attestation : Option Attestation}
    (h : Decided d src now intent attestation w e) : isReplayable e = .ok true := by
  obtain ⟨⟨decision, inputs, -, -, hpayload⟩, htype, -⟩ := h
  rw [isReplayable_object htype (by rw [hpayload]; exact stamped_isObject rfl), hpayload]
  simp [stamped, agentPayload, JsValue.strictEq, intentCodec]

/-- A halted `execute` records no decision. -/
theorem execute_halted_appends (src : Sources) (now : String) (intent : PaymentIntent)
    (attestation : Option Attestation) {w : World σ} {halt : String}
    (halts : haltReason d w.store = some halt) :
    Appends (fun e => e.type ≠ .gateDecision) w
      (stateAfter (execute d src now intent attestation w)) := by
  have hrecorded : Appends (fun e => e.type ≠ .gateDecision) w
      (stateAfter (record d .paymentHalted (haltPayload intent.id "agent" halt) now w)) :=
    record_appends fun e htype _ _ => by rw [htype]; simp
  have hrun := execute_run d src now intent attestation w
  generalize execute d src now intent attestation w = r at hrun
  cases hrun with
  | haltUnrecorded halts' recorded =>
      rw [halts] at halts'
      cases halts'
      rw [recorded] at hrecorded
      exact hrecorded
  | haltUnfiled halts' recorded filed =>
      rw [halts] at halts'
      cases halts'
      rw [recorded] at hrecorded
      exact hrecorded
  | halted halts' recorded filed =>
      rw [halts] at halts'
      cases halts'
      rw [recorded] at hrecorded
      exact hrecorded
  | undecided runs => rw [halts] at runs; cases runs
  | uncaptured runs => rw [halts] at runs; cases runs
  | unrecorded runs => rw [halts] at runs; cases runs
  | unfiled runs => rw [halts] at runs; cases runs
  | blocked runs => rw [halts] at runs; cases runs
  | parked runs => rw [halts] at runs; cases runs
  | authorized runs => rw [halts] at runs; cases runs

/-- **What a step adds to the replay**: entries that are skipped, or the one
decision of an `execute` call. -/
theorem replayed_of_step {s s' : State σ} {a : Action} {es : List Event}
    (htaken : step d s a = some (s', es)) :
    (∃ later, s'.world.audit.entries = s.world.audit.entries ++ later ∧
      ∀ e ∈ later, isReplayable e = .ok false) ∨
    ∃ now src intent attestation e, a = .execute now src intent attestation ∧
      haltReason d s.world.store = none ∧
      Decided d src now intent attestation s.world e ∧
      s'.world.audit.entries = s.world.audit.entries ++ [e] := by
  obtain ⟨later, hlater, hentries⟩ := entries_of_step htaken
  by_cases hskip : ∀ e ∈ later, isReplayable e = .ok false
  · exact Or.inl ⟨later, hlater, hskip⟩
  push Not at hskip
  obtain ⟨e, he, hnot⟩ := hskip
  have hentry := hentries e he
  cases hentry with
  | @decided now src intent attestation hdecided =>
      have heq : s.started (execute d src now intent attestation s.world) = (s', es) :=
        Option.some.inj htaken
      have hworld : s'.world = stateAfter (execute d src now intent attestation s.world) := by
        rw [← started_world s, heq]
      -- there is room for one entry only
      have hone : later = [e] := by
        have hlength := execute_length_le d src now intent attestation s.world
        rw [← hworld, hlater, List.length_append] at hlength
        obtain ⟨before, after, rfl⟩ := List.append_of_mem he
        simp only [List.length_append, List.length_cons] at hlength
        have hbefore : before = [] := List.length_eq_zero_iff.1 (by omega)
        have hafter : after = [] := List.length_eq_zero_iff.1 (by omega)
        rw [hbefore, hafter]
        rfl
      subst hone
      refine Or.inr ⟨now, src, intent, attestation, e, rfl, ?_, hdecided, hlater⟩
      cases halts : haltReason d s.world.store with
      | none => rfl
      | some halt =>
          obtain ⟨later', hlater', htypes⟩ :=
            execute_halted_appends src now intent attestation halts
          rw [← hworld, hlater] at hlater'
          rw [← List.append_cancel_left hlater'] at htypes
          exact absurd hdecided.type_eq (htypes e (by simp))
  | approved htype happroved => exact absurd (skipped_of_approved htype happroved) hnot
  | halted type => exact absurd (skipped_of_type (by simp [type])) hnot
  | approvalHalted type => exact absurd (skipped_of_type (by simp [type])) hnot
  | settled _ type => exact absurd (skipped_of_type (by simp [type])) hnot
  | other _ undecided => exact absurd (skipped_of_type undecided) hnot

include C in
/-- `execute` keeps the mandates. -/
theorem listMandates_execute {s s' : State σ} {es : List Event} {now : String} {src : Sources}
    {intent : PaymentIntent} {attestation : Option Attestation}
    (htaken : step d s (.execute now src intent attestation) = some (s', es)) :
    d.store.listMandates s'.world.store = d.store.listMandates s.world.store := by
  have heffect := (step_effect C htaken).1
  rw [C.listMandates, C.listMandates]
  rcases heffect.mandates C with hsame | hchange
  · exact congrArg Table.values hsame
  · cases hchange

end

/-! ## Whole runs -/

section

variable {σ : Type} {d : ExecutorDeps σ} (C : Contract d.store)

/-- The mandates stay as they are once a decision is in the log. -/
def MandatesKept (d : ExecutorDeps σ) (steps : List (Step (State σ) Action Event)) : Prop :=
  ∀ t ∈ steps, (∃ e ∈ t.before.world.audit.entries, e.type = .gateDecision) →
    d.store.listMandates t.after.world.store = d.store.listMandates t.before.world.store

instance (steps : List (Step (State σ) Action Event)) : Decidable (MandatesKept d steps) :=
  inferInstanceAs (Decidable (∀ t ∈ steps, _))

include C in
/-- What one step keeps. -/
theorem tracksLog_step {s s' : State σ} {a : Action} {es : List Event}
    {steps : List (Step (State σ) Action Event)} (htaken : step d s a = some (s', es))
    (hretraced : retraced d steps s a)
    (hmandates : (∃ e ∈ s.world.audit.entries, e.type = .gateDecision) →
      d.store.listMandates s'.world.store = d.store.listMandates s.world.store)
    (h : TracksLog (ownPolicy d s.world.store) s.world.audit.entries) :
    TracksLog (ownPolicy d s'.world.store) s'.world.audit.entries := by
  have hpolicy : d.store.listMandates s'.world.store = d.store.listMandates s.world.store →
      ownPolicy d s'.world.store = ownPolicy d s.world.store := by
    intro hsame
    simp only [ownPolicy, hsame]
  -- up to the first decision any policy will do
  have hbefore : TracksLog (ownPolicy d s'.world.store) s.world.audit.entries := by
    by_cases hdecision : ∃ e ∈ s.world.audit.entries, e.type = .gateDecision
    · rw [hpolicy (hmandates hdecision)]
      exact h
    · push Not at hdecision
      have hskip := (@tracksLog_nil (ownPolicy d s'.world.store)).skip
        fun e he => skipped_of_type (hdecision e he)
      rw [List.nil_append] at hskip
      exact hskip
  rcases replayed_of_step htaken with
    ⟨later, hlater, hskip⟩ | ⟨now, src, intent, attestation, e, rfl, hruns, hdecided, hlater⟩
  · rw [hlater]
    exact hbefore.skip hskip
  · have hretraceable : Retraceable d src s.world now intent attestation := hretraced hruns
    obtain ⟨st, hreplay, hsame, hsettled⟩ := h
    obtain ⟨st', record, hentry, hrecords, hunchanged, hsettled'⟩ :=
      replayEntry_decided C hdecided hretraceable hsettled
    rw [hpolicy (listMandates_execute C htaken), hlater]
    refine ⟨st', ?_, ?_, hsettled'⟩
    · rw [replayEntries_snoc (kept_of_decided hdecided), hreplay]
      exact hentry
    · intro r hr
      rw [hrecords] at hr
      rcases List.mem_append.1 hr with hold | hnew
      · exact hsame r hold
      · rw [List.mem_singleton.1 hnew]
        exact hunchanged

include C in
/-- **Replay under the own policy changes nothing.**  In every run that starts
before the first decision, keeps its mandates from then on, and decides only
what can be retraced, the simulator reproduces every recorded outcome. -/
theorem replay_changes_nothing {s₀ s : State σ} {steps : List (Step (State σ) Action Event)}
    (hrun : (executor d).Run (retraced d) s₀ steps s)
    (hfirst : ∀ e ∈ s₀.world.audit.entries, e.type ≠ .gateDecision)
    (hkept : MandatesKept d steps) :
    ∃ report, replayAudit s.world.audit.entries (ownPolicy d s.world.store) = .ok report ∧
      report.changed = 0 := by
  have htracks : TracksLog (ownPolicy d s.world.store) s.world.audit.entries := by
    refine hrun.invariant (fun steps s => MandatesKept d steps →
      TracksLog (ownPolicy d s.world.store) s.world.audit.entries) ?_ ?_ hkept
    · intro _
      have hskip := (@tracksLog_nil (ownPolicy d s₀.world.store)).skip
        fun e he => skipped_of_type (hfirst e he)
      rw [List.nil_append] at hskip
      exact hskip
    · intro steps s a s' es ih hguard htaken hkept
      refine tracksLog_step C htaken hguard ?_ (ih fun t ht => hkept t (by simp [ht]))
      exact hkept ⟨s, a, es, s'⟩ (by simp)
  obtain ⟨st, hreplay, hsame, -⟩ := htracks
  refine ⟨.ofRecords st.records, ?_, ?_⟩
  · unfold replayAudit
    rw [hreplay]
    rfl
  · show (st.records.filter ReplayRecord.changed).length = 0
    rw [List.length_eq_zero_iff, List.filter_eq_nil_iff]
    intro r hr
    rw [hsame r hr]
    simp

end

/-- A run of three payments, the last of them over the budget. -/
theorem replay_changes_nothing_sample : ∃ steps s,
    (executor Sample.deps).Run (retraced Sample.deps) Sample.start steps s ∧
      s.world.audit.entries.length = 7 ∧
      ∃ report, replayAudit s.world.audit.entries (ownPolicy Sample.deps s.world.store) =
        .ok report ∧ report.changed = 0 := by
  obtain ⟨steps, s, hrun, hcheck⟩ := System.exists_run (executor Sample.deps)
    (retraced Sample.deps) Sample.start
    [Sample.pay "a" 40, Sample.settles 0 "a" 40, .resume 0, Sample.pay "b" 40,
      Sample.settles 0 "b" 40, .resume 0, Sample.pay "c" 40]
    (fun steps s => decide (MandatesKept Sample.deps steps) &&
      decide (s.world.audit.entries.length = 7)) (by decide +kernel)
  simp only [Bool.and_eq_true, decide_eq_true_eq] at hcheck
  exact ⟨steps, s, hrun, hcheck.2,
    replay_changes_nothing (d := Sample.deps) memoryContract hrun (by simp [Sample.start, deploy])
      hcheck.1⟩

namespace Sample

/-- A payment in euros, at a rate of one. -/
def payInEuros : Action :=
  .execute noon { fxRates := some fun _ _ => some 1 } { intent "a" 40 with currency := "EUR" } none

end Sample

/-- A payment in another currency is executed at a rate, which the log keeps and
the replay does not use: there no mandate covers it. -/
theorem foreign_payment_changes : ∃ steps s report,
    (executor Sample.deps).Run anyStep Sample.start steps s ∧
      (∀ e ∈ Sample.start.world.audit.entries, e.type ≠ .gateDecision) ∧
      MandatesKept Sample.deps steps ∧
      replayAudit s.world.audit.entries (ownPolicy Sample.deps s.world.store) = .ok report ∧
      report.changed ≠ 0 := by
  obtain ⟨steps, s, hrun, hcheck⟩ := System.exists_run (executor Sample.deps)
    anyStep Sample.start [Sample.payInEuros]
    (fun steps s => decide (MandatesKept Sample.deps steps) &&
      ((replayAudit s.world.audit.entries
        (ownPolicy Sample.deps s.world.store)).toOption.any fun report =>
          report.changed == 1)) (by decide +kernel)
  simp only [Bool.and_eq_true, decide_eq_true_eq] at hcheck
  obtain ⟨hkept, hchanged⟩ := hcheck
  cases hreport : replayAudit s.world.audit.entries (ownPolicy Sample.deps s.world.store) with
  | error e =>
      rw [hreport] at hchanged
      cases hchanged
  | ok report =>
      rw [hreport] at hchanged
      have hone : report.changed = 1 := by simpa [Except.toOption] using hchanged
      exact ⟨steps, s, report, hrun, by simp [Sample.start, deploy], hkept, hreport, by omega⟩

end AgentWorth
