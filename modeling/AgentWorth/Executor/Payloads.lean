import AgentWorth.Audit.Export
import AgentWorth.Executor.Entries
import AgentWorth.Lib.Plain

/-!
# What the executor records

Every payload is a plain object, whatever the intent, the decision, the replay
inputs, the receipts and the error texts it is made of: no member is named twice
at any depth.  And every entry is about spending.
-/

namespace AgentWorth

open AgentWorth.Js AgentWorth.Lib

/-! ## Records -/

theorem plain_intent : intentCodec.Plain := by
  intro i
  have hrail : (railCodec.encode i.rail).WellFormed := Codec.plain_literal i.rail
  simp [intentCodec, hrail]

theorem plain_spendRisk : spendRiskCodec.Plain := by
  intro r
  have htier : (tierCodec.encode r.tier).WellFormed := Codec.plain_literal r.tier
  have hscore := Codec.plain_int r.score
  have hreasons := Codec.plain_str.list r.reasons
  simp [spendRiskCodec, htier, hscore, hreasons]

theorem plain_priorSpend : priorSpendCodec.Plain := by
  intro s
  simp [priorSpendCodec]

theorem plain_replayInputs : replayInputsCodec.Plain := by
  intro r
  refine JsValue.wellFormed_obj
    (["reversibility"] ++ (["trust"] ++ "knownPayees" :: "periodSpendByMandate" ::
      (["attestation"] ++ (["reputation"] ++ ["fxRates"])))) ?_ (by decide) ?_
  · simp only [List.map_append, List.map_cons]
    exact (Codec.keys_optMember _ _ _).append ((Codec.keys_optMember _ _ _).append
      (.cons_cons _ (.cons_cons _ ((Codec.keys_optMember _ _ _).append
        ((Codec.keys_optMember _ _ _).append (Codec.keys_optMember _ _ _))))))
  · intro m hm
    simp only [List.mem_append, List.mem_cons] at hm
    rcases hm with hm | hm | rfl | rfl | hm | hm | hm
    · exact Codec.plain_literal.optMember m hm
    · exact Codec.plain_literal.optMember m hm
    · exact Codec.plain_str.list r.knownPayees
    · exact plain_priorSpend.list.record r.periodSpendByMandate
    · exact Codec.plain_literal.optMember m hm
    · exact Codec.plain_literal.optMember m hm
    · exact Codec.plain_num.record.optMember m hm

/-- The parameters of a suggestion, if it has any, are an object. -/
def SafeFix.Plain (f : SafeFix) : Prop :=
  ∀ parameters, f.parameters = some parameters → (JsValue.obj parameters).WellFormed

theorem SafeFix.Plain.encode {f : SafeFix} (h : f.Plain) : (safeFixCodec.encode f).WellFormed := by
  refine JsValue.wellFormed_obj ("code" :: "message" :: ["parameters"]) ?_ (by decide) ?_
  · exact .cons_cons _ (.cons_cons _ (Codec.keys_optMember _ _ _))
  · intro m hm
    simp only [List.mem_cons] at hm
    rcases hm with rfl | rfl | hm
    · trivial
    · trivial
    · cases hparameters : f.parameters with
      | none =>
          rw [hparameters] at hm
          cases hm
      | some parameters =>
          rw [hparameters] at hm
          rw [List.mem_singleton.1 hm]
          exact h parameters hparameters

/-- A decision whose suggestion is plain. -/
def GateDecision.Plain (decision : GateDecision) : Prop :=
  ∀ f, decision.suggestedFix = some f → f.Plain

theorem GateDecision.Plain.encode {decision : GateDecision} (h : decision.Plain) :
    (decisionCodec.encode decision).WellFormed := by
  refine JsValue.wellFormed_obj ("outcome" :: "reasons" :: "mandateId" :: "risk" ::
    "remainingPeriodBudget" :: ["suggestedFix"]) ?_ (by decide) ?_
  · exact .cons_cons _ (.cons_cons _ (.cons_cons _ (.cons_cons _ (.cons_cons _
      (Codec.keys_optMember _ _ _)))))
  · intro m hm
    simp only [List.mem_cons] at hm
    rcases hm with rfl | rfl | rfl | rfl | rfl | hm
    · trivial
    · exact Codec.plain_str.list decision.reasons
    · exact Codec.plain_str.nullable (h := fun _ => JsValue.noConfusion) decision.mandateId
    · exact plain_spendRisk decision.risk
    · exact Codec.plain_num.nullable (h := fun _ => JsValue.noConfusion)
        decision.remainingPeriodBudget
    · cases hfix : decision.suggestedFix with
      | none =>
          rw [hfix] at hm
          cases hm
      | some f =>
          rw [hfix] at hm
          rw [List.mem_singleton.1 hm]
          exact (h f hfix).encode

/-! ## Decisions of the gate -/

theorem plain_noFix {f : SafeFix} (h : f.parameters = none) : f.Plain := by
  intro parameters hparameters
  rw [h] at hparameters
  cases hparameters

/-- Parameters that are scalars under distinct names. -/
theorem plain_fix {f : SafeFix} {parameters : List (String × JsValue)}
    (h : f.parameters = some parameters) (hnodup : (parameters.map Prod.fst).Nodup)
    (hscalar : ∀ m ∈ parameters, m.2.WellFormed) : f.Plain := by
  intro parameters' hparameters
  rw [h] at hparameters
  cases hparameters
  exact JsValue.wellFormed_obj_iff.2 ⟨hnodup, hscalar⟩

theorem evaluateUnderMandate_plain {intent : PaymentIntent} {ctx : GateContext}
    {mandate : Mandate} {periodSpend : List PriorSpend} {decision : GateDecision}
    (h : evaluateUnderMandate intent ctx mandate periodSpend = .ok decision) :
    decision.Plain := by
  unfold evaluateUnderMandate at h
  dsimp only at h
  split at h
  · cases h
    rintro f ⟨⟩
    exact plain_fix rfl (by simp) (by simp)
  · split at h
    · cases h
      rintro f ⟨⟩
      exact plain_fix rfl (by simp) (by simp)
    · obtain ⟨windowStart, -, rfl⟩ := except_map_eq_ok.1 h
      intro f hf
      split at hf
      · cases hf
        exact plain_fix rfl (by simp) (by simp)
      · cases hf

theorem evaluateGate_plain {intent : PaymentIntent} {ctx : GateContext}
    {decision : GateDecision} (h : evaluateGate intent ctx = .ok decision) : decision.Plain := by
  unfold evaluateGate at h
  split at h
  · cases h
    exact nofun
  · split at h
    · cases h
      rintro f ⟨⟩
      exact plain_noFix rfl
    · split at h
      · cases h
        rintro f ⟨⟩
        exact plain_noFix rfl
      · split at h
        · cases h
          rintro f ⟨⟩
          exact plain_fix rfl (by simp) (by simp)
        · obtain ⟨periodSpend, -, hunder⟩ := except_bind_eq_ok.1 h
          exact evaluateUnderMandate_plain hunder

section Entries

variable {σ : Type} {d : ExecutorDeps σ}

theorem agentDecision_plain {src : Sources} {w : World σ} {now : String}
    {intent : PaymentIntent} {attestation : Option Attestation} {decision : GateDecision}
    (h : agentDecision d src w now intent attestation = .ok decision) : decision.Plain := by
  obtain ⟨gated, hgated, rfl⟩ := except_map_eq_ok.1 h
  have hplain := evaluateGate_plain hgated
  generalize chainAlert d w now intent gated = alert
  unfold escalate
  dsimp only
  split
  · split
    · rintro f ⟨⟩
      exact plain_fix rfl (by simp) (by simp)
    · exact hplain
  · exact hplain

/-! ## Payloads -/

theorem plainObject_agent {intent : PaymentIntent} {decision : GateDecision}
    {inputs : ReplayInputs} (h : decision.Plain) :
    PlainObject (agentPayload d intent decision inputs) := by
  have houtcome : (outcomeCodec.encode decision.outcome).WellFormed :=
    Codec.plain_literal decision.outcome
  have hmandate : (idCodec.encode decision.mandateId).WellFormed :=
    Codec.plain_str.nullable (h := fun _ => JsValue.noConfusion) decision.mandateId
  have htier : (tierCodec.encode decision.risk.tier).WellFormed :=
    Codec.plain_literal decision.risk.tier
  exact ⟨⟨_, rfl⟩, by simp [agentPayload, houtcome, hmandate, htier, h.encode,
    plain_intent intent, plain_replayInputs inputs]⟩

theorem plainObject_approval {intentId rationale : String} {acknowledged : Bool}
    {decision : GateDecision} :
    PlainObject (approvalPayload intentId rationale acknowledged decision) := by
  have houtcome : (outcomeCodec.encode decision.outcome).WellFormed :=
    Codec.plain_literal decision.outcome
  have hmandate : (idCodec.encode decision.mandateId).WellFormed :=
    Codec.plain_str.nullable (h := fun _ => JsValue.noConfusion) decision.mandateId
  exact ⟨⟨_, rfl⟩, by simp [approvalPayload, houtcome, hmandate]⟩

theorem plainObject_halt (intentId phase reason : String) :
    PlainObject (haltPayload intentId phase reason) := ⟨⟨_, rfl⟩, by simp [haltPayload]⟩

theorem plainObject_settled (intent : PaymentIntent) (receipt : Receipt) :
    PlainObject (settledPayload intent receipt) := by
  have hrail : (railCodec.encode intent.rail).WellFormed := Codec.plain_literal intent.rail
  exact ⟨⟨_, rfl⟩, by simp [settledPayload, hrail]⟩

theorem plainObject_refunded (call : RefundCall) (refundRef : String) :
    PlainObject (refundedPayload call refundRef) := ⟨⟨_, rfl⟩, by simp [refundedPayload]⟩

theorem plain_scope (scope : PayeeScope) : (scopeValue scope).WellFormed := by
  cases scope <;> simp [scopeValue]

theorem wellFormed_patch (patch : MandatePatch) :
    (JsValue.obj (patchMembers patch)).WellFormed := by
  refine JsValue.wellFormed_obj (["label"] ++ (["scope"] ++ (["currency"] ++
    (["allowedRails"] ++ (["perTxCap"] ++ (["perPeriodCap"] ++ (["period"] ++
      (["grantedAt"] ++ (["expiresAt"] ++ ["status"]))))))))) ?_ (by decide) ?_
  · unfold patchMembers
    simp only [List.map_append]
    exact (Codec.keys_optMember _ _ _).append ((Codec.keys_spread _ _ _).append
      ((Codec.keys_optMember _ _ _).append ((Codec.keys_optMember _ _ _).append
        ((Codec.keys_optMember _ _ _).append ((Codec.keys_optMember _ _ _).append
          ((Codec.keys_spread _ _ _).append ((Codec.keys_optMember _ _ _).append
            ((Codec.keys_optMember _ _ _).append (Codec.keys_spread _ _ _)))))))))
  · intro m hm
    simp only [patchMembers, List.mem_append] at hm
    rcases hm with hm | hm | hm | hm | hm | hm | hm | hm | hm | hm
    · exact Codec.plain_str.optMember m hm
    · exact Codec.plain_spread plain_scope m hm
    · exact Codec.plain_str.optMember m hm
    · exact Codec.plain_literal.list.optMember m hm
    · exact Codec.plain_num.optMember m hm
    · exact Codec.plain_num.optMember m hm
    · exact Codec.plain_spread (fun _ => JsValue.wellFormed_str _) m hm
    · exact Codec.plain_str.optMember m hm
    · exact Codec.plain_str.optMember m hm
    · exact Codec.plain_spread (fun _ => JsValue.wellFormed_str _) m hm

theorem plainObject_stamped {store : σ} {type : AuditEventType} {payload : JsValue}
    (h : PlainObject payload) : PlainObject (stamped d store type payload) := by
  unfold stamped
  split
  · refine ⟨?_, JsValue.wellFormed_withMember h.2 trivial⟩
    obtain ⟨⟨members, rfl⟩, -⟩ := h
    exact ⟨_, rfl⟩
  · exact h

/-! ## Entries -/

/-- About money that comes in. -/
def AuditEventType.isEarning : AuditEventType → Bool
  | .earningQuoted | .earningReceived | .earningRejected => true
  | _ => false

/-- An entry about spending whose payload is a plain object. -/
structure Outbound (e : AuditEntry) : Prop where
  plain : PlainObject e.payload
  spending : e.type.isEarning = false

theorem moves_record_outbound {type : AuditEventType} {payload : JsValue} {ts : String}
    (htype : type.isEarning = false) (hplain : PlainObject payload) :
    Moves (Appends Outbound) (record d type payload ts) := by
  refine fun w => record_appends ?_
  intro e he hpayload _
  exact ⟨hpayload ▸ plainObject_stamped hplain, he ▸ htype⟩

theorem moves_settleFailed_outbound (intent : PaymentIntent) (now error : String) :
    Moves (Appends Outbound) (settleFailed d intent now error) :=
  .bind .trans (moves_record_outbound rfl ⟨⟨_, rfl⟩, by simp [failedPayload]⟩) fun _ =>
    .pure .refl _

theorem moves_settleReturned_outbound (intent : PaymentIntent) (now : String)
    (receipt : Receipt) (verified : Except String Bool) :
    Moves (Appends Outbound) (settleReturned d intent now receipt verified) := by
  refine .tryCatch .trans (.bind .trans ?_ fun _ => .pure .refl _)
    (moves_settleFailed_outbound intent now)
  exact .bind .trans (moves_write _) fun _ =>
    .bind .trans (moves_record_outbound rfl (plainObject_settled _ _)) fun _ =>
    .bind .trans (moves_eval _) fun _ =>
    .bind .trans (moves_record_outbound rfl ⟨⟨_, rfl⟩, by simp [verifiedPayload]⟩) fun _ =>
    .pure .refl _

theorem moves_control_outbound {f : σ → Except String σ} {type : AuditEventType}
    {payload : JsValue} {now : String} (htype : type.isEarning = false)
    (hplain : PlainObject payload) :
    Moves (Appends Outbound) (do write f; record d type payload now) :=
  .bind .trans (moves_write _) fun _ => moves_record_outbound htype hplain

/-- **Every entry that a step of the executor appends** is about spending, and its
payload is a plain object. -/
theorem outbound_of_step {s s' : State σ} {a : Action} {es : List Event}
    (htaken : step d s a = some (s', es)) : Appends Outbound s.world s'.world := by
  have hconclude : ∀ {α : Type} {s₀ : State σ} {ended : α → List Event} {x : Exec σ α},
      Moves (Appends Outbound) x → s₀.conclude ended (x s.world) = (s', es) →
      Appends Outbound s.world s'.world := by
    intro α s₀ ended x hmoves heq
    have h := hmoves s.world
    rw [← conclude_world s₀ ended, heq] at h
    exact h
  cases a with
  | execute now src intent attestation =>
      have h := execute_appends d src now intent attestation s.world (p := Outbound)
        (fun e halt htype hpayload _ =>
          ⟨hpayload ▸ plainObject_halt _ _ _, by rw [htype]; rfl⟩)
        (fun e hdecided => by
          obtain ⟨decision, inputs, hdecides, -, hpayload⟩ := hdecided.recorded
          exact ⟨hpayload ▸ plainObject_stamped (plainObject_agent (agentDecision_plain hdecides)),
            by rw [hdecided.type_eq]; rfl⟩)
      rw [← started_world s, Option.some.inj htaken] at h
      exact h
  | approve now src intentId rationale acknowledged =>
      have h := approve_appends d src now intentId rationale acknowledged s.world (p := Outbound)
        (fun e x halt htype hpayload _ _ _ =>
          ⟨hpayload ▸ plainObject_halt _ _ _, by rw [htype]; rfl⟩)
        (fun e htype happroved => by
          obtain ⟨decision, hpayload⟩ := happroved
          exact ⟨hpayload ▸ plainObject_stamped plainObject_approval, by rw [htype]; rfl⟩)
      rw [← started_world s, Option.some.inj htaken] at h
      exact h
  | railReturns k receipt verified =>
      obtain ⟨⟨call, provider⟩, -, heq⟩ := Option.map_eq_some_iff.1 htaken
      simp only at heq
      have h := moves_settleReturned_outbound (d := d) call.intent call.now
        (issuedBy provider receipt) verified s.world
      rw [← answered_world s k call (.railSettled call provider receipt), heq] at h
      exact h
  | railThrows k error =>
      obtain ⟨⟨call, provider⟩, -, heq⟩ := Option.map_eq_some_iff.1 htaken
      simp only at heq
      have h := moves_settleFailed_outbound (d := d) call.intent call.now error s.world
      rw [← answered_world s k call (.railFailed call error), heq] at h
      exact h
  | resume k =>
      obtain ⟨⟨call, outcome⟩, -, heq⟩ := Option.map_eq_some_iff.1 htaken
      exact hconclude (moves_finish call outcome) heq
  | refund now intentId amountMinor reason =>
      simp only [step] at htaken
      split at htaken <;> cases htaken <;> exact .refl _
  | refundReturns k refundRef =>
      obtain ⟨call, -, heq⟩ := Option.map_eq_some_iff.1 htaken
      have hmoves : Moves (Appends Outbound) (refundReturned d call refundRef) :=
        .bind .trans (moves_write _) fun _ =>
          .bind .trans (moves_record_outbound rfl (plainObject_refunded _ _)) fun _ =>
          .pure .refl _
      have h := hmoves s.world
      rw [← conclude_world { s with refunds := s.refunds.eraseIdx k }
        (fun r => [.refundFinished r])] at h
      cases heq
      exact h
  | refundThrows k error =>
      obtain ⟨call, -, heq⟩ := Option.map_eq_some_iff.1 htaken
      cases heq
      exact .refl _
  | grantMandate now m =>
      exact hconclude (moves_control_outbound rfl ⟨⟨_, rfl⟩, by simp⟩) (Option.some.inj htaken)
  | revokeMandate now id =>
      exact hconclude (moves_control_outbound rfl ⟨⟨_, rfl⟩, by simp⟩) (Option.some.inj htaken)
  | amendMandate now id patch =>
      have hplain : PlainObject (.obj [("id", .str id), ("patch", .obj (patchMembers patch))]) :=
        ⟨⟨_, rfl⟩, by simp, trivial, wellFormed_patch patch, trivial⟩
      exact hconclude (moves_control_outbound rfl hplain) (Option.some.inj htaken)
  | extendMandate now id expiresAt =>
      exact hconclude (moves_control_outbound rfl ⟨⟨_, rfl⟩, by simp⟩) (Option.some.inj htaken)
  | engageKillSwitch => exact hconclude (moves_write _) (Option.some.inj htaken)
  | disengageKillSwitch => exact hconclude (moves_write _) (Option.some.inj htaken)
  | resetCircuitBreaker => exact hconclude (moves_write _) (Option.some.inj htaken)

end Entries

end AgentWorth
