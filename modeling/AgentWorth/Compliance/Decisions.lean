import AgentWorth.Compliance.Oversight
import AgentWorth.Executor.Entries

/-!
# Executor runs as the report sees them

The chain of a run is legible, each decision on it took the path its outcome
says, and a bucket adds up the intents whose decisions carry them.
-/

namespace AgentWorth

open AgentWorth.Js AgentWorth.Lib

variable {σ : Type} {d : ExecutorDeps σ}

/-! ## Adding up intents -/

/-- The sum of the amounts in a currency, if any payment is in it. -/
def totalIn (currency : String) (intents : List PaymentIntent) : Option JsNumber :=
  let amounts := (intents.filter fun i => i.currency == currency).map PaymentIntent.amount
  if amounts = [] then none else some (JsNumber.sum amounts)

/-- The bucket counts so many payments, and its totals are those of the intents. -/
structure Tallied (bucket : SpendBucket) (count : Nat) (intents : List PaymentIntent) :
    Prop where
  count : bucket.count = (count : JsNumber)
  totals : ∀ c, bucket.totalByCurrency.get c = totalIn c intents

theorem tallied_empty : Tallied emptyBucket 0 [] := ⟨rfl, fun _ => rfl⟩

theorem totalIn_snoc (currency : String) (intents : List PaymentIntent) (i : PaymentIntent) :
    totalIn currency (intents ++ [i]) =
      if currency = i.currency then some ((totalIn currency intents).getD 0 + i.amount)
      else totalIn currency intents := by
  unfold totalIn
  by_cases h : currency = i.currency
  · subst h
    simp only [List.filter_append, List.map_append, List.filter_cons, beq_self_eq_true, if_true,
      List.filter_nil, List.map_cons, List.map_nil, JsNumber.sum_snoc, List.append_eq_nil_iff,
      List.cons_ne_nil, and_false, if_false]
    split
    · next hnil => simp [hnil]
    · rfl
  · have hne : (i.currency == currency) = false := by simpa using fun hc => h hc.symm
    simp [List.filter_append, hne, h]

/-- **Adding a payment** to a bucket adds it to what is tallied. -/
theorem Tallied.add {bucket : SpendBucket} {n : Nat} {intents : List PaymentIntent}
    (h : Tallied bucket n intents) (i : PaymentIntent) :
    Tallied (addToBucket bucket (.num i.amount) (.str i.currency)) (n + 1) (intents ++ [i]) := by
  refine ⟨?_, fun c => ?_⟩
  · simp [addToBucket, h.count]
  · simp only [addToBucket, JsMap.get_set, totalIn_snoc, h.totals]
    by_cases hc : c = i.currency
    · subst hc
      rfl
    · rw [if_neg hc, if_neg hc]

theorem totalIn_ne_none {i : PaymentIntent} {intents : List PaymentIntent} (h : i ∈ intents) :
    totalIn i.currency intents ≠ none := by
  have hmem : i.amount ∈
      (intents.filter fun j => j.currency == i.currency).map PaymentIntent.amount :=
    List.mem_map_of_mem (List.mem_filter.2 ⟨h, by simp⟩)
  unfold totalIn
  simp only [List.ne_nil_of_mem hmem, if_false]
  exact Option.some_ne_none _

/-! ## The payloads of the executor -/

/-- The path of an outcome, where an automatic one takes the given path. -/
def GateOutcome.disposition (automatic : SpendDisposition) :
    GateOutcome → Option SpendDisposition
  | .autoExecute => some automatic
  | .confirmOperator => none
  | .block => some .blocked

theorem disposition_agentPayload (store : σ) (intent : PaymentIntent) (decision : GateDecision)
    (inputs : ReplayInputs) :
    disposition (stamped d store .gateDecision (agentPayload d intent decision inputs)) =
      decision.outcome.disposition .autoExecuted := by
  unfold disposition
  simp only [stamped, agentPayload, if_true, JsValue.get_withMember, JsValue.get_obj_cons,
    String.reduceEq, if_false]
  cases decision.outcome <;> rfl

theorem disposition_approvalPayload (store : σ) (intentId rationale : String)
    (acknowledged : Bool) (decision : GateDecision) :
    disposition (stamped d store .gateDecision
        (approvalPayload intentId rationale acknowledged decision)) =
      decision.outcome.disposition .operatorConfirmed := by
  unfold disposition
  simp only [stamped, approvalPayload, if_true, JsValue.get_withMember, JsValue.get_obj_cons,
    String.reduceEq, if_false]
  cases decision.outcome <;> rfl

/-- An approval's decision carries no intent. -/
theorem intent_approvalPayload (store : σ) (intentId rationale : String) (acknowledged : Bool)
    (decision : GateDecision) :
    (stamped d store .gateDecision
      (approvalPayload intentId rationale acknowledged decision)).get "intent" = .undefined := by
  simp [stamped, approvalPayload]

/-- A decision of `execute` adds its intent to a bucket. -/
theorem addDecision_agentPayload {bucket : SpendBucket} {e : AuditEntry} {store : σ}
    {intent : PaymentIntent} {decision : GateDecision} {inputs : ReplayInputs}
    (h : e.payload = stamped d store .gateDecision (agentPayload d intent decision inputs)) :
    addDecision bucket e = addToBucket bucket (.num intent.amount) (.str intent.currency) := by
  unfold addDecision
  rw [h]
  simp [stamped, agentPayload, intentCodec]

/-! ## Legible chains -/

theorem EntryOf.legible {s : State σ} {e : AuditEntry} {a : Action} (h : EntryOf d s e a) :
    Legible e := by
  cases h with
  | halted type => exact ⟨by simp [type], by simp [type]⟩
  | approvalHalted type => exact ⟨by simp [type], by simp [type]⟩
  | decided decided =>
      obtain ⟨decision, inputs, -, -, hpayload⟩ := decided.recorded
      refine ⟨fun _ => ?_, fun _ => ⟨decision.reasons, ?_⟩⟩
      · rw [hpayload]
        exact stamped_isObject rfl
      · rw [hpayload]
        simp [stamped, agentPayload]
  | approved _ approved =>
      obtain ⟨decision, hpayload⟩ := approved
      refine ⟨fun _ => ?_, fun _ => ⟨decision.reasons, ?_⟩⟩
      · rw [hpayload]
        exact stamped_isObject rfl
      · rw [hpayload]
        simp [stamped, approvalPayload]
  | settled _ type payload =>
      refine ⟨fun _ => ?_, by simp [type]⟩
      rw [payload]
      rfl
  | other unhalted undecided unsettled =>
      exact ⟨fun h => (h.elim unsettled undecided).elim, fun h => (undecided h).elim⟩

/-- **The chain of a run is legible**: a report is made of it. -/
theorem legible_run {G : Guard (State σ) Action Event} {s₀ s : State σ}
    {steps : List (Step (State σ) Action Event)} (hfresh : s₀.world.audit.entries = [])
    (hrun : (executor d).Run G s₀ steps s) : ∀ e ∈ s.world.audit.entries, Legible e := by
  refine hrun.invariant (fun _ s => ∀ e ∈ s.world.audit.entries, Legible e)
    (by simp [hfresh]) ?_
  intro steps s a s' es hold _ htaken e he
  obtain ⟨added, hentries, hadded⟩ := entries_of_step htaken
  rw [hentries] at he
  rcases List.mem_append.1 he with hmem | hmem
  · exact hold e hmem
  · exact (hadded e hmem).legible

/-- A chain that starts in step with its store stays so. -/
theorem synced_run (C : Contract d.store) {G : Guard (State σ) Action Event} {s₀ s : State σ}
    {steps : List (Step (State σ) Action Event)} (hsync : Synced C s₀.world)
    (hrun : (executor d).Run G s₀ steps s) : Synced C s.world :=
  hrun.invariant (fun _ s => Synced C s.world) hsync
    fun _ _ _ _ _ h _ htaken => (step_effect C htaken).2 h

end AgentWorth
