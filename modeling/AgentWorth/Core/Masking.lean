import AgentWorth.Core.DenyList
import AgentWorth.Core.Gate
import AgentWorth.Core.RiskChain
import AgentWorth.Lib.TwoRuns

/-!
# What the rules read of an intent

Two fields of a payment intent are free text to the agent: the rationale and
the creation time.  The gate reads of them only whether the rationale is long
enough; the risk chain, which looks at earlier intents through the audit log,
reads neither.
-/

namespace AgentWorth

open AgentWorth.Js AgentWorth.Js.Json AgentWorth.Lib

/-- The intent without what the agent may word at will. -/
def PaymentIntent.masked (intent : PaymentIntent) : PaymentIntent :=
  { intent with rationale := "", createdAt := "" }

/-- What the rules see of an intent: the masked intent, and whether the
rationale is too short. -/
def visible (config : GateConfig) (intent : PaymentIntent) : PaymentIntent × Bool :=
  (intent.masked, shortRationale intent config)

section Visible

variable {config : GateConfig} {i j : PaymentIntent}

/-- Intents that look alike differ in the two fields only. -/
theorem eq_of_masked (h : i.masked = j.masked) :
    j = { i with rationale := j.rationale, createdAt := j.createdAt } := by
  cases i
  cases j
  simp only [PaymentIntent.masked, PaymentIntent.mk.injEq] at h
  simp only [PaymentIntent.mk.injEq, true_and]
  simp [h]

/-- A function that does not read the two fields has one value on them. -/
theorem congr_masked {α : Type} (f : PaymentIntent → α)
    (hf : ∀ (intent : PaymentIntent) (rationale createdAt : String),
      f { intent with rationale := rationale, createdAt := createdAt } = f intent)
    (h : i.masked = j.masked) : f i = f j :=
  calc f i = f { i with rationale := j.rationale, createdAt := j.createdAt } := (hf i _ _).symm
    _ = f j := congrArg f (eq_of_masked h).symm

theorem id_of_masked (h : i.masked = j.masked) : i.id = j.id :=
  congr_masked PaymentIntent.id (fun _ _ _ => rfl) h

theorem amount_of_masked (h : i.masked = j.masked) : i.amount = j.amount :=
  congr_masked PaymentIntent.amount (fun _ _ _ => rfl) h

theorem masked_of_visible (h : visible config i = visible config j) : i.masked = j.masked :=
  congrArg Prod.fst h

theorem short_of_visible (h : visible config i = visible config j) :
    shortRationale i config = shortRationale j config :=
  congrArg Prod.snd h

/-- **The gate decides on what is visible**, under the default deny rules. -/
theorem evaluateGate_visible {ctx : GateContext} (hdeny : ctx.denyRules = defaultDenyRules)
    (h : visible ctx.config i = visible ctx.config j) :
    evaluateGate i ctx = evaluateGate j ctx := by
  have hmasked := masked_of_visible h
  have hamount : badAmount i = badAmount j := congr_masked badAmount (fun _ _ _ => rfl) hmasked
  have hrule : denyingRule i ctx = denyingRule j ctx := by
    unfold denyingRule
    rw [hdeny]
    exact congr_masked (fun intent => defaultDenyRules.find? fun rule => rule.match' intent
      { knownPayees := ctx.knownPayees, reversibility := gateReversibility intent ctx })
      (fun _ _ _ => rfl) hmasked
  have hmandate : selectMandate i ctx = selectMandate j ctx :=
    congr_masked (fun intent => selectMandate intent ctx) (fun _ _ _ => rfl) hmasked
  have hunder : evaluateUnderMandate i ctx = evaluateUnderMandate j ctx :=
    congr_masked (fun intent => evaluateUnderMandate intent ctx) (fun _ _ _ => rfl) hmasked
  have hpayee : i.payee = j.payee := congr_masked PaymentIntent.payee (fun _ _ _ => rfl) hmasked
  have hclass : i.payeeClass = j.payeeClass :=
    congr_masked PaymentIntent.payeeClass (fun _ _ _ => rfl) hmasked
  unfold evaluateGate
  rw [hamount, short_of_visible h, hrule, hmandate, hunder, hpayee, hclass]

end Visible

/-! ## The risk chain -/

/-- Payloads that differ at most in the two fields of the intent they carry. -/
structure PayloadAlike (p q : JsValue) : Prop where
  dropped : isDropped p = isDropped q
  truthy : p.truthy = q.truthy
  carries : carriesIntent p = carriesIntent q
  member : ∀ k, k ≠ "intent" → p.get k = q.get k
  inner : ∀ k, k ≠ "rationale" → k ≠ "createdAt" →
    (p.get "intent").get k = (q.get "intent").get k

theorem PayloadAlike.refl (p : JsValue) : PayloadAlike p p where
  dropped := rfl
  truthy := rfl
  carries := rfl
  member _ _ := rfl
  inner _ _ _ := rfl

theorem get_withMember_of (v : JsValue) (k k' : String) (x : JsValue) :
    (v.withMember k x).get k' = if k' = k then x else v.get k' := by
  cases v with
  | obj members => exact JsValue.get_withMember members k k' x
  | _ => exact JsValue.get_obj_cons k' k x []

theorem carriesIntent_iff (p : JsValue) : carriesIntent p = (p.get "intent").truthy := by
  cases p with
  | obj members => rfl
  | _ => rfl

/-- Another member, written in both. -/
theorem PayloadAlike.withMember {p q : JsValue} (h : PayloadAlike p q) {k : String}
    (hk : k ≠ "intent") (x : JsValue) : PayloadAlike (p.withMember k x) (q.withMember k x) where
  dropped := by cases p <;> cases q <;> rfl
  truthy := by cases p <;> cases q <;> rfl
  carries := by
    have hcarries := h.carries
    rw [carriesIntent_iff, carriesIntent_iff] at hcarries
    rw [carriesIntent_iff, carriesIntent_iff, get_withMember_of, get_withMember_of,
      if_neg hk.symm, if_neg hk.symm, hcarries]
  member k' hk' := by
    rw [get_withMember_of, get_withMember_of, h.member k' hk']
  inner k' hrationale hcreated := by
    rw [get_withMember_of, get_withMember_of, if_neg hk.symm, if_neg hk.symm,
      h.inner k' hrationale hcreated]

/-- Entries under different hashes whose payloads are alike. -/
structure EntryAlike (e f : AuditEntry) : Prop where
  seq : e.seq = f.seq
  ts : e.ts = f.ts
  type : e.type = f.type
  payload : PayloadAlike e.payload f.payload

theorem EntryAlike.refl (e : AuditEntry) : EntryAlike e e := ⟨rfl, rfl, rfl, .refl _⟩

abbrev EntriesAlike : List AuditEntry → List AuditEntry → Prop := List.Forall₂ EntryAlike

section RiskChain

variable {entries entries' : List AuditEntry} {recent recent' : List JsValue}

theorem recentDecisions_alike (h : EntriesAlike entries entries') (startMs : JsNumber) :
    List.Forall₂ PayloadAlike (recentDecisions entries startMs)
      (recentDecisions entries' startMs) := by
  unfold recentDecisions
  refine forall₂_filter PayloadAlike.carries ?_
  refine List.rel_map (fun _ _ hef => EntryAlike.payload hef) ?_
  exact forall₂_filter (fun hef => by rw [hef.type, hef.ts]) h

theorem samePayeeAuto_alike (intent : PaymentIntent)
    (h : List.Forall₂ PayloadAlike recent recent') :
    List.Forall₂ PayloadAlike (samePayeeAuto intent recent) (samePayeeAuto intent recent') := by
  refine forall₂_filter (fun hpq => ?_) h
  rw [hpq.inner "payee" (by decide) (by decide), hpq.member "outcome" (by decide)]

theorem totalAmount_alike (intent : PaymentIntent)
    (h : List.Forall₂ PayloadAlike recent recent') :
    totalAmount intent recent = totalAmount intent recent' := by
  unfold totalAmount
  rw [map_eq_of_forall₂ (fun hpq => by rw [hpq.inner "amount" (by decide) (by decide)]) h]

theorem smurfingAlert_alike (intent : PaymentIntent)
    (h : List.Forall₂ PayloadAlike recent recent') (opts : RiskChainOptions) :
    smurfingAlert intent recent opts = smurfingAlert intent recent' opts := by
  have hsame := samePayeeAuto_alike intent h
  simp only [smurfingAlert, hsame.length_eq, totalAmount_alike intent hsame]

theorem splittingAlert_alike (intent : PaymentIntent)
    (h : List.Forall₂ PayloadAlike recent recent') (opts : RiskChainOptions) :
    splittingAlert intent recent opts = splittingAlert intent recent' opts := by
  have hsame := samePayeeAuto_alike intent h
  have hrails := map_eq_of_forall₂ (f := fun p => (p.get "intent").get "rail")
    (fun hpq => hpq.inner "rail" (by decide) (by decide)) hsame
  simp only [splittingAlert, hsame.length_eq, totalAmount_alike intent hsame, hrails]

theorem probingAlert_alike (intent : PaymentIntent)
    (h : List.Forall₂ PayloadAlike recent recent') (opts : RiskChainOptions) :
    probingAlert intent recent opts = probingAlert intent recent' opts := by
  have hheld : List.Forall₂ PayloadAlike
      (recent.filter fun d => (d.get "outcome").strictEq (.str GateOutcome.block.text) ||
        (d.get "outcome").strictEq (.str GateOutcome.confirmOperator.text))
      (recent'.filter fun d => (d.get "outcome").strictEq (.str GateOutcome.block.text) ||
        (d.get "outcome").strictEq (.str GateOutcome.confirmOperator.text)) :=
    forall₂_filter (fun hpq => by rw [hpq.member "outcome" (by decide)]) h
  have hpayees := map_eq_of_forall₂ (f := fun p => (p.get "intent").get "payee")
    (fun hpq => hpq.inner "payee" (by decide) (by decide)) hheld
  simp only [probingAlert, hheld.length_eq, hpayees]

theorem latestGrantTsBefore_alike (h : EntriesAlike entries entries') (mandateId : JsValue)
    (beforeMs : JsNumber) :
    latestGrantTsBefore entries mandateId beforeMs =
      latestGrantTsBefore entries' mandateId beforeMs := by
  unfold latestGrantTsBefore
  refine foldl_eq_of_forall₂ (fun hef latest => ?_) h none
  simp only [hef.ts, hef.type, hef.payload.truthy, hef.payload.member "id" (by decide)]

theorem drainOf_alike (h : EntriesAlike entries entries') (startMs : JsNumber)
    (opts : RiskChainOptions) {e f : AuditEntry} (hef : EntryAlike e f) :
    drainOf entries startMs opts e = drainOf entries' startMs opts f := by
  unfold drainOf
  simp only [hef.ts, hef.type, hef.payload.carries, hef.payload.member "mandateId" (by decide),
    hef.payload.member "verdict" (by decide),
    hef.payload.inner "amount" (by decide) (by decide), latestGrantTsBefore_alike h]

/-- **The risk chain reads neither the intent's free fields nor those of the
intents in the log**, given a clock. -/
theorem evaluateRiskChain_alike {i j : PaymentIntent} (hsame : i.masked = j.masked)
    (h : EntriesAlike entries entries') {opts : RiskChainOptions} {now : String}
    (hnow : opts.now = some now) :
    evaluateRiskChain i entries opts = evaluateRiskChain j entries' opts := by
  have hstart : riskWindowStart i opts = riskWindowStart j opts := by
    simp only [riskWindowStart, hnow, Option.getD_some]
  have hsmurfing : smurfingAlert i = smurfingAlert j :=
    congr_masked smurfingAlert (fun _ _ _ => rfl) hsame
  have hsplitting : splittingAlert i = splittingAlert j :=
    congr_masked splittingAlert (fun _ _ _ => rfl) hsame
  have hprobing : probingAlert i = probingAlert j :=
    congr_masked probingAlert (fun _ _ _ => rfl) hsame
  have hrecent := recentDecisions_alike h (riskWindowStart j opts)
  have hdrain : entries.findSome? (drainOf entries (riskWindowStart j opts) opts) =
      entries'.findSome? (drainOf entries' (riskWindowStart j opts) opts) :=
    findSome?_eq_of_forall₂ (drainOf_alike h _ opts) h
  simp only [evaluateRiskChain, hstart, hsmurfing, hsplitting, hprobing,
    smurfingAlert_alike j hrecent, splittingAlert_alike j hrecent, probingAlert_alike j hrecent,
    hdrain]

end RiskChain

end AgentWorth
