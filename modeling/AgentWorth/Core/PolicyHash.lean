import AgentWorth.Core.Enforcement
import Mathlib.Data.List.Forall2

/-!
# What the policy hash pins

`computePolicyHash` puts the mandates in the order of their ids and drops what
no decision reads.  The gate takes the first live mandate that covers a payment
in the order of the list it is given, so two policies with one normal form
decide alike exactly as far as they come to the same mandate first.
-/

namespace AgentWorth

open AgentWorth.Js AgentWorth.Lib

/-! ## What the normal form keeps of a mandate -/

/-- Two mandates that differ at most in label, grant date and the order of
their rails. -/
structure SameTerms (m m' : Mandate) : Prop where
  id_eq : m.id = m'.id
  scope_eq : m.scope = m'.scope
  currency_eq : m.currency = m'.currency
  rails : ∀ rail, rail ∈ m.allowedRails ↔ rail ∈ m'.allowedRails
  perTxCap_eq : m.perTxCap = m'.perTxCap
  perPeriodCap_eq : m.perPeriodCap = m'.perPeriodCap
  expiresAt_eq : m.expiresAt = m'.expiresAt
  status_eq : m.status = m'.status

theorem ofStrings_injective {ss ss' : List String}
    (h : JsValue.ofStrings ss = .ofStrings ss') : ss = ss' :=
  List.map_injective_iff.2 (fun _ _ hs => JsValue.str.inj hs) (JsValue.arr.inj h)

theorem scopeValue_injective {scope scope' : PayeeScope}
    (h : scopeValue scope = scopeValue scope') : scope = scope' := by
  cases scope with
  | «class» value =>
      cases scope' with
      | «class» value' => simpa [scopeValue] using h
      | allowlist values' => simp [scopeValue] at h
  | allowlist values =>
      cases scope' with
      | «class» value' => simp [scopeValue] at h
      | allowlist values' =>
          simp only [scopeValue, JsValue.obj.injEq, List.cons.injEq, Prod.mk.injEq, true_and,
            and_true] at h
          rw [ofStrings_injective h]

theorem railText_injective : Function.Injective RailKind.text := by
  intro r r' h
  cases r <;> cases r' <;> first | rfl | exact absurd h (by decide)

theorem statusText_injective : Function.Injective MandateStatus.text := by
  intro s s' h
  cases s <;> cases s' <;> first | rfl | exact absurd h (by decide)

theorem sameTerms_of_mandateValue {m m' : Mandate} (h : mandateValue m = mandateValue m') :
    SameTerms m m' := by
  simp only [mandateValue, JsValue.obj.injEq, List.cons.injEq, Prod.mk.injEq, true_and,
    and_true, JsValue.str.injEq, JsValue.num.injEq] at h
  obtain ⟨hid, hscope, hcurrency, hrails, htx, hperiod, -, hexpires, hstatus⟩ := h
  refine ⟨hid, scopeValue_injective hscope, hcurrency, ?_, htx, hperiod, hexpires,
    statusText_injective hstatus⟩
  intro rail
  have htexts : rail.text ∈ m.allowedRails.map RailKind.text ↔
      rail.text ∈ m'.allowedRails.map RailKind.text := by
    rw [← mem_sortByKey id, ofStrings_injective hrails, mem_sortByKey]
  rwa [List.mem_map_of_injective railText_injective,
    List.mem_map_of_injective railText_injective] at htexts

/-- The gate reads nothing of a mandate that the hash forgot. -/
theorem SameTerms.eligible {m m' : Mandate} (h : SameTerms m m') (intent : PaymentIntent)
    (now : String) (convert : Option Convert) :
    (isLiveMandate m now && covers m intent convert) =
      (isLiveMandate m' now && covers m' intent convert) := by
  have hrail : m.allowedRails.contains intent.rail = m'.allowedRails.contains intent.rail := by
    rw [Bool.eq_iff_iff, List.contains_iff_mem, List.contains_iff_mem]
    exact h.rails intent.rail
  simp only [isLiveMandate, covers, hrail, h.status_eq, h.expiresAt_eq, h.scope_eq,
    h.currency_eq]

/-! ## The verdict as a function of the selected mandate -/

theorem evaluateUnderMandate_verdict (intent : PaymentIntent) (ctx : GateContext)
    (mandate : Mandate) (spend : List PriorSpend) :
    (evaluateUnderMandate intent ctx mandate spend).map GateDecision.verdict =
      if OverCap intent ctx mandate spend then
        .ok ⟨.block, some mandate.id, (gateRisk intent ctx spend).tier, none⟩
      else
        (velocityWindowStart ctx).map fun windowStart =>
          ⟨if elevatedReasons intent ctx spend windowStart = [] then .autoExecute
              else .confirmOperator,
            some mandate.id, (gateRisk intent ctx spend).tier,
            some (remainingBudget intent ctx mandate spend)⟩ := by
  by_cases hover : OverCap intent ctx mandate spend
  · obtain ⟨decision, hdecision, hverdict⟩ := evaluateUnderMandate_overCap hover
    rw [if_pos hover, hdecision, ← hverdict]
    rfl
  · rw [if_neg hover]
    cases hwindow : velocityWindowStart ctx with
    | ok windowStart =>
        obtain ⟨decision, hdecision, hverdict⟩ := evaluateUnderMandate_within hover hwindow
        rw [hdecision]
        exact congrArg Except.ok hverdict
    | error e =>
        have hnot := not_or.1 hover
        have hrem : ¬ mandate.perPeriodCap - spentTotal spend -
            amountInMandate intent ctx mandate < 0 := hnot.2
        unfold evaluateUnderMandate
        rw [if_neg hnot.1, if_neg hrem, hwindow]
        rfl

theorem SameTerms.verdict {m m' : Mandate} (h : SameTerms m m') (intent : PaymentIntent)
    (ctx : GateContext) (spend : List PriorSpend) :
    (evaluateUnderMandate intent ctx m spend).map GateDecision.verdict =
      (evaluateUnderMandate intent ctx m' spend).map GateDecision.verdict := by
  have hamount : amountInMandate intent ctx m = amountInMandate intent ctx m' := by
    simp only [amountInMandate, h.currency_eq]
  have hover : OverCap intent ctx m spend ↔ OverCap intent ctx m' spend := by
    simp only [OverCap, remainingBudget, hamount, h.perTxCap_eq, h.perPeriodCap_eq]
  have hrem : remainingBudget intent ctx m spend = remainingBudget intent ctx m' spend := by
    simp only [remainingBudget, hamount, h.perPeriodCap_eq]
  simp only [evaluateUnderMandate_verdict, hover, hrem, h.id_eq]

/-- Under mandates of different ids the gate agrees with itself only by
throwing. -/
theorem verdict_eq_iff_of_ne {m m' : Mandate} (hne : m.id ≠ m'.id) (intent : PaymentIntent)
    (ctx : GateContext) (spend spend' : List PriorSpend) :
    (evaluateUnderMandate intent ctx m spend).map GateDecision.verdict =
        (evaluateUnderMandate intent ctx m' spend').map GateDecision.verdict ↔
      ¬ OverCap intent ctx m spend ∧ ¬ OverCap intent ctx m' spend' ∧
        ∃ e, velocityWindowStart ctx = .error e := by
  rw [evaluateUnderMandate_verdict, evaluateUnderMandate_verdict]
  by_cases hover : OverCap intent ctx m spend <;>
    by_cases hover' : OverCap intent ctx m' spend' <;>
    cases hwindow : velocityWindowStart ctx <;>
    simp [hover, hover', hne, Except.map]

/-- The spend a replay reads is captured, so only a window start that is no
date can keep the gate from a decision. -/
theorem evaluateGate_verdict (record : DecisionRecord) (policy : EffectivePolicy)
    (rules : List DenyRule) :
    (evaluateGate record.intent (replayContext record policy rules)).map
        GateDecision.verdict =
      if Floored record.intent (replayContext record policy rules) then
        .ok ⟨.block, none, .none, none⟩
      else
        match selectMandate record.intent (replayContext record policy rules) with
        | none => .ok ⟨.confirmOperator, none, .none, none⟩
        | some mandate =>
            (evaluateUnderMandate record.intent (replayContext record policy rules) mandate
              ((record.inputs.periodSpendByMandate.get mandate.id).getD [])).map
                GateDecision.verdict := by
  by_cases hfloor : Floored record.intent (replayContext record policy rules)
  · obtain ⟨decision, hdecision, hverdict⟩ := evaluateGate_floored hfloor
    rw [if_pos hfloor, hdecision, ← hverdict]
    rfl
  · rw [if_neg hfloor]
    rcases evaluateGate_unfloored hfloor with ⟨hnone, decision, hdecision, hverdict⟩ |
      ⟨mandate, hselect, hunder⟩
    · rw [hnone, hdecision, ← hverdict]
      rfl
    · rw [hselect, hunder]
      rfl

/-! ## The selected mandate under two orders -/

/-- Lists that correspond find corresponding first elements. -/
theorem find?_forall₂ {α β : Type} {R : α → β → Prop} {p : α → Bool} {q : β → Bool}
    (hpq : ∀ a b, R a b → p a = q b) {as : List α} {bs : List β}
    (h : List.Forall₂ R as bs) : Option.Rel R (as.find? p) (bs.find? q) := by
  induction h with
  | nil => exact .none
  | @cons a b as bs hab _ ih =>
      rw [List.find?_cons, List.find?_cons, ← hpq a b hab]
      cases p a with
      | true => exact .some hab
      | false => exact ih

theorem sameId_of_rel {o o' : Option Mandate} (h : Option.Rel SameTerms o o') :
    o.map Mandate.id = o'.map Mandate.id := by
  cases h with
  | none => rfl
  | some hm => exact congrArg some hm.id_eq

/-- The first element that satisfies `p` is the first among those it shares a
test with. -/
theorem find?_filter_of_find? {α : Type} {p q : α → Bool} {xs : List α} {x : α}
    (h : xs.find? p = some x) (hx : q x = true) : (xs.filter q).find? p = some x := by
  induction xs with
  | nil => cases h
  | cons y ys ih =>
      rw [List.find?_cons] at h
      cases hp : p y with
      | true =>
          rw [hp] at h
          cases h
          rw [List.filter_cons_of_pos hx, List.find?_cons, hp]
      | false =>
          rw [hp] at h
          rw [List.filter_cons]
          split
          · rw [List.find?_cons, hp]
            exact ih h
          · exact ih h

/-- The hashed lists correspond mandate by mandate. -/
theorem sameTerms_sorted {P Q : EffectivePolicy} (h : normalizedPolicy P = normalizedPolicy Q) :
    List.Forall₂ SameTerms (sortByKey Mandate.id P.mandates)
      (sortByKey Mandate.id Q.mandates) := by
  simp only [normalizedPolicy, JsValue.obj.injEq, List.cons.injEq, Prod.mk.injEq, true_and,
    JsValue.arr.injEq] at h
  have hmap := List.forall₂_eq_eq_eq ▸ h.1
  rw [List.forall₂_map_left_iff, List.forall₂_map_right_iff] at hmap
  exact hmap.imp fun _ _ hvalue => sameTerms_of_mandateValue hvalue

/-- The mandates of one id stand in one order in both policies, on the same
terms. -/
theorem sameTerms_filter {P Q : EffectivePolicy} (h : normalizedPolicy P = normalizedPolicy Q)
    (k : String) : List.Forall₂ SameTerms (P.mandates.filter fun m => m.id == k)
      (Q.mandates.filter fun m => m.id == k) := by
  rw [← filter_sortByKey Mandate.id k P.mandates, ← filter_sortByKey Mandate.id k Q.mandates]
  refine List.rel_filter ?_ (sameTerms_sorted h)
  intro m m' hm
  show (m.id == k) = true ↔ (m'.id == k) = true
  rw [hm.id_eq]

theorem gateConfig_of_normalizedPolicy {P Q : EffectivePolicy}
    (h : normalizedPolicy P = normalizedPolicy Q) : P.gateConfig = Q.gateConfig := by
  simp only [normalizedPolicy, JsValue.obj.injEq, List.cons.injEq, Prod.mk.injEq, true_and,
    and_true, JsValue.num.injEq] at h
  obtain ⟨-, ⟨hchars, hwindow, hcount, hanomaly⟩, -⟩ := h
  cases hP : P.gateConfig
  cases hQ : Q.gateConfig
  simp_all

section Pinned

variable {P Q : EffectivePolicy} (record : DecisionRecord) (rules : List DenyRule)

/-- Two policies with one normal form give the gate contexts that differ in the
order of the mandates at most. -/
theorem replayContext_eq (h : normalizedPolicy P = normalizedPolicy Q) :
    replayContext record Q rules =
      { replayContext record P rules with mandates := Q.mandates } := by
  simp only [replayContext, gateConfig_of_normalizedPolicy h]

/-- Selected under one id, the mandates are on the same terms. -/
theorem sameTerms_of_select (h : normalizedPolicy P = normalizedPolicy Q) {m m' : Mandate}
    (hm : selectMandate record.intent (replayContext record P rules) = some m)
    (hm' : selectMandate record.intent (replayContext record Q rules) = some m')
    (hid : m.id = m'.id) : SameTerms m m' := by
  rw [replayContext_eq record rules h] at hm'
  have hfirst := find?_filter_of_find? (q := fun x => x.id == m.id) hm (by simp)
  have hfirst' := find?_filter_of_find? (q := fun x => x.id == m.id) hm' (by simp [hid])
  have hrel := find?_forall₂ (R := SameTerms) (fun _ _ hterms => hterms.eligible record.intent
    record.at' (replayContext record P rules).convert) (sameTerms_filter h m.id)
  simp only [replayContext] at hfirst hfirst' hrel
  rw [hfirst, hfirst'] at hrel
  cases hrel with
  | some hterms => exact hterms

/-- The verdict of the gate on a record under a disclosed policy. -/
def verdictUnder (policy : EffectivePolicy) : Except String Verdict :=
  (evaluateGate record.intent (replayContext record policy rules)).map GateDecision.verdict

/-- The selected mandate would carry the payment, but the velocity window
starts at no date, so the gate throws. -/
def Undated (policy : EffectivePolicy) : Prop :=
  ∃ m, selectMandate record.intent (replayContext record policy rules) = some m ∧
    ¬ OverCap record.intent (replayContext record policy rules) m
      ((record.inputs.periodSpendByMandate.get m.id).getD []) ∧
    ∃ e, velocityWindowStart (replayContext record policy rules) = .error e

/-- Both lists come to the same mandate first, unless no list is read or none
leads to a verdict. -/
def SameChoice (P Q : EffectivePolicy) : Prop :=
  Floored record.intent (replayContext record P rules) ∨
    (selectMandate record.intent (replayContext record P rules)).map Mandate.id =
      (selectMandate record.intent (replayContext record Q rules)).map Mandate.id ∨
    Undated record rules P ∧ Undated record rules Q

/-- **The policy hash pins the verdict exactly when both policies come to the
same mandate first.**  Labels, grant dates and the order of rails may differ
freely; the order of mandates that cover one payment may not. -/
theorem policy_hash_pins_verdict_iff (h : normalizedPolicy P = normalizedPolicy Q) :
    verdictUnder record rules P = verdictUnder record rules Q ↔
      SameChoice record rules P Q := by
  have hctx := replayContext_eq record rules h
  have hfloor : Floored record.intent (replayContext record Q rules) ↔
      Floored record.intent (replayContext record P rules) := by
    rw [hctx]
    exact Iff.rfl
  unfold verdictUnder SameChoice Undated
  rw [evaluateGate_verdict, evaluateGate_verdict]
  by_cases hfloored : Floored record.intent (replayContext record P rules)
  · simp [hfloored, hfloor]
  rw [if_neg hfloored, if_neg (fun hq => hfloored (hfloor.1 hq))]
  cases hP : selectMandate record.intent (replayContext record P rules) with
  | none =>
      cases hQ : selectMandate record.intent (replayContext record Q rules) with
      | none => simp
      | some m' =>
          simp only [evaluateUnderMandate_verdict]
          split <;> cases velocityWindowStart (replayContext record Q rules) <;>
            simp [hfloored, Except.map]
  | some m =>
      cases hQ : selectMandate record.intent (replayContext record Q rules) with
      | none =>
          simp only [evaluateUnderMandate_verdict]
          split <;> cases velocityWindowStart (replayContext record P rules) <;>
            simp [hfloored, Except.map]
      | some m' =>
          have hswap : evaluateUnderMandate record.intent (replayContext record Q rules) m' =
              evaluateUnderMandate record.intent (replayContext record P rules) m' := by
            rw [hctx]
            rfl
          have hover : OverCap record.intent (replayContext record Q rules) m' =
              OverCap record.intent (replayContext record P rules) m' := by
            rw [hctx]
            rfl
          have hwindow : velocityWindowStart (replayContext record Q rules) =
              velocityWindowStart (replayContext record P rules) := by
            rw [hctx]
            rfl
          by_cases hid : m.id = m'.id
          · have hterms := sameTerms_of_select record rules h hP hQ hid
            simp only [hswap, hid, Option.map_some, true_or, or_true, iff_true]
            exact hterms.verdict _ _ _
          · simp only [hswap, hover, hwindow, verdict_eq_iff_of_ne hid, hfloored, hid,
              Option.map_some, Option.some.injEq, false_or, exists_eq_left']
            constructor
            · rintro ⟨hwithin, hwithin', hthrows⟩
              exact ⟨⟨hwithin, hthrows⟩, hwithin', hthrows⟩
            · rintro ⟨⟨hwithin, hthrows⟩, hwithin', -⟩
              exact ⟨hwithin, hwithin', hthrows⟩

/-- Policies as `effectivePolicy` snapshots them list their mandates in the
order of the hash, so their hash does pin the verdict. -/
theorem sameChoice_of_effectivePolicy {ms ms' : List Mandate} {config config' : GateConfig}
    {denyRules denyRules' : List DenyRule}
    (h : normalizedPolicy (effectivePolicy ms config denyRules) =
      normalizedPolicy (effectivePolicy ms' config' denyRules')) :
    SameChoice record rules (effectivePolicy ms config denyRules)
      (effectivePolicy ms' config' denyRules') := by
  have hterms := sameTerms_sorted h
  have hsorted := sortByKey_of_sorted Mandate.id (sortedByKey_sortByKey Mandate.id ms)
  have hsorted' := sortByKey_of_sorted Mandate.id (sortedByKey_sortByKey Mandate.id ms')
  simp only [effectivePolicy, hsorted, hsorted'] at hterms
  have hrel := find?_forall₂ (R := SameTerms) (fun _ _ hm => hm.eligible record.intent
    record.at' (record.inputs.fxRates.map replayConvert)) hterms
  exact Or.inr (Or.inl (sameId_of_rel hrel))

end Pinned

/-! ## Two orders of two mandates -/

namespace Sample

/-- Authority over one class of payees, up to `perTxCap` a payment. -/
def authority (id : String) (perTxCap : JsNumber) : Mandate where
  id := id
  label := ""
  scope := .class "saas"
  currency := "USD"
  allowedRails := [.card]
  perTxCap := perTxCap
  perPeriodCap := 100
  period := .month
  grantedAt := ""
  expiresAt := "2027-01-01T00:00:00.000Z"
  status := .active

def policyOf (mandates : List Mandate) : EffectivePolicy where
  mandates := mandates
  gateConfig := defaultGateConfig
  denyRuleIds := []
  riskConfig := { velocityWindowMinutes := 60, velocityMaxCount := 5, anomalyMultiple := 3 }

def wide : Mandate := authority "a" 60

def narrow : Mandate := authority "b" 5

/-- A payment of ten to a known payee. -/
def recorded : DecisionRecord where
  intent :=
    { id := "p", payee := "acme", payeeClass := "saas", amount := 10, currency := "USD",
      rail := .card, rationale := "monthly seats", createdAt := "" }
  ctxDigest := ""
  verdict := gateBlock [] none
  policyHash := ""
  at' := "2026-03-05T12:00:00.000Z"
  inputs :=
    { reversibility := none, attestation := none, reputation := none, trust := some .seen
      knownPayees := ["acme"], periodSpendByMandate := .empty, fxRates := none }

/-- The hash does not see the order. -/
theorem normalizedPolicy_swap :
    normalizedPolicy (policyOf [narrow, wide]) = normalizedPolicy (policyOf [wide, narrow]) := by
  have hsort : sortByKey Mandate.id [narrow, wide] = sortByKey Mandate.id [wide, narrow] := by
    decide +kernel
  simp only [normalizedPolicy, policyOf, hsort]

end Sample

open Sample in
/-- A relabelled mandate hashes and decides as before. -/
theorem policy_hash_pins_relabelled_verdict :
    verdictUnder recorded [] (policyOf [{ wide with label := "seats" }]) =
      verdictUnder recorded [] (policyOf [wide]) :=
  (policy_hash_pins_verdict_iff recorded [] rfl).2 (Or.inr (Or.inl (by decide +kernel)))

open Sample in
/-- Listed in one order the gate executes the payment, in the other it blocks
it, under one hash. -/
theorem mandate_order_changes_verdict :
    normalizedPolicy (policyOf [narrow, wide]) = normalizedPolicy (policyOf [wide, narrow]) ∧
      verdictUnder recorded [] (policyOf [narrow, wide]) ≠
        verdictUnder recorded [] (policyOf [wide, narrow]) := by
  refine ⟨normalizedPolicy_swap, ?_⟩
  intro h
  have hblock : (verdictUnder recorded [] (policyOf [narrow, wide])).toOption.map
      Verdict.outcome = some .block := by decide +kernel
  have hauto : (verdictUnder recorded [] (policyOf [wide, narrow])).toOption.map
      Verdict.outcome = some .autoExecute := by decide +kernel
  rw [h, hauto] at hblock
  cases hblock

end AgentWorth
