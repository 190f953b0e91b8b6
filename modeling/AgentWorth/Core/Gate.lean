import AgentWorth.Core.Risk
import AgentWorth.Lib.Effect
import AgentWorth.Lib.Timestamp

/-!
# The gate

`src/core/gate.ts`: the pure decision every payment passes.  Six stages in the
source's order: boundary validation, the hard deny-list, authority, caps,
elevated signals, autonomous execution.
-/

namespace AgentWorth

open AgentWorth.Js AgentWorth.Lib

def isLiveMandate (m : Mandate) (now : String) : Bool :=
  m.status == .active && strLt now m.expiresAt

def scopeCovers (scope : PayeeScope) (intent : PaymentIntent) : Bool :=
  match scope with
  | .class value => value == intent.payeeClass
  | .allowlist values => values.contains intent.payee

def covers (m : Mandate) (intent : PaymentIntent) (convert : Option Convert) : Bool :=
  m.allowedRails.contains intent.rail && scopeCovers m.scope intent &&
    (m.currency == intent.currency ||
      match convert with
      | some convert => (convert intent.amount intent.currency m.currency).isSome
      | none => false)

def noRisk : SpendRisk := { tier := .none, score := 0, reasons := [] }

/-- The `block` helper of `evaluateGate`: a refusal before risk is scored. -/
def gateBlock (reasons : List String) (suggestedFix : Option SafeFix) : GateDecision where
  outcome := .block
  reasons := reasons
  mandateId := none
  risk := noRisk
  remainingPeriodBudget := none
  suggestedFix := suggestedFix

/-- The reversibility the gate settles under: the provider's, else the kind's. -/
def gateReversibility (intent : PaymentIntent) (ctx : GateContext) : Reversibility :=
  ctx.reversibility.getD (railReversibility intent.rail)

/-- Stage 1 refuses. -/
def badAmount (intent : PaymentIntent) : Bool :=
  !intent.amount.isInteger || decide (intent.amount ≤ 0)

def shortRationale (intent : PaymentIntent) (config : GateConfig) : Bool :=
  decide ((strLength (trim intent.rationale) : JsNumber) < config.minRationaleChars)

/-- Stage 2: the first deny rule that matches. -/
def denyingRule (intent : PaymentIntent) (ctx : GateContext) : Option DenyRule :=
  ctx.denyRules.find? fun rule =>
    rule.match' intent
      { knownPayees := ctx.knownPayees, reversibility := gateReversibility intent ctx }

/-- Stage 3: the first live mandate, in list order, that covers the intent. -/
def selectMandate (intent : PaymentIntent) (ctx : GateContext) : Option Mandate :=
  ctx.mandates.find? fun m => isLiveMandate m ctx.now && covers m intent ctx.convert

/-- Trust of the payee as the gate sees it. -/
def gateTrust (intent : PaymentIntent) (ctx : GateContext) : TrustLevel :=
  match ctx.trustOf with
  | some trustOf => trustOf intent.payee
  | none => if ctx.knownPayees intent.payee then .seen else .new

/-- The amount measured in the mandate's currency. -/
def amountInMandate (intent : PaymentIntent) (ctx : GateContext) (mandate : Mandate) :
    JsNumber :=
  if mandate.currency = intent.currency then intent.amount
  else
    match ctx.convert with
    | some convert => (convert intent.amount intent.currency mandate.currency).getD intent.amount
    | none => intent.amount

/-- `periodSpend.reduce((sum, s) => sum + s.amount, 0)`. -/
def spentTotal (periodSpend : List PriorSpend) : JsNumber :=
  JsNumber.sum (periodSpend.map PriorSpend.amount)

/-- The risk of the intent given the authorizing mandate's spend. -/
def gateRisk (intent : PaymentIntent) (ctx : GateContext) (periodSpend : List PriorSpend) :
    SpendRisk :=
  classifySpendRisk intent
    { trust := gateTrust intent ctx
      periodSpend := periodSpend
      config := ctx.config
      reversibility := gateReversibility intent ctx
      attestation := ctx.attestation
      reputation := ctx.reputationOf.bind fun reputationOf => reputationOf intent.payee }

/-- Start of the velocity window. -/
def velocityWindowStart (ctx : GateContext) : Except String String :=
  Date.toISOString
    (Date.getTime ctx.now - ctx.config.velocityWindowMinutes * .fin 60000)

/-- Payments of the period at or after the window start. -/
def recentCount (periodSpend : List PriorSpend) (windowStart : String) : Nat :=
  (periodSpend.filter fun s => !strLt s.at' windowStart).length

/-- Stage 5: the signals that route a payment to the operator. -/
def elevatedReasons (intent : PaymentIntent) (ctx : GateContext)
    (periodSpend : List PriorSpend) (windowStart : String) : List String :=
  (if gateTrust intent ctx = .new then ["new payee"] else []) ++
    ((if ctx.config.velocityMaxCount ≤ (recentCount periodSpend windowStart : JsNumber) then
        ["velocity ceiling: " ++ toString (recentCount periodSpend windowStart) ++
          " payments in the last " ++ toString ctx.config.velocityWindowMinutes ++ "m"]
      else []) ++
      (if (gateRisk intent ctx periodSpend).tier = .high then ["elevated spend-risk"]
        else []))

/-- Stages 4 to 6, under the authorizing mandate and its period spend. -/
def evaluateUnderMandate (intent : PaymentIntent) (ctx : GateContext) (mandate : Mandate)
    (periodSpend : List PriorSpend) : Except String GateDecision :=
  let risk := gateRisk intent ctx periodSpend
  let amount := amountInMandate intent ctx mandate
  let spent := spentTotal periodSpend
  let remaining := mandate.perPeriodCap - spent - amount
  if mandate.perTxCap < amount then
    .ok { outcome := .block
          reasons := ["amount " ++ toString amount ++ " " ++ mandate.currency ++
            " exceeds per-transaction cap " ++ toString mandate.perTxCap]
          mandateId := some mandate.id
          risk := risk
          remainingPeriodBudget := none
          suggestedFix := some
            { code := "INCREASE_TX_CAP"
              message := "Exceeds per-transaction limit of " ++ toString mandate.perTxCap ++
                " " ++ mandate.currency ++
                ". Request operator to increase cap or split payment."
              parameters := some
                [("mandateId", .str mandate.id), ("limit", .num mandate.perTxCap)] } }
  else if remaining < 0 then
    .ok { outcome := .block
          reasons := ["amount " ++ toString intent.amount ++ " would exceed the " ++
            mandate.period.text ++ " budget (" ++ toString spent ++ " already spent of " ++
            toString mandate.perPeriodCap ++ ")"]
          mandateId := some mandate.id
          risk := risk
          remainingPeriodBudget := none
          suggestedFix := some
            { code := "INCREASE_PERIOD_CAP"
              message := "Exceeds period budget (" ++ toString spent ++ " spent of " ++
                toString mandate.perPeriodCap ++
                "). Request operator to increase period cap."
              parameters := some
                [("mandateId", .str mandate.id), ("limit", .num mandate.perPeriodCap),
                  ("spent", .num spent)] } }
  else
    (velocityWindowStart ctx).map fun windowStart =>
      let reasons := elevatedReasons intent ctx periodSpend windowStart
      if reasons ≠ [] then
        { outcome := .confirmOperator
          reasons := reasons
          mandateId := some mandate.id
          risk := risk
          remainingPeriodBudget := some remaining
          suggestedFix := some
            { code := "CONFIRM_OPERATOR"
              message := "Requires operator confirmation. Ask operator to approve intent ID " ++
                intent.id ++ "."
              parameters := some [("intentId", .str intent.id)] } }
      else
        { outcome := .autoExecute
          reasons := ["within live mandate, under caps, low risk"]
          mandateId := some mandate.id
          risk := risk
          remainingPeriodBudget := some remaining
          suggestedFix := none }

def evaluateGate (intent : PaymentIntent) (ctx : GateContext) : Except String GateDecision :=
  if badAmount intent then
    .ok (gateBlock ["amount must be a positive integer in minor-units"] none)
  else if shortRationale intent ctx.config then
    .ok (gateBlock
      ["rationale must be at least " ++ toString ctx.config.minRationaleChars ++ " characters"]
      (some
        { code := "EXPAND_RATIONALE"
          message := "Add more details to rationale (must be at least " ++
            toString ctx.config.minRationaleChars ++ " characters)"
          parameters := none }))
  else
    match denyingRule intent ctx with
    | some rule =>
        .ok (gateBlock ["deny-list: " ++ rule.reason]
          (some
            { code := "DENY_LIST_BYPASS"
              message :=
                "Payment is on a hard deny-list. Verify payee or request operator override."
              parameters := none }))
    | none =>
        match selectMandate intent ctx with
        | none =>
            .ok { outcome := .confirmOperator
                  reasons :=
                    ["no live mandate covers this payment — operator authorization required"]
                  mandateId := none
                  risk := noRisk
                  remainingPeriodBudget := none
                  suggestedFix := some
                    { code := "GRANT_MANDATE"
                      message := "Run 'agentworth mandate grant --label target --class " ++
                        intent.payeeClass ++ " ...'"
                      parameters := some
                        [("payeeClass", .str intent.payeeClass),
                          ("payee", .str intent.payee)] } }
        | some mandate =>
            (ctx.periodSpendByMandate mandate.id).bind
              (evaluateUnderMandate intent ctx mandate)

/-! ## What a decision says -/

/-- Stages 1 and 2 refuse, whatever the mandates. -/
def Floored (intent : PaymentIntent) (ctx : GateContext) : Prop :=
  badAmount intent = true ∨ shortRationale intent ctx.config = true ∨
    (denyingRule intent ctx).isSome = true

instance (intent : PaymentIntent) (ctx : GateContext) : Decidable (Floored intent ctx) :=
  inferInstanceAs (Decidable (_ ∨ _ ∨ _))

/-- The budget the mandate has left after the payment. -/
def remainingBudget (intent : PaymentIntent) (ctx : GateContext) (mandate : Mandate)
    (periodSpend : List PriorSpend) : JsNumber :=
  mandate.perPeriodCap - spentTotal periodSpend - amountInMandate intent ctx mandate

/-- Stage 4 refuses. -/
def OverCap (intent : PaymentIntent) (ctx : GateContext) (mandate : Mandate)
    (periodSpend : List PriorSpend) : Prop :=
  mandate.perTxCap < amountInMandate intent ctx mandate ∨
    remainingBudget intent ctx mandate periodSpend < 0

instance (intent : PaymentIntent) (ctx : GateContext) (mandate : Mandate)
    (periodSpend : List PriorSpend) :
    Decidable (OverCap intent ctx mandate periodSpend) :=
  inferInstanceAs (Decidable (_ ∨ _))

/-- The part of a decision that binds: what `verdictsEqual` compares. -/
structure Verdict where
  outcome : GateOutcome
  mandateId : Option String
  tier : SpendRiskTier
  remaining : Option JsNumber

def GateDecision.verdict (decision : GateDecision) : Verdict where
  outcome := decision.outcome
  mandateId := decision.mandateId
  tier := decision.risk.tier
  remaining := decision.remainingPeriodBudget

theorem evaluateUnderMandate_overCap {intent : PaymentIntent} {ctx : GateContext}
    {mandate : Mandate} {periodSpend : List PriorSpend}
    (h : OverCap intent ctx mandate periodSpend) :
    ∃ decision, evaluateUnderMandate intent ctx mandate periodSpend = .ok decision ∧
      decision.verdict =
        ⟨.block, some mandate.id, (gateRisk intent ctx periodSpend).tier, none⟩ := by
  unfold evaluateUnderMandate
  by_cases hcap : mandate.perTxCap < amountInMandate intent ctx mandate
  · rw [if_pos hcap]
    exact ⟨_, rfl, rfl⟩
  · have hrem : mandate.perPeriodCap - spentTotal periodSpend -
        amountInMandate intent ctx mandate < 0 := h.resolve_left hcap
    rw [if_neg hcap, if_pos hrem]
    exact ⟨_, rfl, rfl⟩

/-- Within the caps, the outcome is automatic exactly when nothing is elevated. -/
theorem evaluateUnderMandate_within {intent : PaymentIntent} {ctx : GateContext}
    {mandate : Mandate} {periodSpend : List PriorSpend} {windowStart : String}
    (h : ¬ OverCap intent ctx mandate periodSpend)
    (hwindow : velocityWindowStart ctx = .ok windowStart) :
    ∃ decision, evaluateUnderMandate intent ctx mandate periodSpend = .ok decision ∧
      decision.verdict =
        ⟨if elevatedReasons intent ctx periodSpend windowStart = [] then .autoExecute
            else .confirmOperator,
          some mandate.id, (gateRisk intent ctx periodSpend).tier,
          some (remainingBudget intent ctx mandate periodSpend)⟩ := by
  unfold OverCap at h
  rw [not_or] at h
  have hrem : ¬ mandate.perPeriodCap - spentTotal periodSpend -
      amountInMandate intent ctx mandate < 0 := h.2
  unfold evaluateUnderMandate
  rw [if_neg h.1, if_neg hrem, hwindow]
  by_cases hreasons : elevatedReasons intent ctx periodSpend windowStart = []
  · simp only [Except.map, hreasons, ne_eq, not_true_eq_false, if_false, if_true]
    exact ⟨_, rfl, rfl⟩
  · simp only [Except.map, hreasons, ne_eq, not_false_eq_true, if_true, if_false]
    exact ⟨_, rfl, rfl⟩

/-- The ways a decision under a mandate comes about. -/
theorem evaluateUnderMandate_cases {intent : PaymentIntent} {ctx : GateContext}
    {mandate : Mandate} {periodSpend : List PriorSpend} {decision : GateDecision}
    (h : evaluateUnderMandate intent ctx mandate periodSpend = .ok decision) :
    (OverCap intent ctx mandate periodSpend ∧ decision.verdict =
      ⟨.block, some mandate.id, (gateRisk intent ctx periodSpend).tier, none⟩) ∨
    ¬ OverCap intent ctx mandate periodSpend ∧
      ∃ windowStart, velocityWindowStart ctx = .ok windowStart ∧ decision.verdict =
        ⟨if elevatedReasons intent ctx periodSpend windowStart = [] then .autoExecute
            else .confirmOperator,
          some mandate.id, (gateRisk intent ctx periodSpend).tier,
          some (remainingBudget intent ctx mandate periodSpend)⟩ := by
  by_cases hover : OverCap intent ctx mandate periodSpend
  · obtain ⟨decision', h', hv⟩ := evaluateUnderMandate_overCap hover
    rw [h] at h'
    cases h'
    exact Or.inl ⟨hover, hv⟩
  · cases hwindow : velocityWindowStart ctx with
    | ok windowStart =>
        obtain ⟨decision', h', hv⟩ := evaluateUnderMandate_within hover hwindow
        rw [h] at h'
        cases h'
        exact Or.inr ⟨hover, windowStart, rfl, hv⟩
    | error e =>
        have hnot := not_or.1 hover
        have hrem : ¬ mandate.perPeriodCap - spentTotal periodSpend -
            amountInMandate intent ctx mandate < 0 := hnot.2
        unfold evaluateUnderMandate at h
        rw [if_neg hnot.1, if_neg hrem, hwindow] at h
        cases h

/-- The risk a decision reports is the one scored under its mandate. -/
theorem evaluateUnderMandate_risk {intent : PaymentIntent} {ctx : GateContext}
    {mandate : Mandate} {periodSpend : List PriorSpend} {decision : GateDecision}
    (h : evaluateUnderMandate intent ctx mandate periodSpend = .ok decision) :
    decision.risk = gateRisk intent ctx periodSpend := by
  simp only [evaluateUnderMandate] at h
  split at h
  · cases h
    rfl
  · split at h
    · cases h
      rfl
    · obtain ⟨windowStart, -, hdecision⟩ := except_map_eq_ok.1 h
      rw [← hdecision]
      split <;> rfl

theorem evaluateGate_floored {intent : PaymentIntent} {ctx : GateContext}
    (h : Floored intent ctx) :
    ∃ decision, evaluateGate intent ctx = .ok decision ∧
      decision.verdict = ⟨.block, none, .none, none⟩ := by
  unfold evaluateGate
  by_cases hbad : badAmount intent = true
  · rw [if_pos hbad]
    exact ⟨_, rfl, rfl⟩
  · rw [if_neg hbad]
    by_cases hshort : shortRationale intent ctx.config = true
    · rw [if_pos hshort]
      exact ⟨_, rfl, rfl⟩
    · rw [if_neg hshort]
      obtain ⟨rule, hrule⟩ :=
        Option.isSome_iff_exists.1 ((h.resolve_left hbad).resolve_left hshort)
      rw [hrule]
      exact ⟨_, rfl, rfl⟩

/-- Past the floor, the decision is that of the selected mandate. -/
theorem evaluateGate_unfloored {intent : PaymentIntent} {ctx : GateContext}
    (h : ¬ Floored intent ctx) :
    (selectMandate intent ctx = none ∧ ∃ decision, evaluateGate intent ctx = .ok decision ∧
      decision.verdict = ⟨.confirmOperator, none, .none, none⟩) ∨
    ∃ mandate, selectMandate intent ctx = some mandate ∧
      evaluateGate intent ctx = (ctx.periodSpendByMandate mandate.id).bind
        (evaluateUnderMandate intent ctx mandate) := by
  simp only [Floored, not_or, Bool.not_eq_true, Option.isSome_eq_false_iff,
    Option.isNone_iff_eq_none] at h
  obtain ⟨hbad, hshort, hdeny⟩ := h
  unfold evaluateGate
  simp only [hbad, hshort, hdeny, Bool.false_eq_true, if_false]
  cases hsel : selectMandate intent ctx with
  | none => exact Or.inl ⟨rfl, _, rfl, rfl⟩
  | some mandate => exact Or.inr ⟨mandate, rfl, rfl⟩

/-- **The ways a gate decision comes about.** -/
theorem evaluateGate_cases {intent : PaymentIntent} {ctx : GateContext}
    {decision : GateDecision} (h : evaluateGate intent ctx = .ok decision) :
    (Floored intent ctx ∧ decision.verdict = ⟨.block, none, .none, none⟩) ∨
    (¬ Floored intent ctx ∧ selectMandate intent ctx = none ∧
      decision.verdict = ⟨.confirmOperator, none, .none, none⟩) ∨
    ¬ Floored intent ctx ∧ ∃ mandate periodSpend, selectMandate intent ctx = some mandate ∧
      ctx.periodSpendByMandate mandate.id = .ok periodSpend ∧
      evaluateUnderMandate intent ctx mandate periodSpend = .ok decision := by
  by_cases hfloor : Floored intent ctx
  · obtain ⟨decision', h', hv⟩ := evaluateGate_floored hfloor
    rw [h] at h'
    cases h'
    exact Or.inl ⟨hfloor, hv⟩
  · rcases evaluateGate_unfloored hfloor with ⟨hnone, decision', h', hv⟩ | ⟨mandate, hsel, heq⟩
    · rw [h] at h'
      cases h'
      exact Or.inr (Or.inl ⟨hfloor, hnone, hv⟩)
    · rw [heq] at h
      obtain ⟨spend, hspend, hunder⟩ := except_bind_eq_ok.1 h
      exact Or.inr (Or.inr ⟨hfloor, mandate, spend, hsel, hspend, hunder⟩)

/-- The mandate a decision names is the selected one. -/
theorem selectMandate_of_mandateId {intent : PaymentIntent} {ctx : GateContext}
    {decision : GateDecision} {id : String} (h : evaluateGate intent ctx = .ok decision)
    (hid : decision.mandateId = some id) :
    ∃ mandate, selectMandate intent ctx = some mandate ∧ mandate.id = id := by
  have hid' : decision.verdict.mandateId = some id := hid
  rcases evaluateGate_cases h with ⟨-, hv⟩ | ⟨-, -, hv⟩ | ⟨-, m, spend, hsel, -, hunder⟩
  · rw [hv] at hid'
    cases hid'
  · rw [hv] at hid'
    cases hid'
  · refine ⟨m, hsel, ?_⟩
    rcases evaluateUnderMandate_cases hunder with ⟨-, hv⟩ | ⟨-, ws, -, hv⟩ <;>
      rw [hv] at hid' <;> exact Option.some.inj hid'

/-- What holds of every payment the gate executes. -/
structure AutoExecutable (intent : PaymentIntent) (ctx : GateContext) (mandate : Mandate)
    (periodSpend : List PriorSpend) : Prop where
  unfloored : ¬ Floored intent ctx
  selected : selectMandate intent ctx = some mandate
  spend : ctx.periodSpendByMandate mandate.id = .ok periodSpend
  within : ¬ OverCap intent ctx mandate periodSpend
  calm : ∃ windowStart, velocityWindowStart ctx = .ok windowStart ∧
    elevatedReasons intent ctx periodSpend windowStart = []

theorem evaluateGate_auto {intent : PaymentIntent} {ctx : GateContext}
    {decision : GateDecision} (h : evaluateGate intent ctx = .ok decision)
    (hauto : decision.outcome = .autoExecute) :
    ∃ mandate periodSpend, AutoExecutable intent ctx mandate periodSpend ∧
      decision.verdict =
        ⟨.autoExecute, some mandate.id, (gateRisk intent ctx periodSpend).tier,
          some (remainingBudget intent ctx mandate periodSpend)⟩ := by
  have hout : decision.verdict.outcome = .autoExecute := hauto
  rcases evaluateGate_cases h with ⟨-, hv⟩ | ⟨-, -, hv⟩ | ⟨hfloor, m, spend, hsel, hspend, hunder⟩
  · rw [hv] at hout
    cases hout
  · rw [hv] at hout
    cases hout
  · rcases evaluateUnderMandate_cases hunder with ⟨-, hv⟩ | ⟨hwithin, ws, hws, hv⟩
    · rw [hv] at hout
      cases hout
    · by_cases hcalm : elevatedReasons intent ctx spend ws = []
      · rw [if_pos hcalm] at hv
        exact ⟨m, spend, ⟨hfloor, hsel, hspend, hwithin, ws, hws, hcalm⟩, hv⟩
      · rw [hv, if_neg hcalm] at hout
        cases hout

/-- The velocity ceiling is not reached when no signal is elevated. -/
theorem not_ceiling_of_calm {intent : PaymentIntent} {ctx : GateContext}
    {periodSpend : List PriorSpend} {windowStart : String}
    (h : elevatedReasons intent ctx periodSpend windowStart = []) :
    ¬ ctx.config.velocityMaxCount ≤ (recentCount periodSpend windowStart : JsNumber) := by
  intro hceiling
  simp only [elevatedReasons, if_pos hceiling, List.append_eq_nil_iff] at h
  exact absurd h.2.1 (by simp)

/-- Such a payment is executed. -/
theorem AutoExecutable.outcome {intent : PaymentIntent} {ctx : GateContext} {mandate : Mandate}
    {periodSpend : List PriorSpend} {decision : GateDecision}
    (h : AutoExecutable intent ctx mandate periodSpend)
    (hgate : evaluateGate intent ctx = .ok decision) : decision.outcome = .autoExecute := by
  obtain ⟨ws, hws, hcalm⟩ := h.calm
  obtain ⟨decision', hunder, hv⟩ := evaluateUnderMandate_within h.within hws
  rcases evaluateGate_unfloored h.unfloored with ⟨hnone, -⟩ | ⟨m, hsel, heq⟩
  · rw [h.selected] at hnone
    cases hnone
  · rw [h.selected] at hsel
    cases hsel
    rw [hgate, h.spend] at heq
    have hsame : Except.ok decision = Except.ok decision' := heq.trans hunder
    rw [if_pos hcalm] at hv
    rw [Except.ok.inj hsame]
    exact congrArg Verdict.outcome hv

/-- The gate only lets positive integer amounts through. -/
theorem amount_of_not_floored {intent : PaymentIntent} {ctx : GateContext}
    (h : ¬ Floored intent ctx) : ∃ n : Int, 0 < n ∧ intent.amount = .fin (n : ℚ) := by
  simp only [Floored, not_or, badAmount, Bool.or_eq_true, Bool.not_eq_true',
    decide_eq_true_eq, Bool.not_eq_false] at h
  obtain ⟨⟨hint, hpos⟩, -⟩ := h
  obtain ⟨n, hn⟩ := JsNumber.isInteger_iff.1 hint
  refine ⟨n, ?_, hn⟩
  rw [hn, JsNumber.ofNat_eq_fin, JsNumber.fin_le_fin] at hpos
  have : (0 : ℚ) < (n : ℚ) := by simpa using hpos
  exact_mod_cast this

/-- Nor does it pass others on to the operator. -/
theorem amount_of_not_blocked {intent : PaymentIntent} {ctx : GateContext}
    {decision : GateDecision} (h : evaluateGate intent ctx = .ok decision)
    (hpasses : decision.outcome ≠ .block) :
    ∃ n : Int, 0 < n ∧ intent.amount = .fin (n : ℚ) := by
  refine @amount_of_not_floored intent ctx ?_
  intro hfloor
  obtain ⟨decision', h', hv⟩ := evaluateGate_floored hfloor
  rw [h] at h'
  cases h'
  exact hpasses (congrArg Verdict.outcome hv)

end AgentWorth
