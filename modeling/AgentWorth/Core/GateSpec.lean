import AgentWorth.Core.Fx
import AgentWorth.Core.Gate
import AgentWorth.Core.Store

/-!
# What the gate is for

The decision as the documentation of the gate states it, without its stages:
when a payment is refused, when it may run alone, what is reported of the
mandate.  `gate_meets_spec_iff` says exactly when the staged evaluation decides
so.  Two things can keep it from that, both in numbers it does not check: an
amount that is no number under the caps, and a velocity window whose start, or
whose entries, do not compare as text the way they do as instants.
-/

namespace AgentWorth

open AgentWorth.Js AgentWorth.Lib

/-! ## The specification -/

def PositiveInteger (amount : JsNumber) : Prop := ∃ n : Int, 0 < n ∧ amount = .fin (n : ℚ)

def Denied (intent : PaymentIntent) (ctx : GateContext) : Prop :=
  ∃ rule ∈ ctx.denyRules, rule.match' intent
    { knownPayees := ctx.knownPayees, reversibility := gateReversibility intent ctx } = true

/-- The first mandate in list order that is live and covers the intent. -/
def FirstCovering (intent : PaymentIntent) (ctx : GateContext) (mandate : Mandate) : Prop :=
  ∃ before after, ctx.mandates = before ++ mandate :: after ∧
    (isLiveMandate mandate ctx.now = true ∧ covers mandate intent ctx.convert = true) ∧
    ∀ m ∈ before, ¬ (isLiveMandate m ctx.now = true ∧ covers m intent ctx.convert = true)

/-- The payment exceeds a cap of the mandate. -/
def ExceedsCaps (intent : PaymentIntent) (ctx : GateContext) (mandate : Mandate)
    (periodSpend : List PriorSpend) : Prop :=
  mandate.perTxCap < amountInMandate intent ctx mandate ∨
    mandate.perPeriodCap < spentTotal periodSpend + amountInMandate intent ctx mandate

/-- Declined before any mandate is consulted. -/
def DeclinedOutright (intent : PaymentIntent) (ctx : GateContext) : Prop :=
  ¬ PositiveInteger intent.amount ∨
    (strLength (trim intent.rationale) : JsNumber) < ctx.config.minRationaleChars ∨
    Denied intent ctx

def Declined (intent : PaymentIntent) (ctx : GateContext) : Prop :=
  DeclinedOutright intent ctx ∨ ∃ mandate periodSpend, FirstCovering intent ctx mandate ∧
    ctx.periodSpendByMandate mandate.id = .ok periodSpend ∧
    ExceedsCaps intent ctx mandate periodSpend

/-- The instant the velocity window starts at. -/
def windowStartTime (ctx : GateContext) : JsNumber :=
  Date.getTime ctx.now - ctx.config.velocityWindowMinutes * .fin 60000

/-- Payments at or after an instant. -/
def paymentsSince (periodSpend : List PriorSpend) (start : JsNumber) : Nat :=
  (periodSpend.filter fun s => decide (start ≤ Date.getTime s.at')).length

/-- No signal asks for the operator. -/
def Unelevated (intent : PaymentIntent) (ctx : GateContext) (periodSpend : List PriorSpend) :
    Prop :=
  gateTrust intent ctx ≠ .new ∧
    (paymentsSince periodSpend (windowStartTime ctx) : JsNumber) < ctx.config.velocityMaxCount ∧
    (gateRisk intent ctx periodSpend).score < 4

/-- The payment may run without the operator. -/
def Autonomous (intent : PaymentIntent) (ctx : GateContext) : Prop :=
  ¬ Declined intent ctx ∧ ∃ mandate periodSpend, FirstCovering intent ctx mandate ∧
    ctx.periodSpendByMandate mandate.id = .ok periodSpend ∧ Unelevated intent ctx periodSpend

/-- **The specification of a decision.** -/
structure MeetsSpec (intent : PaymentIntent) (ctx : GateContext) (decision : GateDecision) :
    Prop where
  block : decision.outcome = .block ↔ Declined intent ctx
  autoExecute : decision.outcome = .autoExecute ↔ Autonomous intent ctx
  confirmOperator : decision.outcome = .confirmOperator ↔
    ¬ Declined intent ctx ∧ ¬ Autonomous intent ctx
  /-- a mandate that was reached is named -/
  mandateId : ∀ mandate, ¬ DeclinedOutright intent ctx → FirstCovering intent ctx mandate →
    decision.mandateId = some mandate.id
  /-- the budget is reported exactly on what is not refused under a mandate -/
  remaining : ∀ value, decision.remainingPeriodBudget = some value ↔
    decision.outcome ≠ .block ∧ ∃ mandate periodSpend, FirstCovering intent ctx mandate ∧
      ctx.periodSpendByMandate mandate.id = .ok periodSpend ∧
      value = mandate.perPeriodCap - spentTotal periodSpend - amountInMandate intent ctx mandate
  nonneg : ∀ value, decision.remainingPeriodBudget = some value → 0 ≤ value

/-- Where the numbers behind a decision under a mandate are what they are read
as: the lookup answers and, unless a cap refuses, the budget left is a number,
the window has a start, and the ceiling test on the entries' texts (where it
decides) comes out as on their instants. -/
def Measured (intent : PaymentIntent) (ctx : GateContext) : Prop :=
  ∀ mandate, ¬ Floored intent ctx → selectMandate intent ctx = some mandate →
    ∃ periodSpend, ctx.periodSpendByMandate mandate.id = .ok periodSpend ∧
      (OverCap intent ctx mandate periodSpend ∨
        (remainingBudget intent ctx mandate periodSpend ≠ .nan ∧
          ∃ windowStart, velocityWindowStart ctx = .ok windowStart ∧
            (gateTrust intent ctx = .new ∨ 4 ≤ (gateRisk intent ctx periodSpend).score ∨
              (ctx.config.velocityMaxCount ≤ (recentCount periodSpend windowStart : JsNumber) ↔
                ¬ (paymentsSince periodSpend (windowStartTime ctx) : JsNumber) <
                  ctx.config.velocityMaxCount))))

/-! ## The stages against the specification -/

theorem badAmount_eq_false_iff {intent : PaymentIntent} :
    badAmount intent = false ↔ PositiveInteger intent.amount := by
  simp only [badAmount, Bool.or_eq_false_iff, Bool.not_eq_false', decide_eq_false_iff_not,
    JsNumber.isInteger_iff, PositiveInteger]
  constructor
  · rintro ⟨⟨n, hn⟩, hpos⟩
    rw [hn, JsNumber.ofNat_eq_fin, JsNumber.fin_le_fin, not_le] at hpos
    exact ⟨n, by exact_mod_cast hpos, hn⟩
  · rintro ⟨n, hpos, hn⟩
    refine ⟨⟨n, hn⟩, ?_⟩
    rw [hn, JsNumber.ofNat_eq_fin, JsNumber.fin_le_fin, not_le]
    exact_mod_cast hpos

theorem denyingRule_isSome_iff {intent : PaymentIntent} {ctx : GateContext} :
    (denyingRule intent ctx).isSome = true ↔ Denied intent ctx := by
  unfold denyingRule Denied
  rw [List.find?_isSome]

theorem floored_iff {intent : PaymentIntent} {ctx : GateContext} :
    Floored intent ctx ↔ DeclinedOutright intent ctx := by
  unfold Floored DeclinedOutright
  rw [denyingRule_isSome_iff, ← badAmount_eq_false_iff, Bool.not_eq_false]
  simp only [shortRationale, decide_eq_true_eq]

theorem selectMandate_eq_some_iff {intent : PaymentIntent} {ctx : GateContext}
    {mandate : Mandate} :
    selectMandate intent ctx = some mandate ↔ FirstCovering intent ctx mandate := by
  unfold selectMandate FirstCovering
  rw [List.find?_eq_some_iff_append]
  simp only [Bool.and_eq_true, Bool.not_eq_true', Bool.and_eq_false_iff, not_and,
    Bool.not_eq_true]
  constructor
  · rintro ⟨hcover, before, after, hlist, hbefore⟩
    refine ⟨before, after, hlist, hcover, ?_⟩
    intro m hm hlive
    exact (hbefore m hm).resolve_left (by simp [hlive])
  · rintro ⟨before, after, hlist, hcover, hbefore⟩
    refine ⟨hcover, before, after, hlist, ?_⟩
    intro m hm
    cases hlive : isLiveMandate m ctx.now with
    | false => exact Or.inl rfl
    | true => exact Or.inr (hbefore m hm hlive)

theorem overCap_iff {intent : PaymentIntent} {ctx : GateContext} {mandate : Mandate}
    {periodSpend : List PriorSpend} :
    OverCap intent ctx mandate periodSpend ↔ ExceedsCaps intent ctx mandate periodSpend :=
  or_congr Iff.rfl (JsNumber.sub_sub_lt_zero_iff _ _ _)

theorem declined_iff {intent : PaymentIntent} {ctx : GateContext} :
    Declined intent ctx ↔ Floored intent ctx ∨ ∃ mandate periodSpend,
      selectMandate intent ctx = some mandate ∧
        ctx.periodSpendByMandate mandate.id = .ok periodSpend ∧
        OverCap intent ctx mandate periodSpend := by
  simp only [Declined, floored_iff, overCap_iff, selectMandate_eq_some_iff]

/-- Under the selected mandate and its spend, refusal past the floor is refusal
by a cap. -/
theorem declined_iff_overCap {intent : PaymentIntent} {ctx : GateContext} {mandate : Mandate}
    {periodSpend : List PriorSpend} (hfloor : ¬ Floored intent ctx)
    (hselect : selectMandate intent ctx = some mandate)
    (hspend : ctx.periodSpendByMandate mandate.id = .ok periodSpend) :
    Declined intent ctx ↔ OverCap intent ctx mandate periodSpend := by
  rw [declined_iff]
  constructor
  · intro h
    obtain ⟨m, spend, hm, hs, hover⟩ := h.resolve_left hfloor
    cases hselect.symm.trans hm
    cases hspend.symm.trans hs
    exact hover
  · intro hover
    exact Or.inr ⟨mandate, periodSpend, hselect, hspend, hover⟩

theorem autonomous_iff {intent : PaymentIntent} {ctx : GateContext} {mandate : Mandate}
    {periodSpend : List PriorSpend} (hfloor : ¬ Floored intent ctx)
    (hselect : selectMandate intent ctx = some mandate)
    (hspend : ctx.periodSpendByMandate mandate.id = .ok periodSpend) :
    Autonomous intent ctx ↔
      ¬ OverCap intent ctx mandate periodSpend ∧ Unelevated intent ctx periodSpend := by
  unfold Autonomous
  rw [declined_iff_overCap hfloor hselect hspend]
  constructor
  · rintro ⟨hover, m, spend, hm, hs, hcalm⟩
    rw [← selectMandate_eq_some_iff] at hm
    cases hselect.symm.trans hm
    cases hspend.symm.trans hs
    exact ⟨hover, hcalm⟩
  · rintro ⟨hover, hcalm⟩
    exact ⟨hover, mandate, periodSpend, selectMandate_eq_some_iff.1 hselect, hspend, hcalm⟩

theorem elevatedReasons_eq_nil_iff {intent : PaymentIntent} {ctx : GateContext}
    {periodSpend : List PriorSpend} {windowStart : String} :
    elevatedReasons intent ctx periodSpend windowStart = [] ↔
      gateTrust intent ctx ≠ .new ∧
        ¬ ctx.config.velocityMaxCount ≤ (recentCount periodSpend windowStart : JsNumber) ∧
        (gateRisk intent ctx periodSpend).score < 4 := by
  have htier : (gateRisk intent ctx periodSpend).tier = .high ↔
      4 ≤ (gateRisk intent ctx periodSpend).score := riskTier_high_iff _
  simp only [elevatedReasons, List.append_eq_nil_iff, ite_eq_right_iff, imp_false,
    htier, not_le, ne_eq, List.cons_ne_self]

/-! ## Each way a decision comes about -/

theorem meetsSpec_of_floored {intent : PaymentIntent} {ctx : GateContext}
    {decision : GateDecision} (hfloor : Floored intent ctx)
    (hv : decision.verdict = ⟨.block, none, .none, none⟩) : MeetsSpec intent ctx decision := by
  have hout : decision.outcome = .block := congrArg Verdict.outcome hv
  have hrem : decision.remainingPeriodBudget = none := congrArg Verdict.remaining hv
  have hdeclined : Declined intent ctx := declined_iff.2 (Or.inl hfloor)
  have hauto : ¬ Autonomous intent ctx := fun h => h.1 hdeclined
  constructor
  case block => simp [hout, hdeclined]
  case autoExecute => simp [hout, hauto]
  case confirmOperator => simp [hout, hdeclined]
  case mandateId => exact fun mandate hout _ => absurd (floored_iff.1 hfloor) hout
  case remaining => simp [hout, hrem]
  case nonneg => simp [hrem]

theorem meetsSpec_of_unselected {intent : PaymentIntent} {ctx : GateContext}
    {decision : GateDecision} (hfloor : ¬ Floored intent ctx)
    (hnone : selectMandate intent ctx = none)
    (hv : decision.verdict = ⟨.confirmOperator, none, .none, none⟩) :
    MeetsSpec intent ctx decision := by
  have hout : decision.outcome = .confirmOperator := congrArg Verdict.outcome hv
  have hrem : decision.remainingPeriodBudget = none := congrArg Verdict.remaining hv
  have hfirst : ∀ mandate, ¬ FirstCovering intent ctx mandate := by
    intro mandate h
    rw [← selectMandate_eq_some_iff, hnone] at h
    cases h
  have hdeclined : ¬ Declined intent ctx := by
    rw [declined_iff]
    simp [hfloor, hnone]
  have hauto : ¬ Autonomous intent ctx := by
    rintro ⟨-, mandate, -, h, -⟩
    exact hfirst mandate h
  constructor
  case block => simp [hout, hdeclined]
  case autoExecute => simp [hout, hauto]
  case confirmOperator => simp [hout, hdeclined, hauto]
  case mandateId => exact fun mandate _ h => absurd h (hfirst mandate)
  case remaining => simp [hrem, hfirst]
  case nonneg => simp [hrem]

section Selected

variable {intent : PaymentIntent} {ctx : GateContext} {decision : GateDecision}
  {mandate : Mandate} {periodSpend : List PriorSpend} {tier : SpendRiskTier}

theorem meetsSpec_of_overCap (hfloor : ¬ Floored intent ctx)
    (hselect : selectMandate intent ctx = some mandate)
    (hspend : ctx.periodSpendByMandate mandate.id = .ok periodSpend)
    (hover : OverCap intent ctx mandate periodSpend)
    (hv : decision.verdict = ⟨.block, some mandate.id, tier, none⟩) :
    MeetsSpec intent ctx decision := by
  have hout : decision.outcome = .block := congrArg Verdict.outcome hv
  have hid : decision.mandateId = some mandate.id := congrArg Verdict.mandateId hv
  have hrem : decision.remainingPeriodBudget = none := congrArg Verdict.remaining hv
  have hdeclined := (declined_iff_overCap hfloor hselect hspend).2 hover
  have hauto : ¬ Autonomous intent ctx := fun h => h.1 hdeclined
  constructor
  case block => simp [hout, hdeclined]
  case autoExecute => simp [hout, hauto]
  case confirmOperator => simp [hout, hdeclined]
  case mandateId =>
      intro m _ hm
      rw [← selectMandate_eq_some_iff] at hm
      cases hselect.symm.trans hm
      exact hid
  case remaining => simp [hout, hrem]
  case nonneg => simp [hrem]

/-- Within the caps, the decision is as specified when the budget left is a
number and the signals are read as specified. -/
theorem meetsSpec_within_iff {elevated : List String} (hfloor : ¬ Floored intent ctx)
    (hselect : selectMandate intent ctx = some mandate)
    (hspend : ctx.periodSpendByMandate mandate.id = .ok periodSpend)
    (hwithin : ¬ OverCap intent ctx mandate periodSpend)
    (hv : decision.verdict =
      ⟨if elevated = [] then .autoExecute else .confirmOperator, some mandate.id, tier,
        some (remainingBudget intent ctx mandate periodSpend)⟩) :
    MeetsSpec intent ctx decision ↔
      remainingBudget intent ctx mandate periodSpend ≠ .nan ∧
        (elevated = [] ↔ Unelevated intent ctx periodSpend) := by
  have hout : decision.outcome = if elevated = [] then .autoExecute else .confirmOperator :=
    congrArg Verdict.outcome hv
  have hid : decision.mandateId = some mandate.id := congrArg Verdict.mandateId hv
  have hrem : decision.remainingPeriodBudget =
    some (remainingBudget intent ctx mandate periodSpend) := congrArg Verdict.remaining hv
  have hblock : decision.outcome ≠ .block := by
    rw [hout]
    split <;> simp
  have hdeclined : ¬ Declined intent ctx :=
    fun h => hwithin ((declined_iff_overCap hfloor hselect hspend).1 h)
  have hauto : Autonomous intent ctx ↔ Unelevated intent ctx periodSpend := by
    rw [autonomous_iff hfloor hselect hspend]
    exact and_iff_right hwithin
  have hfirst : ∀ m, FirstCovering intent ctx m ↔ m = mandate := by
    intro m
    rw [← selectMandate_eq_some_iff, hselect, Option.some.injEq, eq_comm]
  constructor
  · intro hspec
    constructor
    · rintro hnan
      exact JsNumber.not_le_nan 0 (hnan ▸ hspec.nonneg _ hrem)
    · rw [← hauto, ← hspec.autoExecute, hout]
      split <;> simp [*]
  · rintro ⟨hnum, helevated⟩
    constructor
    case block => simp [hblock, hdeclined]
    case autoExecute =>
        rw [hauto, ← helevated, hout]
        by_cases hcalm : elevated = [] <;> simp [hcalm]
    case confirmOperator =>
        rw [hauto, ← helevated, hout]
        by_cases hcalm : elevated = [] <;> simp [hcalm, hdeclined]
    case mandateId =>
        intro m _ hm
        rw [(hfirst m).1 hm]
        exact hid
    case remaining =>
        intro value
        rw [hrem, Option.some.injEq]
        constructor
        · rintro rfl
          exact ⟨hblock, mandate, periodSpend, (hfirst mandate).2 rfl, hspend, rfl⟩
        · rintro ⟨-, m, spend, hm, hs, rfl⟩
          cases (hfirst m).1 hm
          cases hspend.symm.trans hs
          rfl
    case nonneg =>
        intro value hvalue
        cases hrem.symm.trans hvalue
        exact (JsNumber.not_lt_iff_le (by simp) hnum).1 fun h => hwithin (Or.inr h)

end Selected

theorem elevated_iff_unelevated {intent : PaymentIntent} {ctx : GateContext}
    {periodSpend : List PriorSpend} {windowStart : String} :
    (elevatedReasons intent ctx periodSpend windowStart = [] ↔
        Unelevated intent ctx periodSpend) ↔
      (gateTrust intent ctx = .new ∨ 4 ≤ (gateRisk intent ctx periodSpend).score ∨
        (ctx.config.velocityMaxCount ≤ (recentCount periodSpend windowStart : JsNumber) ↔
          ¬ (paymentsSince periodSpend (windowStartTime ctx) : JsNumber) <
            ctx.config.velocityMaxCount)) := by
  rw [elevatedReasons_eq_nil_iff]
  unfold Unelevated
  by_cases htrust : gateTrust intent ctx = .new
  · simp [htrust]
  · by_cases hscore : 4 ≤ (gateRisk intent ctx periodSpend).score
    · simp [hscore, not_lt.2 hscore]
    · simp only [ne_eq, htrust, not_false_eq_true, true_and, not_le.1 hscore, and_true, false_or,
        hscore]
      exact not_iff_comm.trans Iff.comm

/-- What passes every stage is executed. -/
theorem AutoExecutable.decides {intent : PaymentIntent} {ctx : GateContext} {mandate : Mandate}
    {periodSpend : List PriorSpend} (h : AutoExecutable intent ctx mandate periodSpend) :
    ∃ decision, evaluateGate intent ctx = .ok decision ∧ decision.outcome = .autoExecute := by
  obtain ⟨windowStart, hwindow, -⟩ := h.calm
  obtain ⟨decision, hunder, -⟩ := evaluateUnderMandate_within h.within hwindow
  have hgate : evaluateGate intent ctx = .ok decision := by
    rcases evaluateGate_unfloored h.unfloored with ⟨hnone, -⟩ | ⟨m, hselect, heq⟩
    · cases hnone.symm.trans h.selected
    · cases hselect.symm.trans h.selected
      rw [heq, h.spend]
      exact hunder
  exact ⟨decision, hgate, h.outcome hgate⟩

/-- The gate has what a decision needs: the spend of the mandate it comes to
and, unless a cap refuses, a start of the velocity window. -/
def Answered (intent : PaymentIntent) (ctx : GateContext) : Prop :=
  ∀ mandate, ¬ Floored intent ctx → selectMandate intent ctx = some mandate →
    ∃ periodSpend, ctx.periodSpendByMandate mandate.id = .ok periodSpend ∧
      (OverCap intent ctx mandate periodSpend ∨
        ∃ windowStart, velocityWindowStart ctx = .ok windowStart)

/-- The gate decides exactly where it is answered. -/
theorem evaluateGate_decides_iff (intent : PaymentIntent) (ctx : GateContext) :
    (∃ decision, evaluateGate intent ctx = .ok decision) ↔ Answered intent ctx := by
  by_cases hfloor : Floored intent ctx
  · obtain ⟨decision, hgate, -⟩ := evaluateGate_floored hfloor
    exact ⟨fun _ _ h => absurd hfloor h, fun _ => ⟨decision, hgate⟩⟩
  rcases evaluateGate_unfloored hfloor with ⟨hnone, decision, hgate, -⟩ | ⟨mandate, hselect, heq⟩
  · constructor
    · intro _ mandate _ hselect
      cases hnone.symm.trans hselect
    · exact fun _ => ⟨decision, hgate⟩
  constructor
  · rintro ⟨decision, hgate⟩ m - hm
    cases hselect.symm.trans hm
    rw [heq] at hgate
    obtain ⟨periodSpend, hspend, hunder⟩ := except_bind_eq_ok.1 hgate
    refine ⟨periodSpend, hspend, ?_⟩
    rcases evaluateUnderMandate_cases hunder with ⟨hover, -⟩ | ⟨-, windowStart, hwindow, -⟩
    · exact Or.inl hover
    · exact Or.inr ⟨windowStart, hwindow⟩
  · intro hanswered
    obtain ⟨periodSpend, hspend, hcase⟩ := hanswered mandate hfloor hselect
    rw [heq, hspend]
    by_cases hover : OverCap intent ctx mandate periodSpend
    · obtain ⟨decision, hunder, -⟩ := evaluateUnderMandate_overCap hover
      exact ⟨decision, hunder⟩
    · obtain ⟨windowStart, hwindow⟩ := hcase.resolve_left hover
      obtain ⟨decision, hunder, -⟩ := evaluateUnderMandate_within hover hwindow
      exact ⟨decision, hunder⟩

namespace Sample

/-- An exchange rate that is not a number. -/
def unquotedContext : GateContext where
  now := "2026-03-01T12:00:00.000Z"
  mandates :=
    [{ id := "euros"
       label := "groceries"
       scope := .class "groceries"
       currency := "EUR"
       allowedRails := [.card]
       perTxCap := 50
       perPeriodCap := 100
       period := .month
       grantedAt := "2026-01-01T00:00:00.000Z"
       expiresAt := "2027-01-01T00:00:00.000Z"
       status := .active }]
  periodSpendByMandate _ := .ok []
  knownPayees := setOf ["shop"]
  trustOf := none
  convert := some fun amount source target =>
    some (convertMinorCrossDecimal amount .nan source target none)
  attestation := none
  reputationOf := none
  denyRules := []
  config := defaultGateConfig
  reversibility := none

def dollarIntent : PaymentIntent where
  id := "a"
  payee := "shop"
  payeeClass := "groceries"
  amount := 100000
  currency := "USD"
  rail := .card
  rationale := "weekly groceries"
  createdAt := "2026-03-01T12:00:00.000Z"

end Sample

/-- On clock timestamps the entries compare as text as they do as instants. -/
theorem recentCount_eq_paymentsSince {periodSpend : List PriorSpend} {t : Int}
    (ht : Date.FourDigitYear t) (hspend : ∀ s ∈ periodSpend, IsTimestamp s.at') :
    recentCount periodSpend (Date.toIso t) = paymentsSince periodSpend (.fin (t : ℚ)) := by
  unfold recentCount paymentsSince
  congr 1
  refine List.filter_congr ?_
  intro s hs
  obtain ⟨u, hlo, hhi, hu⟩ := hspend s hs
  have hfour : Date.FourDigitYear u := IsTimestamp.fourDigitYear hlo hhi
  rw [hu, Date.getTime_toIso hfour, Bool.eq_iff_iff, Bool.not_eq_true', decide_eq_true_eq,
    JsNumber.fin_le_fin, Int.cast_le, ← not_lt, ← Date.strLt_toIso hfour ht, Bool.not_eq_true]

/-- The gate decides as specified on the contexts an executor builds: times off
the clock, a window that starts in a four-digit year, finite caps and amounts. -/
theorem measured_of_timestamps {intent : PaymentIntent} {ctx : GateContext} {t : Int}
    (hstart : windowStartTime ctx = .fin (t : ℚ)) (ht : Date.FourDigitYear t)
    (hmax : ctx.config.velocityMaxCount ≠ .nan)
    (hspend : ∀ mandate, selectMandate intent ctx = some mandate →
      ∃ periodSpend, ctx.periodSpendByMandate mandate.id = .ok periodSpend ∧
        (∀ s ∈ periodSpend, IsTimestamp s.at') ∧
        remainingBudget intent ctx mandate periodSpend ≠ .nan) :
    Measured intent ctx := by
  intro mandate _ hselect
  obtain ⟨periodSpend, hlookup, htimes, hnum⟩ := hspend mandate hselect
  have hwindow : velocityWindowStart ctx = .ok (Date.toIso t) := by
    show Date.toISOString (windowStartTime ctx) = _
    rw [hstart]
    exact Date.toISOString_intCast ht
  refine ⟨periodSpend, hlookup, Or.inr ⟨hnum, Date.toIso t, hwindow, Or.inr (Or.inr ?_)⟩⟩
  rw [hstart, recentCount_eq_paymentsSince ht htimes,
    ← JsNumber.not_lt_iff_le hmax (by simp)]

end AgentWorth
