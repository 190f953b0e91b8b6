import AgentWorth.Core.Signals

/-!
# The compliance seam

`src/compliance/sanctions.ts`: a provider screens an intent, and its verdict
reaches the gate as one more deny rule and as a reputation source.  Both only
add: neither, nor any other signal of trust, takes the gate's floor away.
-/

namespace AgentWorth

open AgentWorth.Js AgentWorth.Lib

/-- A screening verdict over a single payment intent. -/
inductive ComplianceVerdict where
  | clear (reasons : Option (List String))
  | flagged (riskBump : JsNumber) (reasons : List String)
  | blocked (reason : String)
  deriving DecidableEq

/-- The pluggable compliance seam; `screen` is pure. -/
structure ComplianceProvider where
  id : String
  screen : PaymentIntent → Option DenyContext → ComplianceVerdict

/-- The verdict is `blocked`. -/
def ComplianceVerdict.isBlocked : ComplianceVerdict → Bool
  | .blocked _ => true
  | _ => false

def denyRuleFromCompliance (provider : ComplianceProvider) (reason : Option String) :
    DenyRule where
  id := "compliance:" ++ provider.id
  reason := reason.getD "sanctions/AML compliance screening hit"
  match' intent ctx := (provider.screen intent (some ctx)).isBlocked

/-- What `reputationFromCompliance` screens with. -/
structure ScreeningContext where
  knownPayees : StringSet
  reversibilityOf : PaymentIntent → Reversibility

def reputationFromCompliance (provider : ComplianceProvider) (ctx : ScreeningContext)
    (base : Option (String → Option ReputationLevel)) (intent : PaymentIntent) :
    Option ReputationLevel :=
  match provider.screen intent (some
      { knownPayees := ctx.knownPayees, reversibility := ctx.reversibilityOf intent }) with
  | .flagged _ _ => some .flagged
  | .blocked _ => some .flagged
  | .clear _ => base.bind fun base => base intent.payee

/-- The wiring of a provider: its rule among the deny rules, and its reputation
composed with the prior source. -/
def GateContext.withCompliance (ctx : GateContext) (intent : PaymentIntent)
    (provider : ComplianceProvider) (reason : Option String) (screening : ScreeningContext)
    (before after : List DenyRule) : GateContext :=
  { ctx with
    denyRules := before ++ denyRuleFromCompliance provider reason :: after
    reputationOf := some fun payee =>
      reputationFromCompliance provider screening ctx.reputationOf { intent with payee := payee } }

/-- A screened reputation is the prior one or worse. -/
theorem reputationFromCompliance_rank (provider : ComplianceProvider)
    (screening : ScreeningContext) (base : Option (String → Option ReputationLevel))
    (intent : PaymentIntent) :
    reputationRank (reputationFromCompliance provider screening base intent) ≤
      reputationRank (base.bind fun base => base intent.payee) := by
  unfold reputationFromCompliance
  cases provider.screen intent (some
      { knownPayees := screening.knownPayees
        reversibility := screening.reversibilityOf intent }) with
  | clear reasons => exact Nat.le_refl _
  | flagged riskBump reasons => exact Nat.zero_le _
  | blocked reason => exact Nat.zero_le _

/-- The rules of a wired context deny what they denied, and what is screened
out. -/
theorem floored_withCompliance {intent : PaymentIntent} {ctx : GateContext}
    {provider : ComplianceProvider} {reason : Option String} {screening : ScreeningContext}
    {before after : List DenyRule} (hrules : ctx.denyRules = before ++ after) :
    Floored intent (ctx.withCompliance intent provider reason screening before after) ↔
      Floored intent ctx ∨ (provider.screen intent (some
        { knownPayees := ctx.knownPayees
          reversibility := gateReversibility intent ctx })).isBlocked = true := by
  simp only [Floored, denyingRule, hrules, GateContext.withCompliance, List.find?_isSome,
    List.mem_append, List.mem_cons, gateReversibility]
  constructor
  · rintro (hbad | hshort | ⟨rule, hrule | rfl | hrule, hmatch⟩)
    · exact Or.inl (Or.inl hbad)
    · exact Or.inl (Or.inr (Or.inl hshort))
    · exact Or.inl (Or.inr (Or.inr ⟨rule, Or.inl hrule, hmatch⟩))
    · exact Or.inr hmatch
    · exact Or.inl (Or.inr (Or.inr ⟨rule, Or.inr hrule, hmatch⟩))
  · rintro ((hbad | hshort | ⟨rule, hrule | hrule, hmatch⟩) | hblocked)
    · exact Or.inl hbad
    · exact Or.inr (Or.inl hshort)
    · exact Or.inr (Or.inr ⟨rule, Or.inl hrule, hmatch⟩)
    · exact Or.inr (Or.inr ⟨rule, Or.inr (Or.inr hrule), hmatch⟩)
    · exact Or.inr (Or.inr ⟨_, Or.inr (Or.inl rfl), hblocked⟩)

theorem warier_withCompliance (intent : PaymentIntent) (ctx : GateContext)
    (provider : ComplianceProvider) (reason : Option String) (screening : ScreeningContext)
    (before after : List DenyRule) :
    Warier intent ctx (ctx.withCompliance intent provider reason screening before after) := by
  refine warier_of_score rfl id ?_
  intro periodSpend
  exact classifySpendRisk_antitone rfl rfl rfl (Nat.le_refl _) (Nat.le_refl _)
    (reputationFromCompliance_rank provider screening ctx.reputationOf intent)

/-- Screening never makes a decision less restrictive. -/
theorem evaluateGate_withCompliance {intent : PaymentIntent} {ctx : GateContext}
    {decision : GateDecision} (provider : ComplianceProvider) (reason : Option String)
    (screening : ScreeningContext) {before after : List DenyRule}
    (hrules : ctx.denyRules = before ++ after) (hgate : evaluateGate intent ctx = .ok decision) :
    ∃ decision',
      evaluateGate intent (ctx.withCompliance intent provider reason screening before after) =
        .ok decision' ∧
      decision.outcome.restrictiveness ≤ decision'.outcome.restrictiveness := by
  by_cases hblocked : (provider.screen intent (some
      { knownPayees := ctx.knownPayees
        reversibility := gateReversibility intent ctx })).isBlocked = true
  · have hfloor : Floored intent
        (ctx.withCompliance intent provider reason screening before after) :=
      (floored_withCompliance hrules).2 (Or.inr hblocked)
    obtain ⟨decision', hgate', hv'⟩ := evaluateGate_floored hfloor
    refine ⟨decision', hgate', ?_⟩
    rw [outcome_of_verdict hv']
    cases decision.outcome <;> decide
  · have hfacts : SameFacts intent ctx
        (ctx.withCompliance intent provider reason screening before after) := by
      constructor
      case floored =>
          rw [floored_withCompliance hrules]
          exact or_iff_left hblocked
      case mandate => rfl
      case spend => rfl
      case amount => exact fun _ => rfl
      case window => rfl
    obtain ⟨decision', hgate', -, hle⟩ := evaluateGate_signals hfacts hgate
    exact ⟨decision', hgate',
      hle (warier_withCompliance intent ctx provider reason screening before after)⟩

/-- **Trust signals and compliance never relax the floor.** -/
theorem signals_never_relax (intent : PaymentIntent) (ctx : GateContext) :
    (∀ s s' decision, evaluateGate intent (ctx.withSignals s) = .ok decision →
      ∃ decision', evaluateGate intent (ctx.withSignals s') = .ok decision' ∧
        (decision.outcome = .block ↔ decision'.outcome = .block) ∧
        decision.mandateId = decision'.mandateId ∧
        decision.remainingPeriodBudget = decision'.remainingPeriodBudget ∧
        (s.Improves s' intent.payee →
          decision'.outcome.restrictiveness ≤ decision.outcome.restrictiveness)) ∧
    ∀ provider reason screening before after decision, ctx.denyRules = before ++ after →
      evaluateGate intent ctx = .ok decision →
      ∃ decision',
        evaluateGate intent (ctx.withCompliance intent provider reason screening before after) =
          .ok decision' ∧
        decision.outcome.restrictiveness ≤ decision'.outcome.restrictiveness := by
  constructor
  · intro s s' decision hgate
    obtain ⟨decision', hgate', hsame, -⟩ :=
      evaluateGate_signals (sameFacts_withSignals intent ctx s s') hgate
    refine ⟨decision', hgate', hsame.block, hsame.mandateId, hsame.remaining, ?_⟩
    intro himproves
    obtain ⟨decision'', hgate'', -, hle⟩ :=
      evaluateGate_signals (sameFacts_withSignals intent ctx s' s) hgate'
    cases hgate.symm.trans hgate''
    exact hle (warier_of_improves ctx himproves)
  · intro provider reason screening before after decision hrules hgate
    exact evaluateGate_withCompliance provider reason screening hrules hgate

namespace Sample

/-- A payment well above the median, under a mandate that covers it. -/
def anomalousContext : GateContext where
  now := "2026-03-01T12:00:00.000Z"
  mandates :=
    [{ id := "m"
       label := "groceries"
       scope := .class "groceries"
       currency := "USD"
       allowedRails := [.card]
       perTxCap := 50
       perPeriodCap := 100
       period := .month
       grantedAt := "2026-01-01T00:00:00.000Z"
       expiresAt := "2027-01-01T00:00:00.000Z"
       status := .active }]
  periodSpendByMandate _ := .ok [{ amount := 10, at' := "2026-03-01T09:00:00.000Z" }]
  knownPayees := setOf ["shop"]
  trustOf := some fun _ => .seen
  convert := none
  attestation := some .none
  reputationOf := none
  denyRules := []
  config := defaultGateConfig
  reversibility := none

def anomalousIntent : PaymentIntent where
  id := "a"
  payee := "shop"
  payeeClass := "groceries"
  amount := 40
  currency := "USD"
  rail := .card
  rationale := "weekly groceries"
  createdAt := "2026-03-01T12:00:00.000Z"

/-- A provider with the payee on its watchlist. -/
def watchlist : ComplianceProvider where
  id := "watchlist"
  screen intent _ :=
    if intent.payee = "shop" then .flagged 2 ["watchlist"] else .clear none

def screening : ScreeningContext where
  knownPayees := setOf ["shop"]
  reversibilityOf intent := railReversibility intent.rail

def unverified : Signals where
  trustOf _ := .new
  attestation := some .none
  reputationOf := none

def attested : Signals where
  trustOf _ := .trusted
  attestation := some .registryAttested
  reputationOf := some fun _ => some .good

end Sample

open Sample in
theorem signals_never_relax_watchlist :
    (∃ decision decision',
      evaluateGate anomalousIntent (anomalousContext.withSignals unverified) = .ok decision ∧
      evaluateGate anomalousIntent (anomalousContext.withSignals attested) = .ok decision' ∧
      decision'.outcome.restrictiveness ≤ decision.outcome.restrictiveness) ∧
    ∃ decision decision', evaluateGate anomalousIntent anomalousContext = .ok decision ∧
      evaluateGate anomalousIntent
        (anomalousContext.withCompliance anomalousIntent watchlist none screening [] []) =
          .ok decision' ∧
      decision.outcome.restrictiveness ≤ decision'.outcome.restrictiveness := by
  constructor
  · have hrun : (evaluateGate anomalousIntent
        (anomalousContext.withSignals unverified)).toOption.isSome = true := by decide +kernel
    obtain ⟨decision, hdecision⟩ := Option.isSome_iff_exists.1 hrun
    have hgate := except_toOption_eq_some.1 hdecision
    obtain ⟨decision', hgate', -, -, -, hle⟩ :=
      (signals_never_relax anomalousIntent anomalousContext).1 unverified attested decision hgate
    exact ⟨decision, decision', hgate, hgate', hle ⟨by decide, by decide, by decide⟩⟩
  · have hrun : (evaluateGate anomalousIntent anomalousContext).toOption.isSome = true := by
      decide +kernel
    obtain ⟨decision, hdecision⟩ := Option.isSome_iff_exists.1 hrun
    have hgate := except_toOption_eq_some.1 hdecision
    obtain ⟨decision', hgate', hle⟩ :=
      (signals_never_relax anomalousIntent anomalousContext).2 watchlist none screening [] []
        decision rfl hgate
    exact ⟨decision, decision', hgate, hgate', hle⟩

end AgentWorth
