import AgentWorth.Core.Gate
import AgentWorth.Lib.Groups
import AgentWorth.Lib.MathOps
import AgentWorth.Lib.Strings
import AgentWorth.Lib.Window

/-!
# Spend mandate cards

`src/core/mandateCard.ts`: the card of the mandates an agent asks for, what a
set of mandates leaves uncovered of it, and the least-privilege card inferred
from a history of settled payments.  The inferred caps are read off the history
with nothing to spare: the largest payment of a group, and its heaviest rolling
window.
-/

namespace AgentWorth

open AgentWorth.Js AgentWorth.Lib

/-- `SpendCardRequiredMandate`; `payeeClass` is its `class`. -/
structure SpendCardRequiredMandate where
  payeeClass : String
  currency : String
  suggestedPerTxCap : JsNumber
  suggestedPerPeriodCap : JsNumber
  period : Period
  rails : List RailKind
  deriving DecidableEq, Repr

structure SpendMandateCard where
  agentId : String
  requiredMandates : List SpendCardRequiredMandate
  deriving DecidableEq, Repr

def generateSpendCard (agentId : String) (mandates : List Mandate) : SpendMandateCard where
  agentId := agentId
  requiredMandates := mandates.map fun m =>
    { payeeClass := match m.scope with | .class value => value | .allowlist _ => "custom"
      currency := m.currency
      suggestedPerTxCap := m.perTxCap
      suggestedPerPeriodCap := m.perPeriodCap
      period := m.period
      rails := m.allowedRails }

/-- The class `compareSpendCard` reads off a scope; an allowlist has none. -/
def scopeClass (m : Mandate) : String :=
  match m.scope with
  | .class value => value
  | .allowlist _ => ""

/-- The test of `compareSpendCard` on one mandate. -/
def meetsRequired (req : SpendCardRequiredMandate) (m : Mandate) : Bool :=
  m.status == .active && scopeClass m == req.payeeClass && m.currency == req.currency &&
    !decide (m.perTxCap < req.suggestedPerTxCap) &&
    !decide (m.perPeriodCap < req.suggestedPerPeriodCap) && m.period == req.period &&
    req.rails.all fun r => m.allowedRails.contains r

structure SpendCardComparison where
  covers : Bool
  missing : List SpendCardRequiredMandate

def compareSpendCard (card : SpendMandateCard) (activeMandates : List Mandate) :
    SpendCardComparison :=
  let missing := card.requiredMandates.filter fun req => !activeMandates.any (meetsRequired req)
  { covers := missing.isEmpty, missing := missing }

/-! ## Deriving a card -/

/-- `PERIOD_MS`. -/
def periodMs : Period → ℚ
  | .day => 24 * 60 * 60 * 1000
  | .week => 7 * 24 * 60 * 60 * 1000
  | .month => 30 * 24 * 60 * 60 * 1000

structure DeriveSpendCardOptions where
  agentId : Option String
  period : Option Period
  capPadding : Option JsNumber

/-- An amount and when it was spent. -/
structure CardSpend where
  amount : JsNumber
  t : JsNumber

/-- The loop of one window: add up from the front while before `stop`. -/
def windowSum (stop : JsNumber) (sorted : List CardSpend) : JsNumber :=
  JsNumber.sum ((sorted.takeWhile fun s => decide (s.t < stop)).map CardSpend.amount)

/-- The loop over the windows, from the maximum so far. -/
def maxRollingFrom (periodMs : JsNumber) : JsNumber → List CardSpend → JsNumber
  | max, [] => max
  | max, s :: rest =>
      let sum := windowSum (s.t + periodMs) (s :: rest)
      maxRollingFrom periodMs (if max < sum then sum else max) rest

/-- Largest sum of amounts falling inside any single rolling period-length window. -/
def maxRollingPeriodSum (sorted : List CardSpend) (periodMs : JsNumber) : JsNumber :=
  maxRollingFrom periodMs 0 sorted

structure SpendGroup where
  payeeClass : String
  currency : String
  rails : List RailKind
  spends : List CardSpend

/-- The key of a group: class and currency with a NUL between. -/
def spendKey (p : PaymentIntent) : String :=
  p.payeeClass ++ (String.singleton '\x00' ++ p.currency)

def cardSpend (p : PaymentIntent) : CardSpend where
  amount := p.amount
  t := Date.getTime p.createdAt

/-- One payment into its group; the rails are a set in insertion order. -/
def addSpend (entry : Option SpendGroup) (p : PaymentIntent) : SpendGroup :=
  let g := entry.getD
    { payeeClass := p.payeeClass, currency := p.currency, rails := [], spends := [] }
  { g with
    rails := if g.rails.contains p.rail then g.rails else g.rails ++ [p.rail]
    spends := g.spends ++ [cardSpend p] }

/-- `p.amount <= 0` skips a payment. -/
def counted (p : PaymentIntent) : Bool := !decide (p.amount ≤ 0)

def spendGroups (history : List PaymentIntent) : JsMap SpendGroup :=
  groupInto spendKey addSpend (history.filter counted) .empty

/-- `Math.max(0, opts.capPadding ?? 0)`. -/
def cappedPadding (opts : DeriveSpendCardOptions) : JsNumber :=
  mathMax 0 (opts.capPadding.getD 0)

def withPad (pad n : JsNumber) : JsNumber := mathMax 1 (mathCeil (n * (1 + pad)))

/-- `sort((a, b) => a.t - b.t)`: stable, and `NaN` is read as no difference. -/
def sortSpends (spends : List CardSpend) : List CardSpend :=
  spends.insertionSort fun a b => ¬ 0 < a.t - b.t

/-- The entry of one group. -/
def requiredOf (period : Period) (pad : JsNumber) (g : SpendGroup) : SpendCardRequiredMandate :=
  let sorted := sortSpends g.spends
  let maxTx := sorted.foldl (fun m s => mathMax m s.amount) 0
  let maxPeriod := maxRollingPeriodSum sorted (.fin (periodMs period))
  { payeeClass := g.payeeClass
    currency := g.currency
    suggestedPerTxCap := withPad pad maxTx
    suggestedPerPeriodCap := withPad pad maxPeriod
    period := period
    rails := sortByKey RailKind.text g.rails }

/-- The period a card is derived for. -/
def cardPeriod (opts : DeriveSpendCardOptions) : Period := opts.period.getD .month

def deriveSpendCard (history : List PaymentIntent) (opts : DeriveSpendCardOptions) :
    SpendMandateCard where
  agentId := opts.agentId.getD "derived-agent"
  requiredMandates :=
    (sortByKey id (spendGroups history).keys).filterMap fun key =>
      ((spendGroups history).get key).map (requiredOf (cardPeriod opts) (cappedPadding opts))

/-! ## Advisory lint -/

inductive SpendCardLintCode where
  | irreversibleHighCap
  | overbroadClass
  | widePeriodBudget
  deriving DecidableEq, Repr

structure SpendCardLintWarning where
  code : SpendCardLintCode
  payeeClass : String
  message : String

structure LintSpendCardOptions where
  irreversibleHighCap : Option JsNumber
  widePeriodMultiple : Option JsNumber

/-- `OVERBROAD_CLASSES`. -/
def overbroadClasses : List String := ["*", "", "all", "any", "custom", "wildcard"]

/-- The rails of an entry that cannot be clawed back. -/
def irreversibleRails (req : SpendCardRequiredMandate) : List RailKind :=
  req.rails.filter fun r => railReversibility r == .irreversible

/-- A period budget of that many largest payments or more. -/
def WidePeriodBudget (wideMultiple : JsNumber) (req : SpendCardRequiredMandate) : Prop :=
  0 < req.suggestedPerTxCap ∧ req.suggestedPerTxCap * wideMultiple ≤ req.suggestedPerPeriodCap

instance (wideMultiple : JsNumber) (req : SpendCardRequiredMandate) :
    Decidable (WidePeriodBudget wideMultiple req) :=
  inferInstanceAs (Decidable (_ ∧ _))

/-- The warnings about one entry. -/
def lintRequired (highCap wideMultiple : JsNumber) (req : SpendCardRequiredMandate) :
    List SpendCardLintWarning :=
  (if irreversibleRails req ≠ [] ∧ highCap ≤ req.suggestedPerTxCap then
      [{ code := .irreversibleHighCap
         payeeClass := req.payeeClass
         message := "Class \"" ++ req.payeeClass ++ "\" allows an irreversible rail (" ++
            String.intercalate ", " ((irreversibleRails req).map RailKind.text) ++
            ") with a high per-tx cap of " ++ toString req.suggestedPerTxCap ++
            " minor-units — clawback is impossible." }]
    else []) ++
  ((if overbroadClasses.contains (toLowerCase (trim req.payeeClass)) then
      [{ code := .overbroadClass
         payeeClass := req.payeeClass
         message := "Class \"" ++ req.payeeClass ++ "\" is a wildcard / catch-all scope — " ++
            "it authorizes spend to any payee, not a specific category." }]
    else []) ++
  (if WidePeriodBudget wideMultiple req then
      [{ code := .widePeriodBudget
         payeeClass := req.payeeClass
         message := "Class \"" ++ req.payeeClass ++ "\" per-period cap (" ++
            toString req.suggestedPerPeriodCap ++ ") is >= " ++ toString wideMultiple ++
            "x its per-tx cap (" ++ toString req.suggestedPerTxCap ++
            ") — the period budget is effectively unbounded relative to a single payment." }]
    else []))

def lintSpendCard (card : SpendMandateCard) (opts : LintSpendCardOptions) :
    List SpendCardLintWarning :=
  card.requiredMandates.flatMap
    (lintRequired (opts.irreversibleHighCap.getD 100000) (opts.widePeriodMultiple.getD 50))

end AgentWorth
