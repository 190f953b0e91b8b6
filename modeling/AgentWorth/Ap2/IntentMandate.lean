import AgentWorth.Core.Gate
import AgentWorth.Lib.Sorting

/-!
# AP2 intent mandates

`src/ap2/index.ts`, the two maps between mandates and AP2's `IntentMandate`.
The wire format has one nullable merchant list for the whole scope: the class of
a class scope is dropped, and the way back reads an empty list like an absent
one.
-/

namespace AgentWorth.Ap2

open AgentWorth.Js

/-- AP2's coarse authorization, with the fields of the wire. -/
structure IntentMandate where
  userCartConfirmationRequired : Bool
  naturalLanguageDescription : String
  merchants : Option (List String)
  skus : Option (List String)
  requiresRefundability : Option Bool
  intentExpiry : String
  deriving DecidableEq

def mandateToIntentMandate (m : Mandate) (description : Option String) : IntentMandate where
  userCartConfirmationRequired := true
  naturalLanguageDescription := description.getD m.label
  merchants :=
    match m.scope with
    | .allowlist values => some values
    | .class _ => none
  skus := none
  requiresRefundability := some false
  intentExpiry := m.expiresAt

structure IntentMandateToMandateOpts where
  id : String
  label : Option String
  currency : String
  allowedRails : List RailKind
  perTxCap : JsNumber
  perPeriodCap : JsNumber
  period : Period
  grantedAt : String
  /-- Payee class used when the IntentMandate has no merchant allowlist. -/
  payeeClass : Option String

/-- The scope a merchant list comes back as. -/
def merchantScope (merchants : Option (List String)) (payeeClass : Option String) : PayeeScope :=
  match merchants with
  | some (payee :: payees) => .allowlist (payee :: payees)
  | _ => .class (payeeClass.getD "ap2")

def intentMandateToMandate (im : IntentMandate) (opts : IntentMandateToMandateOpts) :
    Mandate where
  id := opts.id
  label := opts.label.getD im.naturalLanguageDescription
  scope := merchantScope im.merchants opts.payeeClass
  currency := opts.currency
  allowedRails := opts.allowedRails
  perTxCap := opts.perTxCap
  perPeriodCap := opts.perPeriodCap
  period := opts.period
  grantedAt := opts.grantedAt
  expiresAt := im.intentExpiry
  status := .active

/-- The options supply again what the wire drops. -/
structure IntentMandateToMandateOpts.Repeats (opts : IntentMandateToMandateOpts) (m : Mandate) :
    Prop where
  currency : opts.currency = m.currency
  allowedRails : opts.allowedRails = m.allowedRails
  perTxCap : opts.perTxCap = m.perTxCap
  perPeriodCap : opts.perPeriodCap = m.perPeriodCap
  period : opts.period = m.period
  grantedAt : opts.grantedAt = m.grantedAt

/-- There and back. -/
def roundTrip (m : Mandate) (description : Option String) (opts : IntentMandateToMandateOpts) :
    Mandate :=
  intentMandateToMandate (mandateToIntentMandate m description) opts

/-- A mandate authorizes nothing, at any time, that another does not. -/
def Narrows (narrow wide : Mandate) : Prop :=
  ∀ (intent : PaymentIntent) (now : String) (convert : Option Convert),
    isLiveMandate narrow now = true ∧ covers narrow intent convert = true →
      isLiveMandate wide now = true ∧ covers wide intent convert = true

/-! ## What comes back -/

section

variable {m : Mandate} {description : Option String} {opts : IntentMandateToMandateOpts}

/-- **The mandate that comes back** differs in its name, its status, and its
scope. -/
theorem roundTrip_eq (h : opts.Repeats m) :
    roundTrip m description opts =
      { m with
        id := opts.id
        label := opts.label.getD (description.getD m.label)
        scope := merchantScope (mandateToIntentMandate m description).merchants opts.payeeClass
        status := .active } := by
  unfold roundTrip intentMandateToMandate
  rw [h.currency, h.allowedRails, h.perTxCap, h.perPeriodCap, h.period, h.grantedAt]
  rfl

/-- What a mandate covers does not depend on its name and status. -/
theorem covers_congr {m m' : Mandate} (hscope : m.scope = m'.scope)
    (hcurrency : m.currency = m'.currency) (hrails : m.allowedRails = m'.allowedRails)
    (intent : PaymentIntent) (convert : Option Convert) :
    covers m intent convert = covers m' intent convert := by
  simp only [covers, hscope, hcurrency, hrails]

/-- A list that names a merchant comes back as it was. -/
theorem roundTrip_narrows_of_ne_nil {values : List String} (h : opts.Repeats m)
    (hscope : m.scope = .allowlist values) (hvalues : values ≠ []) :
    Narrows (roundTrip m description opts) { m with status := .active } := by
  intro intent now convert ⟨hlive, hcovers⟩
  have hback : merchantScope (mandateToIntentMandate m description).merchants opts.payeeClass =
      m.scope := by
    simp only [mandateToIntentMandate, hscope]
    cases values with
    | nil => exact absurd rfl hvalues
    | cons payee payees => rfl
  rw [roundTrip_eq h, hback] at hlive hcovers
  refine ⟨hlive, ?_⟩
  rw [← hcovers]
  exact covers_congr rfl rfl rfl intent convert

/-- A payment that an empty list is taken to allow. -/
def classPayment (opts : IntentMandateToMandateOpts) (rail : RailKind) : PaymentIntent where
  id := ""
  payee := ""
  payeeClass := opts.payeeClass.getD "ap2"
  amount := 1
  currency := opts.currency
  rail := rail
  rationale := ""
  createdAt := ""

/-- **An empty list comes back as a class**, and a payment of that class is
covered. -/
theorem roundTrip_covers_class (description : Option String) {rail : RailKind}
    (hscope : m.scope = .allowlist []) (hrail : rail ∈ opts.allowedRails) :
    covers (roundTrip m description opts) (classPayment opts rail) none = true := by
  have hback : (roundTrip m description opts).scope = .class (opts.payeeClass.getD "ap2") := by
    simp only [roundTrip, intentMandateToMandate, mandateToIntentMandate, hscope, merchantScope]
  have hrails : (roundTrip m description opts).allowedRails.contains rail = true :=
    List.contains_iff_mem.2 hrail
  have hcurrency : (roundTrip m description opts).currency = opts.currency := rfl
  simp only [covers, classPayment, hback, hrails, hcurrency, scopeCovers, beq_self_eq_true,
    Bool.true_and, Bool.true_or]

/-- An empty list covers nothing. -/
theorem not_covers_of_nil {m : Mandate} (hscope : m.scope = .allowlist [])
    (intent : PaymentIntent) (convert : Option Convert) : covers m intent convert = false := by
  simp [covers, hscope, scopeCovers]

end

/-! ## The round trip -/

/-- No text sorts before the empty one, and the empty one before any other. -/
theorem strLt_empty (s : String) : strLt s "" = false := by
  unfold strLt
  cases utf16 s with
  | nil => rfl
  | cons u us => rfl

theorem empty_strLt {s : String} (h : s ≠ "") : strLt "" s = true := by
  by_contra hnot
  exact h (strLt_trichotomy (strLt_empty s) (Bool.eq_false_iff.2 hnot))

/-- **The round trip of an allowlist widens no authority** if and only if the
list names a merchant, or the mandate could authorize nothing anyway: it has no
rail, or no time is before its expiry. -/
theorem roundTrip_narrows_iff {m : Mandate} {values : List String}
    (hscope : m.scope = .allowlist values) (description : Option String)
    {opts : IntentMandateToMandateOpts} (hopts : opts.Repeats m) :
    Narrows (roundTrip m description opts) { m with status := .active } ↔
      values ≠ [] ∨ m.allowedRails = [] ∨ m.expiresAt = "" := by
  constructor
  · intro hnarrows
    by_contra hnot
    simp only [not_or, not_not] at hnot
    obtain ⟨rfl, hrails, hexpires⟩ := hnot
    obtain ⟨rail, hrail⟩ := List.exists_mem_of_ne_nil _ hrails
    rw [← hopts.allowedRails] at hrail
    have hlive : isLiveMandate (roundTrip m description opts) "" = true :=
      empty_strLt hexpires
    have hcovered := (hnarrows _ "" none
      ⟨hlive, roundTrip_covers_class description hscope hrail⟩).2
    rw [not_covers_of_nil (m := { m with status := .active }) hscope] at hcovered
    cases hcovered
  · rintro (hvalues | hrails | hexpires)
    · exact roundTrip_narrows_of_ne_nil hopts hscope hvalues
    · intro intent now convert ⟨_, hcovers⟩
      rw [roundTrip_eq hopts] at hcovers
      simp [covers, hrails] at hcovers
    · intro intent now convert ⟨hlive, _⟩
      rw [roundTrip_eq hopts] at hlive
      simp [isLiveMandate, hexpires, strLt_empty] at hlive

namespace Sample

/-- A mandate that pays the listed merchants. -/
def listed (values : List String) : Mandate where
  id := "m1"
  label := "suppliers"
  scope := .allowlist values
  currency := "USD"
  allowedRails := [.card]
  perTxCap := 100
  perPeriodCap := 1000
  period := .month
  grantedAt := "2026-03-01T00:00:00.000Z"
  expiresAt := "2026-04-01T00:00:00.000Z"
  status := .active

/-- Its own terms, given again. -/
def again (m : Mandate) : IntentMandateToMandateOpts where
  id := m.id
  label := none
  currency := m.currency
  allowedRails := m.allowedRails
  perTxCap := m.perTxCap
  perPeriodCap := m.perPeriodCap
  period := m.period
  grantedAt := m.grantedAt
  payeeClass := none

theorem again_repeats (m : Mandate) : (again m).Repeats m := ⟨rfl, rfl, rfl, rfl, rfl, rfl⟩

end Sample

theorem roundTrip_narrows_one_merchant :
    Narrows (roundTrip (Sample.listed ["acme"]) none (Sample.again (Sample.listed ["acme"])))
        { Sample.listed ["acme"] with status := .active } ↔
      ["acme"] ≠ [] ∨ (Sample.listed ["acme"]).allowedRails = [] ∨
        (Sample.listed ["acme"]).expiresAt = "" :=
  roundTrip_narrows_iff rfl none (Sample.again_repeats _)

/-- A mandate for nobody comes back as one for the class `ap2`. -/
theorem empty_allowlist_widens :
    ¬ ∀ (m : Mandate) (values : List String), m.scope = .allowlist values →
      ∀ (description : Option String) (opts : IntentMandateToMandateOpts), opts.Repeats m →
        Narrows (roundTrip m description opts) { m with status := .active } := by
  intro h
  have hnarrows := h (Sample.listed []) [] rfl none _ (Sample.again_repeats _)
  have hcovered := (hnarrows (classPayment (Sample.again (Sample.listed [])) .card)
    "2026-03-05T12:00:00.000Z" none ⟨by decide, by decide⟩).2
  revert hcovered
  decide

end AgentWorth.Ap2
