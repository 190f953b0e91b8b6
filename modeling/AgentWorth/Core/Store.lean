import AgentWorth.Core.Audit
import AgentWorth.Core.Types
import AgentWorth.Lib.Timestamp

/-!
# The persistence boundary

`src/core/store.ts`: the contract the executor depends on, as a record of
operations over a store state.  An operation that may throw returns the error
instead of a new state, so a throwing operation leaves the store as it was.
-/

namespace AgentWorth

open AgentWorth.Js

inductive IntentStatus where
  | pending
  | settled
  | blocked
  | failed
  deriving DecidableEq, Repr

def IntentStatus.text : IntentStatus → String
  | .pending => "pending"
  | .settled => "settled"
  | .blocked => "blocked"
  | .failed => "failed"

/-- A payment intent as persisted, with the decision that classified it. -/
structure StoredIntent where
  intent : PaymentIntent
  status : IntentStatus
  mandateId : Option String
  reasons : List String
  settledAt : Option String
  receiptId : Option String
  refundedMinor : Option JsNumber
  deriving DecidableEq, Repr

/-- A partial update.  `null` and an absent member both keep the stored value,
so one `none` stands for either. -/
structure IntentUpdate where
  status : Option IntentStatus := none
  settledAt : Option String := none
  receiptId : Option String := none
  reasons : Option (List String) := none
  refundedMinor : Option JsNumber := none

/-- `Partial<Mandate>`; the id of a patch is never applied. -/
structure MandatePatch where
  label : Option String := none
  scope : Option PayeeScope := none
  currency : Option String := none
  allowedRails : Option (List RailKind) := none
  perTxCap : Option JsNumber := none
  perPeriodCap : Option JsNumber := none
  period : Option Period := none
  grantedAt : Option String := none
  expiresAt : Option String := none
  status : Option MandateStatus := none

/-- `{ ...m, ...patch, id }`. -/
def MandatePatch.apply (patch : MandatePatch) (m : Mandate) : Mandate where
  id := m.id
  label := patch.label.getD m.label
  scope := patch.scope.getD m.scope
  currency := patch.currency.getD m.currency
  allowedRails := patch.allowedRails.getD m.allowedRails
  perTxCap := patch.perTxCap.getD m.perTxCap
  perPeriodCap := patch.perPeriodCap.getD m.perPeriodCap
  period := patch.period.getD m.period
  grantedAt := patch.grantedAt.getD m.grantedAt
  expiresAt := patch.expiresAt.getD m.expiresAt
  status := patch.status.getD m.status

structure Store (σ : Type) where
  getMeta : σ → String → Option String
  setMeta : σ → String → String → σ
  insertMandate : σ → Mandate → Except String σ
  getMandate : σ → String → Option Mandate
  listMandates : σ → List Mandate
  listActiveMandates : σ → String → List Mandate
  revokeMandate : σ → String → σ
  updateMandate : σ → String → MandatePatch → Except String σ
  insertIntent : σ → StoredIntent → Except String σ
  getIntent : σ → String → Option StoredIntent
  listPendingIntents : σ → List StoredIntent
  updateIntent : σ → String → IntentUpdate → Except String σ
  insertReceipt : σ → Receipt → Except String σ
  getReceipt : σ → String → Option Receipt
  periodSpend : σ → String → String → Except String (List PriorSpend)
  knownPayees : σ → List String
  payeeSettledCount : σ → String → Nat
  appendAudit : σ → AuditEntry → Except String σ
  loadAudit : σ → List AuditEntry

/-! ## Periods -/

/-- The day a period containing day `d` starts on: the day itself, its Monday,
or the first of its month. -/
def periodStartDay (d : Int) (period : Period) : Int :=
  let c := Date.civilFromDay d
  match period with
  | .day => Date.utcDay c.year c.month c.day
  | .month => Date.utcDay c.year c.month 1
  | .week => Date.utcDay c.year c.month (c.day - (Date.weekDay d + 6) % 7)

/-- Start of the current period in UTC. -/
def periodStart (now : String) (period : Period) : Except String String :=
  match Date.parse now with
  | none => .error "Invalid time value"
  | some t =>
      Date.toISOString
        (.fin ((periodStartDay (t / Date.msPerDay) period * Date.msPerDay : Int) : ℚ))

/-- A timestamp as the clock renders it: `toISOString` of an instant in the
years 1000 to 9999. -/
def IsTimestamp (s : String) : Prop :=
  ∃ t : Int, 1000 ≤ (Date.civilFromDay (t / Date.msPerDay)).year ∧
    (Date.civilFromDay (t / Date.msPerDay)).year ≤ 9999 ∧ s = Date.toIso t

theorem IsTimestamp.fourDigitYear {t : Int}
    (hlo : 1000 ≤ (Date.civilFromDay (t / Date.msPerDay)).year)
    (hhi : (Date.civilFromDay (t / Date.msPerDay)).year ≤ 9999) : Date.FourDigitYear t :=
  ⟨by omega, hhi⟩

instance (s : String) : Decidable (IsTimestamp s) :=
  decidable_of_iff ((Date.parse s).any (fun t =>
      decide (1000 ≤ (Date.civilFromDay (t / Date.msPerDay)).year) &&
        (decide ((Date.civilFromDay (t / Date.msPerDay)).year ≤ 9999) && s == Date.toIso t)) =
      true) (by
    simp only [Option.any_eq_true, Bool.and_eq_true, decide_eq_true_eq, beq_iff_eq]
    constructor
    · rintro ⟨t, -, hlo, hhi, hs⟩
      exact ⟨t, hlo, hhi, hs⟩
    · rintro ⟨t, hlo, hhi, rfl⟩
      exact ⟨t, Date.parse_toIso (IsTimestamp.fourDigitYear hlo hhi), hlo, hhi, rfl⟩)

/-- From year 100 on, a period starts no later than the day it is asked for,
and at most a month before. -/
theorem periodStartDay_bounds {d : Int} (hy : 100 ≤ (Date.civilFromDay d).year)
    (period : Period) : periodStartDay d period ≤ d ∧ d ≤ periodStartDay d period + 30 := by
  obtain ⟨_, hd1, hd31, hd⟩ := Date.civilFromDay_spec d
  have hcentury : ¬ (0 ≤ (Date.civilFromDay d).year ∧ (Date.civilFromDay d).year ≤ 99) := by
    omega
  unfold Date.makeDay at hd
  cases period <;>
    simp only [periodStartDay, Date.utcDay, if_neg hcentury, Date.makeDay] <;> omega

/-- **A period starts no later than its timestamps**, in the order the store
compares them. -/
theorem periodStart_spec {now : String} (h : IsTimestamp now) (period : Period) :
    ∃ start, periodStart now period = .ok start ∧ strLt now start = false := by
  obtain ⟨t, hlo, hhi, rfl⟩ := h
  obtain ⟨hle, hge⟩ := periodStartDay_bounds (by omega) (d := t / Date.msPerDay) period
  generalize hs : periodStartDay (t / Date.msPerDay) period = s at hle hge
  have hfour : Date.FourDigitYear t := ⟨by omega, hhi⟩
  have hday : s * Date.msPerDay / Date.msPerDay = s :=
    Int.mul_ediv_cancel s (by decide)
  have hfour' : Date.FourDigitYear (s * Date.msPerDay) := by
    unfold Date.FourDigitYear
    rw [hday]
    refine ⟨?_, Int.le_trans (Date.civilFromDay_mono hle).1 hhi⟩
    by_contra hneg
    have hlast := (Date.yearFromDay_spec s).2
    have hfirst := (Date.yearFromDay_spec (t / Date.msPerDay)).1
    have h0 := Date.dayFromYear_mono (show (Date.civilFromDay s).year + 1 ≤ 0 by omega)
    have h1 := Date.dayFromYear_mono hlo
    have e0 : Date.dayFromYear 0 = -719528 := by decide
    have e1 : Date.dayFromYear 1000 = -354285 := by decide
    have hys : (Date.civilFromDay s).year = Date.yearFromDay s := rfl
    have hyt : (Date.civilFromDay (t / Date.msPerDay)).year =
        Date.yearFromDay (t / Date.msPerDay) := rfl
    rw [hys] at h0
    rw [hyt] at h1
    omega
  refine ⟨Date.toIso (s * Date.msPerDay), ?_, ?_⟩
  · simp only [periodStart, Date.parse_toIso hfour, hs]
    exact Date.toISOString_intCast hfour'
  · have hstart : s * Date.msPerDay ≤ t := by
      have hmul := Int.mul_ediv_add_emod t Date.msPerDay
      have hmod := Int.emod_nonneg t (show Date.msPerDay ≠ 0 by decide)
      simp only [Date.msPerDay] at *
      omega
    cases hlt : strLt (Date.toIso t) (Date.toIso (s * Date.msPerDay)) with
    | false => rfl
    | true =>
        have := (Date.strLt_toIso hfour hfour').1 hlt
        omega

end AgentWorth
