import AgentWorth.Lib.FirstFit
import AgentWorth.Lib.Timestamp

/-!
# Reconciliation

`src/finance/reconcile.ts`: what the agent settled against the operator's
account statement.  The loop is a first fit of the payments in the lines, so it
loses nothing and pairs nothing wrongly, and pairs as many as can be paired
exactly when some largest matching is first-come.
-/

namespace AgentWorth.Finance

open AgentWorth.Js AgentWorth.Lib

structure StatementLine where
  amountMinor : JsNumber
  currency : String
  descriptor : String
  at' : String
  deriving DecidableEq

structure SettledPayment where
  intentId : String
  payee : String
  amountMinor : JsNumber
  currency : String
  at' : String
  deriving DecidableEq

structure ReconResult where
  matched : List (SettledPayment × StatementLine)
  /-- settled, with no statement line yet -/
  unmatchedPayments : List SettledPayment
  /-- spend on the statement with no authorizing payment -/
  unmatchedStatement : List StatementLine
  deriving DecidableEq

/-- `DEFAULT_WINDOW_MS`: three days. -/
def defaultWindowMs : JsNumber := 259200000

/-- `Math.abs`. -/
def mathAbs : JsNumber → JsNumber
  | .nan => .nan
  | .posInf | .negInf => .posInf
  | .fin q => .fin |q|

/-- The test of `findIndex`. -/
def fits (window : JsNumber) (p : SettledPayment) (l : StatementLine) : Bool :=
  l.currency == p.currency && l.amountMinor.strictEq p.amountMinor &&
    decide (mathAbs (Date.getTime l.at' - Date.getTime p.at') ≤ window)

/-- One turn of the loop; `unmatchedStatement` holds the remaining lines. -/
def reconcileStep (window : JsNumber) (s : ReconResult) (p : SettledPayment) : ReconResult :=
  match s.unmatchedStatement.find? (fits window p) with
  | some line =>
      { s with
        matched := s.matched ++ [(p, line)]
        unmatchedStatement := s.unmatchedStatement.eraseP (fits window p) }
  | none => { s with unmatchedPayments := s.unmatchedPayments ++ [p] }

def reconcile (payments : List SettledPayment) (lines : List StatementLine)
    (windowMs : Option JsNumber) : ReconResult :=
  payments.foldl (reconcileStep (windowMs.getD defaultWindowMs))
    { matched := [], unmatchedPayments := [], unmatchedStatement := lines }

/-! ## What the test means -/

/-- Equal in currency and amount, at times that differ by at most the window. -/
structure Compatible (window : JsNumber) (p : SettledPayment) (l : StatementLine) : Prop where
  currency : l.currency = p.currency
  amount : l.amountMinor.strictEq p.amountMinor = true
  time : ∃ s t : ℚ, Date.getTime p.at' = .fin s ∧ Date.getTime l.at' = .fin t ∧
    .fin |t - s| ≤ window

theorem getTime_cases (s : String) : Date.getTime s = .nan ∨ ∃ q, Date.getTime s = .fin q := by
  unfold Date.getTime
  cases Date.parse s with
  | none => exact .inl rfl
  | some t => exact .inr ⟨_, rfl⟩

theorem fits_iff {window : JsNumber} {p : SettledPayment} {l : StatementLine} :
    fits window p l = true ↔ Compatible window p l := by
  have htime : mathAbs (Date.getTime l.at' - Date.getTime p.at') ≤ window ↔
      ∃ s t : ℚ, Date.getTime p.at' = .fin s ∧ Date.getTime l.at' = .fin t ∧
        .fin |t - s| ≤ window := by
    rcases getTime_cases p.at' with hp | ⟨s, hp⟩
    · rw [hp]
      have hsub : Date.getTime l.at' - .nan = .nan := by cases Date.getTime l.at' <;> rfl
      rw [hsub]
      refine ⟨fun h => absurd h (JsNumber.not_nan_le _), ?_⟩
      rintro ⟨s, t, hs, -⟩
      cases hs
    · rcases getTime_cases l.at' with hl | ⟨t, hl⟩
      · rw [hp, hl]
        refine ⟨fun h => absurd h (JsNumber.not_nan_le _), ?_⟩
        rintro ⟨s', t, -, ht, -⟩
        cases ht
      · rw [hp, hl, JsNumber.fin_sub_fin]
        constructor
        · exact fun h => ⟨s, t, rfl, rfl, h⟩
        · rintro ⟨s', t', hs, ht, h⟩
          cases hs
          cases ht
          exact h
  unfold fits
  rw [Bool.and_eq_true, Bool.and_eq_true, beq_iff_eq, decide_eq_true_eq, htime]
  exact ⟨fun h => ⟨h.1.1, h.1.2, h.2⟩, fun h => ⟨⟨h.currency, h.amount⟩, h.time⟩⟩

/-! ## Conservation -/

/-- **The loop is a first fit.** -/
theorem foldl_reconcileStep (window : JsNumber) (payments : List SettledPayment) :
    ∀ s : ReconResult, payments.foldl (reconcileStep window) s =
      { matched := s.matched ++ (firstFit (fits window) payments s.unmatchedStatement).matched
        unmatchedPayments := s.unmatchedPayments ++
          (firstFit (fits window) payments s.unmatchedStatement).left
        unmatchedStatement :=
          (firstFit (fits window) payments s.unmatchedStatement).right } := by
  induction payments with
  | nil => exact fun s => by simp [firstFit]
  | cons p payments ih =>
      intro s
      rw [List.foldl_cons, ih]
      cases h : s.unmatchedStatement.find? (fits window p) with
      | some line =>
          have hstep : reconcileStep window s p =
              { s with
                matched := s.matched ++ [(p, line)]
                unmatchedStatement := s.unmatchedStatement.eraseP (fits window p) } := by
            rw [reconcileStep, h]
          rw [hstep, firstFit_some h]
          simp only [List.append_assoc, List.singleton_append]
      | none =>
          have hstep : reconcileStep window s p =
              { s with unmatchedPayments := s.unmatchedPayments ++ [p] } := by
            rw [reconcileStep, h]
          rw [hstep, firstFit_none h]
          simp only [List.append_assoc, List.singleton_append]

theorem reconcile_eq (payments : List SettledPayment) (lines : List StatementLine)
    (windowMs : Option JsNumber) : reconcile payments lines windowMs =
      { matched := (firstFit (fits (windowMs.getD defaultWindowMs)) payments lines).matched
        unmatchedPayments := (firstFit (fits (windowMs.getD defaultWindowMs)) payments lines).left
        unmatchedStatement :=
          (firstFit (fits (windowMs.getD defaultWindowMs)) payments lines).right } :=
  foldl_reconcileStep _ payments _

/-- **Every payment and every line ends in one place, pairs are compatible, and
nothing compatible is left.** -/
theorem reconcile_conserves (payments : List SettledPayment) (lines : List StatementLine)
    (windowMs : Option JsNumber) :
    ((reconcile payments lines windowMs).matched.map Prod.fst ++
        (reconcile payments lines windowMs).unmatchedPayments).Perm payments ∧
      ((reconcile payments lines windowMs).matched.map Prod.snd ++
        (reconcile payments lines windowMs).unmatchedStatement).Perm lines ∧
      (∀ x ∈ (reconcile payments lines windowMs).matched,
        Compatible (windowMs.getD defaultWindowMs) x.1 x.2) ∧
      ∀ p ∈ (reconcile payments lines windowMs).unmatchedPayments,
        ∀ l ∈ (reconcile payments lines windowMs).unmatchedStatement,
          ¬ Compatible (windowMs.getD defaultWindowMs) p l := by
  rw [reconcile_eq]
  refine ⟨firstFit_left_perm payments lines, firstFit_right_perm payments lines,
    fun x hx => fits_iff.1 (firstFit_sound payments lines x hx), fun p hp l hl hfits => ?_⟩
  have hnone := firstFit_maximal payments lines p hp l hl
  rw [fits_iff.2 hfits] at hnone
  exact Bool.noConfusion hnone

/-! ## The largest matching -/

/-- **Reconciliation explains as many lines as any assignment exactly when some
largest matching is first-come.** -/
theorem reconcile_greatest_iff (payments : List SettledPayment) (lines : List StatementLine)
    (windowMs : Option JsNumber) :
    IsGreatest (matchingSizes (fits (windowMs.getD defaultWindowMs)) payments lines)
        (reconcile payments lines windowMs).matched.length ↔
      ∃ M, Matching (fits (windowMs.getD defaultWindowMs)) payments lines M ∧
        FirstCome (fits (windowMs.getD defaultWindowMs)) payments lines M ∧
        M.card ∈ upperBounds
          (matchingSizes (fits (windowMs.getD defaultWindowMs)) payments lines) := by
  rw [reconcile_eq]
  exact firstFit_greatest_iff

namespace Sample

def coffee (id at' : String) : SettledPayment where
  intentId := id
  payee := "cafe"
  amountMinor := 450
  currency := "GBP"
  at' := at'

def cafeLine (at' : String) : StatementLine where
  amountMinor := 450
  currency := "GBP"
  descriptor := "CAFE"
  at' := at'

/-- The later payment comes first and takes the one line the earlier fits. -/
def payments : List SettledPayment :=
  [coffee "late" "2026-03-04T00:00:00.000Z", coffee "early" "2026-03-01T00:00:00.000Z"]

def lines : List StatementLine :=
  [cafeLine "2026-03-03T00:00:00.000Z", cafeLine "2026-03-06T00:00:00.000Z"]

end Sample

/-- Two equal payments could explain both lines, and one line is reported. -/
theorem reconcile_not_greatest : ¬ IsGreatest
    (matchingSizes (fits defaultWindowMs) Sample.payments Sample.lines)
    (reconcile Sample.payments Sample.lines none).matched.length := by
  intro h
  have hboth : Matching (fits defaultWindowMs) Sample.payments Sample.lines
      {(0, 1), (1, 0)} := by
    refine ⟨fun x hx => ?_, by decide, by decide⟩
    rcases Finset.mem_insert.1 hx with rfl | hx
    · exact ⟨_, _, rfl, rfl, by decide +kernel⟩
    · rw [Finset.mem_singleton.1 hx]
      exact ⟨_, _, rfl, rfl, by decide +kernel⟩
  have hone : (reconcile Sample.payments Sample.lines none).matched.length = 1 := by
    decide +kernel
  have hle := h.2 ⟨_, hboth, rfl⟩
  rw [hone] at hle
  exact absurd hle (by decide)

end AgentWorth.Finance
