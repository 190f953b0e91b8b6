import AgentWorth.Executor.Budget

/-!
# Period caps

Two readings of the budget: payments in the mandate's own currency with any
number of calls in flight, and payments in any currency one at a time.
-/

namespace AgentWorth

open AgentWorth.Js AgentWorth.Lib

variable {σ : Type} {d : ExecutorDeps σ} (C : Contract d.store)

/-! ## Payments in flight -/

/-- The payments that `m` covers are in its currency. -/
def SameCurrency (d : ExecutorDeps σ) (m : String) (s : State σ) : Action → Prop
  | .execute now src intent attestation =>
      ∀ mandate ∈ selectMandate intent (context d src s.world.store now intent attestation),
        mandate.id = m → mandate.currency = intent.currency
  | _ => True

/-- Runs in one currency in which what is under way is counted in. -/
def Reserved (d : ExecutorDeps σ) (m : String) : Guard (State σ) Action Event :=
  fun steps s a => Budgeted d m steps s a ∧ SameCurrency d m s a

instance (m : String) (s : State σ) (a : Action) : Decidable (SameCurrency d m s a) :=
  match a with
  | .execute .. => inferInstanceAs (Decidable (∀ mandate ∈ selectMandate _ _, _ → _))
  | .approve .. | .railReturns .. | .railThrows .. | .resume .. | .refund .. | .refundReturns ..
  | .refundThrows .. | .grantMandate .. | .revokeMandate .. | .amendMandate ..
  | .extendMandate .. | .engageKillSwitch | .disengageKillSwitch | .resetCircuitBreaker =>
      inferInstanceAs (Decidable True)

instance (m : String) (steps : List (Step (State σ) Action Event)) (s : State σ) (a : Action) :
    Decidable (Reserved d m steps s a) := inferInstanceAs (Decidable (_ ∧ _))

/-- A payment in the mandate's currency is measured at its amount. -/
theorem measured_eq_amount {m : String} {s₀ s : State σ}
    {steps : List (Step (State σ) Action Event)} (hidle : s₀.calls = [])
    (hsync : Synced C s₀.world) (hrun : (executor d).Run (Reserved d m) s₀ steps s) :
    ∀ p ∈ paidUnder m (events steps), measured d m steps p.id = p.call.intent.amount := by
  suffices h : LedgerInv C m (events steps) s ∧
      (∀ call ∈ s.calls, call.isUnder m = true →
        measured d m steps call.intent.id = call.intent.amount) ∧
      ∀ p ∈ paidUnder m (events steps), measured d m steps p.id = p.call.intent.amount from h.2.2
  refine hrun.invariant (fun steps s => LedgerInv C m (events steps) s ∧
    (∀ call ∈ s.calls, call.isUnder m = true →
      measured d m steps call.intent.id = call.intent.amount) ∧
    ∀ p ∈ paidUnder m (events steps), measured d m steps p.id = p.call.intent.amount)
    ⟨⟨settleOnce_start C hidle hsync, by simp⟩, by simp [hidle], by simp⟩ ?_
  rintro steps s a s' es ⟨hledger, hcalls, hpaid⟩ ⟨⟨hkeeps, -⟩, hcurrency⟩ htaken
  obtain ⟨heffect, -⟩ := step_effect C htaken
  have hcall : ∀ call ∈ s.calls, call.isUnder m = true →
      measured d m (steps ++ [⟨s, a, es, s'⟩]) call.intent.id = call.intent.amount := by
    intro call hmem hunder
    rw [measured_keeps C hkeeps.1 (Or.inl ⟨call, hmem, rfl⟩)]
    exact hcalls call hmem hunder
  rw [events_snoc]
  refine ⟨ledger_step C hledger hkeeps htaken, ?_, ?_⟩
  · intro call hmem hunder
    cases heffect.mem_calls C hmem with
    | old mem => exact hcall call mem hunder
    | @executed now src intent attestation decision decides automatic =>
        have hm : decision.mandateId = some m := by
          simpa [Call.isUnder, settle] using hunder
        obtain ⟨mandate, start, rfl, hheld, -, hexec⟩ := rows_of_decision C decides automatic hm
        show measured d mandate.id _ intent.id = intent.amount
        rw [measured_asked hheld, amountInMandate,
          if_pos (hcurrency mandate hexec.selected rfl)]
    | approved present pending decides passes => cases hunder
    | @answered _ _ old _ _ waiting returned =>
        exact hcall old (mem_of_slot (atRail_iff.1 waiting).1) hunder
  · intro p hp
    rw [paidUnder_append] at hp
    rcases List.mem_append.1 hp with h | h
    · rw [measured_paid C hledger hkeeps.1 h]
      exact hpaid p h
    · obtain ⟨k, receipt, verified, provider, outcome, rfl, hwait, -⟩ :=
        heffect.paid C hledger.once.synced h
      obtain ⟨hentry, hm⟩ := call_of_mem h
      exact hcall p.call (mem_of_slot (atRail_iff.1 hwait).1) (by simp [Call.isUnder, hentry, hm])

/-- When `execute` is called for a payment that `m` covers, its amount converts
to a finite one and the rows cover the payments of the period. -/
def Convertible (d : ExecutorDeps σ) (m : String) (steps : List (Step (State σ) Action Event))
    (s : State σ) : Action → Prop
  | .execute now src intent attestation =>
      ∀ mandate ∈ selectMandate intent (context d src s.world.store now intent attestation),
        mandate.id = m →
          (amountInMandate intent (context d src s.world.store now intent attestation)
            mandate).isFinite = true ∧ Covers d mandate steps s.world.store now
  | _ => True

/-- Orderly runs in which the rows count every payment at no less than it was
measured. -/
def Converted (d : ExecutorDeps σ) (m : String) : Guard (State σ) Action Event :=
  fun steps s a => Orderly d steps s a ∧ a.Keeps m ∧ Convertible d m steps s a

instance (m : String) (steps : List (Step (State σ) Action Event)) (s : State σ) (a : Action) :
    Decidable (Convertible d m steps s a) :=
  match a with
  | .execute .. => inferInstanceAs (Decidable (∀ mandate ∈ selectMandate _ _, _ → _ ∧ _))
  | .approve .. | .railReturns .. | .railThrows .. | .resume .. | .refund .. | .refundReturns ..
  | .refundThrows .. | .grantMandate .. | .revokeMandate .. | .amendMandate ..
  | .extendMandate .. | .engageKillSwitch | .disengageKillSwitch | .resetCircuitBreaker =>
      inferInstanceAs (Decidable True)

instance (m : String) (steps : List (Step (State σ) Action Event)) (s : State σ) (a : Action) :
    Decidable (Converted d m steps s a) := inferInstanceAs (Decidable (_ ∧ _ ∧ _))

/-- One call at a time, nothing is ever under way. -/
theorem budgeted_of_converted {m : String} {steps : List (Step (State σ) Action Event)}
    {s : State σ} {a : Action} (h : Converted d m steps s a) : Budgeted d m steps s a := by
  obtain ⟨⟨hseq, hkeeps, hnow, hclock⟩, hunamended, hconvertible⟩ := h
  refine ⟨hkeeps, hnow, hclock, hunamended, ?_⟩
  cases a with
  | execute now src intent attestation =>
      intro mandate hselected hid
      obtain ⟨hfinite, hcovers⟩ := hconvertible mandate hselected hid
      have hidle : s.calls = [] := hseq
      exact ⟨hfinite, Or.inl ⟨by simp [hidle], hcovers⟩⟩
  | _ => trivial

namespace Sample

/-- One rate between euros and dollars. -/
def fixedRate (rate : JsNumber) : Sources where
  fxRates := some fun source target =>
    if source = "EUR" ∧ target = "USD" then some rate else none

/-- A payment of 30 euros that is executed, settled and filed. -/
def paysEuros (rate : JsNumber) (id : String) : List Action :=
  [.execute noon (fixedRate rate) { intent id 30 with currency := "EUR" } none,
    settles 0 id 30, .resume 0]

end Sample

end AgentWorth
