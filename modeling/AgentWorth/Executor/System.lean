import AgentWorth.Executor.Model
import AgentWorth.Lib.Runs

/-!
# The executor as a stepping system

A step is one uninterrupted stretch of the event loop: an entry point is called
and runs to its first `await`, a rail answers and `settle` resumes, or the
caller of `settle` resumes.  Any number of calls may be suspended at once, and
the environment chooses which step comes next, what the clock says, and what
the rails answer.
-/

namespace AgentWorth

open AgentWorth.Js AgentWorth.Lib

structure State (σ : Type) where
  world : World σ
  /-- suspended `execute` and `approve` calls -/
  calls : List Call := []
  /-- suspended `refund` calls -/
  refunds : List RefundCall := []

/-- Suspended calls are named by their position in the state's lists. -/
inductive Action where
  | execute (now : String) (src : Sources) (intent : PaymentIntent)
      (attestation : Option Attestation)
  | approve (now : String) (src : Sources) (intentId rationale : String)
      (acknowledged : Bool)
  | railReturns (k : Nat) (receipt : Receipt) (verified : Except String Bool)
  | railThrows (k : Nat) (error : String)
  | resume (k : Nat)
  | refund (now intentId : String) (amountMinor : Option JsNumber) (reason : Option String)
  | refundReturns (k : Nat) (refundRef : String)
  | refundThrows (k : Nat) (error : String)
  | grantMandate (now : String) (m : Mandate)
  | revokeMandate (now id : String)
  | amendMandate (now id : String) (patch : MandatePatch)
  | extendMandate (now id expiresAt : String)
  | engageKillSwitch
  | disengageKillSwitch
  | resetCircuitBreaker

inductive Event where
  /-- `provider.settle(intent, now)` is called -/
  | railInvoked (call : Call) (provider : PaymentProvider)
  /-- `provider.settle` returns successfully -/
  | railSettled (call : Call) (provider : PaymentProvider) (receipt : Receipt)
  | railFailed (call : Call) (error : String)
  /-- a call that had suspended returns -/
  | finished (call : Call) (result : ExecuteResult)
  /-- a call returns without suspending -/
  | returned (result : ExecuteResult)
  /-- a call throws -/
  | threw (error : String)
  /-- `provider.refund(receipt, amount, now)` is called -/
  | refundInvoked (call : RefundCall)
  /-- `provider.refund` returns successfully -/
  | refundSettled (call : RefundCall)
  | refundFailed (call : RefundCall) (error : String)
  | refundFinished (result : RefundResult)

variable {σ : Type}

namespace State

/-- A segment that ends its call: the world it leaves and how it ended. -/
def conclude {α : Type} (s : State σ) (ended : α → List Event) :
    EStateM.Result String (World σ) α → State σ × List Event
  | .ok a w => ({ s with world := w }, ended a)
  | .error e w => ({ s with world := w }, [.threw e])

/-- The first segment of `execute` or `approve` has run. -/
def started (s : State σ) :
    EStateM.Result String (World σ) Started → State σ × List Event
  | .ok (.done result) w => ({ s with world := w }, [.returned result])
  | .ok (.awaiting call) w =>
      ({ s with world := w, calls := s.calls ++ [call] },
        match call.stage with
        | .rail provider => [.railInvoked call provider]
        | .settled _ => [])
  | .error e w => ({ s with world := w }, [.threw e])

/-- `settle` has resumed on behalf of the `k`th call. -/
def answered (s : State σ) (k : Nat) (call : Call) (answer : Event) :
    EStateM.Result String (World σ) (Except String (Receipt × Bool)) → State σ × List Event
  | .ok outcome w =>
      ({ s with world := w, calls := s.calls.set k { call with stage := .settled outcome } },
        [answer])
  | .error e w => ({ s with world := w, calls := s.calls.eraseIdx k }, [answer, .threw e])

end State

/-- The `k`th call, if its rail has been asked and has not answered. -/
def atRail (s : State σ) (k : Nat) : Option (Call × PaymentProvider) :=
  s.calls[k]?.bind fun call =>
    match call.stage with
    | .rail provider => some (call, provider)
    | .settled _ => none

/-- The `k`th call, if its settlement is over. -/
def atResume (s : State σ) (k : Nat) : Option (Call × Except String (Receipt × Bool)) :=
  s.calls[k]?.bind fun call =>
    match call.stage with
    | .rail _ => none
    | .settled outcome => some (call, outcome)

theorem atRail_iff {s : State σ} {k : Nat} {call : Call} {provider : PaymentProvider} :
    atRail s k = some (call, provider) ↔
      s.calls[k]? = some call ∧ call.stage = .rail provider := by
  unfold atRail
  cases h : s.calls[k]? with
  | none => simp
  | some c =>
      simp only [Option.bind_some, Option.some.injEq]
      constructor
      · intro hc
        split at hc
        · next hstage =>
            cases hc
            exact ⟨rfl, hstage⟩
        · cases hc
      · rintro ⟨rfl, hstage⟩
        rw [hstage]

theorem atResume_iff {s : State σ} {k : Nat} {call : Call}
    {outcome : Except String (Receipt × Bool)} :
    atResume s k = some (call, outcome) ↔
      s.calls[k]? = some call ∧ call.stage = .settled outcome := by
  unfold atResume
  cases h : s.calls[k]? with
  | none => simp
  | some c =>
      simp only [Option.bind_some, Option.some.injEq]
      constructor
      · intro hc
        split at hc
        · cases hc
        · next hstage =>
            cases hc
            exact ⟨rfl, hstage⟩
      · rintro ⟨rfl, hstage⟩
        rw [hstage]

variable (d : ExecutorDeps σ)

def step (s : State σ) : Action → Option (State σ × List Event)
  | .execute now src intent attestation =>
      some (s.started (execute d src now intent attestation s.world))
  | .approve now src intentId rationale acknowledged =>
      some (s.started (approve d src now intentId rationale acknowledged s.world))
  | .railReturns k receipt verified =>
      (atRail s k).map fun (call, provider) =>
        s.answered k call (.railSettled call provider receipt)
          (settleReturned d call.intent call.now (issuedBy provider receipt) verified s.world)
  | .railThrows k error =>
      (atRail s k).map fun (call, _) =>
        s.answered k call (.railFailed call error)
          (settleFailed d call.intent call.now error s.world)
  | .resume k =>
      (atResume s k).map fun (call, outcome) =>
        { s with calls := s.calls.eraseIdx k }.conclude (fun r => [.finished call r])
          (finish d call outcome s.world)
  | .refund now intentId amountMinor reason =>
      match refund d s.world.store now intentId amountMinor reason with
      | .ok (.refused result) => some (s, [.refundFinished result])
      | .ok (.awaiting call) =>
          some ({ s with refunds := s.refunds ++ [call] }, [.refundInvoked call])
      | .error e => some (s, [.threw e])
  | .refundReturns k refundRef =>
      s.refunds[k]?.map fun call =>
        let (s', es) := { s with refunds := s.refunds.eraseIdx k }.conclude
          (fun r => [.refundFinished r]) (refundReturned d call refundRef s.world)
        (s', .refundSettled call :: es)
  | .refundThrows k error =>
      s.refunds[k]?.map fun call =>
        ({ s with refunds := s.refunds.eraseIdx k }, [.refundFailed call error, .threw error])
  | .grantMandate now m => some (s.conclude (fun _ => []) (grantMandate d now m s.world))
  | .revokeMandate now id => some (s.conclude (fun _ => []) (revokeMandate d now id s.world))
  | .amendMandate now id patch =>
      some (s.conclude (fun _ => []) (amendMandate d now id patch s.world))
  | .extendMandate now id expiresAt =>
      some (s.conclude (fun _ => []) (extendMandate d now id expiresAt s.world))
  | .engageKillSwitch => some (s.conclude (fun _ => []) (engageKillSwitch d s.world))
  | .disengageKillSwitch => some (s.conclude (fun _ => []) (disengageKillSwitch d s.world))
  | .resetCircuitBreaker => some (s.conclude (fun _ => []) (resetCircuitBreaker d s.world))

/-- One executor over one store. -/
def executor : System (State σ) Action Event := ⟨step d⟩

end AgentWorth
