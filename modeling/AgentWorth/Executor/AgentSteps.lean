import AgentWorth.Executor.Confinement
import AgentWorth.Executor.SettleOnce

/-!
# An agent's steps, one by one

While the chain is in step with the store and every call under way can be filed,
an agent's step declines a payment, starts one, hears from its rail, or files
its outcome.  Nothing is lost on the way.
-/

namespace AgentWorth

open AgentWorth.Js AgentWorth.Lib

variable {σ : Type} {d : ExecutorDeps σ} (C : Contract d.store)

/-- What the rail of a call answered, and what `settle` makes of it. -/
inductive RailAnswer (k : Nat) (call : Call) (provider : PaymentProvider) :
    Action → List Event → Except String (Receipt × Bool) → Prop
  | returned {receipt : Receipt} {verified : Except String Bool}
      {outcome : Except String (Receipt × Bool)}
      (booked : ∀ r v, outcome = .ok (r, v) → r = issuedBy provider receipt) :
      RailAnswer k call provider (.railReturns k receipt verified)
        [.railSettled call provider receipt] outcome
  | threw {error : String} :
      RailAnswer k call provider (.railThrows k error) [.railFailed call error] (.error error)

inductive AgentStep (s s' : State σ) : Action → List Event → Prop
  /-- `execute` returns or throws without suspending -/
  | declined {now : String} {src : Sources} {intent : PaymentIntent}
      {attestation : Option Attestation} {es : List Event} (calls : s'.calls = s.calls)
      (ends : (∃ r : ExecuteResult, es = [.returned r] ∧ r.status ≠ .settled) ∨
        ∃ e, es = [.threw e]) :
      AgentStep s s' (.execute now src intent attestation) es
  | started {now : String} {src : Sources} {intent : PaymentIntent}
      {attestation : Option Attestation} {decision : GateDecision}
      (calls : s'.calls = s.calls ++ [settle d .execute intent.id intent now decision]) :
      AgentStep s s' (.execute now src intent attestation)
        (settle d .execute intent.id intent now decision).invocation
  | answered {a : Action} {es : List Event} {k : Nat} {call : Call} {provider : PaymentProvider}
      {outcome : Except String (Receipt × Bool)} (slot : s.calls[k]? = some call)
      (stage : call.stage = .rail provider) (answer : RailAnswer k call provider a es outcome)
      (calls : s'.calls = s.calls.set k { call with stage := .settled outcome }) :
      AgentStep s s' a es
  | finished {k : Nat} {call : Call} {outcome : Except String (Receipt × Bool)}
      (slot : s.calls[k]? = some call) (stage : call.stage = .settled outcome)
      (calls : s'.calls = s.calls.eraseIdx k)
      (intents : (s'.books C).intents =
        (s.books C).intents.put (C.saved (executedIntent call outcome))) :
      AgentStep s s' (.resume k) [.finished call (settlementResult call outcome)]

variable {C} {s s' : State σ} {a : Action} {es : List Event}

private theorem agentStep_execute {now : String} {src : Sources} {intent : PaymentIntent}
    {attestation : Option Attestation}
    (htaken : step d s (.execute now src intent attestation) = some (s', es)) :
    AgentStep C s s' (.execute now src intent attestation) es := by
  have hrun := execute_run d src now intent attestation s.world
  have heq := Option.some.inj htaken
  generalize execute d src now intent attestation s.world = r at hrun heq
  have hdone : ∀ {result : ExecuteResult} {w : World σ}, result.status ≠ .settled →
      s.started (.ok (.done result) w) = (s', es) →
      AgentStep C s s' (.execute now src intent attestation) es := by
    intro result w hstatus h
    cases h
    exact .declined rfl (Or.inl ⟨result, rfl, hstatus⟩)
  have herror : ∀ {e : String} {w : World σ}, s.started (.error e w) = (s', es) →
      AgentStep C s s' (.execute now src intent attestation) es := by
    intro e w h
    cases h
    exact .declined rfl (Or.inr ⟨e, rfl⟩)
  cases hrun with
  | authorized runs decides captures recorded automatic =>
      cases heq
      exact .started rfl
  | halted halts recorded filed => exact hdone (by simp) heq
  | blocked runs decides captures recorded blocks filed counted => exact hdone (by simp) heq
  | parked runs decides captures recorded confirms filed => exact hdone (by simp) heq
  | haltUnrecorded | haltUnfiled | undecided | uncaptured | unrecorded | unfiled =>
      exact herror heq

/-- **The steps of an agent.** -/
theorem agentStep_of_step (hagent : a.isAgent = true) (htaken : step d s a = some (s', es))
    (hsync : Synced C s.world) (hfinish : ∀ call ∈ s.calls, call.Finishable (s.books C))
    (hcalls : ∀ call ∈ s.calls, call.entry = .execute) : AgentStep C s s' a es := by
  obtain ⟨heffect, -⟩ := step_effect C htaken
  cases a with
  | execute now src intent attestation => exact agentStep_execute htaken
  | railReturns k receipt verified =>
      obtain ⟨⟨call, provider⟩, -, heq⟩ := Option.map_eq_some_iff.1 htaken
      have hanswer : .railSettled call provider receipt ∈ es := by
        have hes := congrArg Prod.snd heq
        simp only [State.answered] at hes
        split at hes <;> simp [← hes]
      have hloud : (∀ e ∈ es, e.isQuiet = true) → False := fun h => by cases h _ hanswer
      cases heffect with
      | answered waiting mandates intents receipts booked calls refunds =>
          obtain ⟨hslot, hstage⟩ := atRail_iff.1 waiting
          exact .answered hslot hstage (.returned booked) calls
      | answerLost waiting outOfStep => exact absurd hsync outOfStep
      | quiet same calls refunds quiet => exact absurd quiet hloud
      | mandateChanged change => cases change
  | railThrows k error =>
      obtain ⟨⟨call, provider⟩, -, heq⟩ := Option.map_eq_some_iff.1 htaken
      have hanswer : .railFailed call error ∈ es := by
        have hes := congrArg Prod.snd heq
        simp only [State.answered] at hes
        split at hes <;> simp [← hes]
      have hloud : (∀ e ∈ es, e.isQuiet = true) → False := fun h => by cases h _ hanswer
      cases heffect with
      | railFailed waiting same calls refunds =>
          obtain ⟨hslot, hstage⟩ := atRail_iff.1 waiting
          exact .answered hslot hstage .threw calls
      | railFailureLost waiting outOfStep => exact absurd hsync outOfStep
      | quiet same calls refunds quiet => exact absurd quiet hloud
      | mandateChanged change => cases change
  | resume k =>
      obtain ⟨⟨call, outcome⟩, hwait, heq⟩ := Option.map_eq_some_iff.1 htaken
      obtain ⟨hslot, hstage⟩ := atResume_iff.1 hwait
      have hmem := List.mem_of_getElem? hslot
      obtain ⟨store, hfiled⟩ := filing_ok C outcome (hfinish call hmem)
      have hes : es = [.finished call (settlementResult call outcome)] := by
        rcases finish_cases d call outcome s.world with ⟨e, hrefused, -⟩ | ⟨_, w', -, -, hok⟩
        · rw [hfiled] at hrefused
          cases hrefused
        · simp only [hok] at heq
          exact (congrArg Prod.snd heq).symm
      subst hes
      obtain ⟨k', outcome', haction, -, hwait', -, herase, hends⟩ :=
        heffect.finished C List.mem_cons_self
      cases haction
      rw [hwait] at hwait'
      cases hwait'
      cases hends with
      | execute entry fresh intents => exact .finished hslot hstage herase intents
      | approve entry present intents =>
          rw [hcalls call hmem] at entry
          cases entry
  | _ => cases hagent

end AgentWorth
