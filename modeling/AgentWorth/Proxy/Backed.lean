import AgentWorth.Lib.Histories
import AgentWorth.Proxy.Forward

/-!
# Every proof of payment is paid for

A request is retried with a proof at most once, and only after a rail has
settled the payment that this very request made and the books say so.  The
invariant follows each payment from the call under way, through the answer of
its rail and its row, to the request that waits for it.
-/

namespace AgentWorth

open AgentWorth.Js AgentWorth.Lib

variable {σ : Type} {d : ExecutorDeps σ} {config : ProxyConfig} (C : Contract d.store)

/-! ## What a run shows -/

/-- What the executor did, in order. -/
def executorEvents (es : List ForwardEvent) : List Event :=
  es.filterMap fun e =>
    match e with
    | .ran e => some e
    | _ => none

/-- The requests retried with a proof, in order. -/
def provedRequests (es : List ForwardEvent) : List Nat :=
  es.filterMap fun e =>
    match e with
    | .upstreamCalled i _ (some _) => some i
    | _ => none

@[simp] theorem executorEvents_append (es es' : List ForwardEvent) :
    executorEvents (es ++ es') = executorEvents es ++ executorEvents es' :=
  List.filterMap_append

@[simp] theorem provedRequests_append (es es' : List ForwardEvent) :
    provedRequests (es ++ es') = provedRequests es ++ provedRequests es' :=
  List.filterMap_append

@[simp] theorem executorEvents_ran (es : List Event) :
    executorEvents (es.map .ran) = es := by
  rw [executorEvents, List.filterMap_map]
  exact List.filterMap_some

@[simp] theorem provedRequests_ran (es : List Event) : provedRequests (es.map .ran) = [] := by
  rw [provedRequests, List.filterMap_map, List.filterMap_eq_nil_iff]
  intro e he
  rfl

abbrev ForwardStep (σ : Type) := Step (X402Forward σ) ForwardAction ForwardEvent

/-- A rail has settled the payment with the receipt. -/
def SettledFor (steps : List (ForwardStep σ)) (intent : PaymentIntent) (r : Receipt) : Prop :=
  ∃ t ∈ steps, ∃ call provider receipt, .ran (.railSettled call provider receipt) ∈ t.events ∧
    call.intent = intent ∧ r = issuedBy provider receipt

theorem SettledFor.snoc {steps : List (ForwardStep σ)} {intent : PaymentIntent} {r : Receipt}
    (h : SettledFor steps intent r) (t : ForwardStep σ) :
    SettledFor (steps ++ [t]) intent r := by
  obtain ⟨t', ht', h⟩ := h
  exact ⟨t', List.mem_append_left _ ht', h⟩

/-- The books say that the payment settled with the receipt. -/
def BookedAs (s : State σ) (intent : PaymentIntent) (r : Receipt) : Prop :=
  ∃ row, (s.books C).intents.get intent.id = some row ∧ row.intent = intent ∧
    row.status = .settled ∧ row.receiptId = some r.id

/-- If the step retries a request with a proof, the proof is of the payment of
that request, which has settled and is on the books. -/
def PaidFor (config : ProxyConfig) (steps : List (ForwardStep σ)) (t : ForwardStep σ) : Prop :=
  ∀ i req proof, .upstreamCalled i req (some proof) ∈ t.events →
    ∃ x intent result receipt, t.before.exchanges[i]? = some x ∧ x.request = req ∧
      x.intent = some intent ∧ config.proof result = .ok proof ∧
      result.receipt = some receipt ∧ SettledFor steps intent receipt ∧
      BookedAs C t.before.executor intent receipt

def Exchange.intentId (x : Exchange) : Option String := x.intent.map PaymentIntent.id

/-- `newId` answers fresh ids, and nobody else pays under them. -/
def FreshOffers (d : ExecutorDeps σ) : Guard (X402Forward σ) ForwardAction ForwardEvent :=
  fun _ t a =>
    match a with
    | .upstreamAnswers _ _ newId _ _ _ =>
        d.store.getIntent t.executor.world.store newId = none ∧
          (∀ call ∈ t.executor.calls, call.intent.id ≠ newId) ∧
            ∀ x ∈ t.exchanges, x.intentId ≠ some newId
    | _ => True

instance (steps : List (ForwardStep σ)) (t : X402Forward σ) (a : ForwardAction) :
    Decidable (FreshOffers d steps t a) :=
  match a with
  | .upstreamAnswers .. => inferInstanceAs (Decidable (_ ∧ _ ∧ _))
  | .forward .. | .upstreamFails .. | .respond .. | .railReturns .. | .railThrows ..
  | .resume .. => inferInstanceAs (Decidable True)

/-! ## What one step does -/

/-- The requests of the proxy after a step, and how the executor was driven. -/
inductive ForwardEffect (d : ExecutorDeps σ) (config : ProxyConfig) (t t' : X402Forward σ) :
    ForwardAction → List ForwardEvent → Prop
  | arrived {req : ProxyRequest} (executor : t'.executor = t.executor)
      (exchanges : t'.exchanges = t.exchanges ++ [{ request := req }]) :
      ForwardEffect d config t t' (.forward req)
        [.upstreamCalled t.exchanges.length req none]
  /-- a request ends without paying -/
  | closed {a : ForwardAction} {es : List ForwardEvent} {i : Nat} {x : Exchange}
      (slot : t.exchanges[i]? = some x) (executor : t'.executor = t.executor)
      (exchanges : t'.exchanges = t.exchanges.set i { x with phase := .closed })
      (quiet : executorEvents es = []) (unproved : provedRequests es = []) :
      ForwardEffect d config t t' a es
  | proved {i : Nat} {x : Exchange} {result : ExecuteResult} {proof : String}
      (slot : t.exchanges[i]? = some x) (phase : x.phase = .paid (.ok result))
      (status : result.status = .settled) (proves : config.proof result = .ok proof)
      (executor : t'.executor = t.executor)
      (exchanges : t'.exchanges = t.exchanges.set i { x with phase := .retrying }) :
      ForwardEffect d config t t' (.respond i) [.upstreamCalled i x.request (some proof)]
  | executed {i : Nat} {res : ProxyResponse} {newId createdAt now : String} {src : Sources}
      {x : Exchange} {intent : PaymentIntent} {es : List Event}
      (slot : t.exchanges[i]? = some x) (phase : x.phase = .fetching) (named : intent.id = newId)
      (taken : step d t.executor (.execute now src intent none) = some (t'.executor, es))
      (exchanges : t'.exchanges = t.exchanges.set i
        { x with intent := some intent, phase := paymentPhase es }) :
      ForwardEffect d config t t' (.upstreamAnswers i res newId createdAt now src) (es.map .ran)
  | drove {a : ForwardAction} {a' : Action} {es : List Event} (agent : a'.isAgent = true)
      (bare : ∀ now src intent attestation, a' ≠ .execute now src intent attestation)
      (taken : step d t.executor a' = some (t'.executor, es))
      (exchanges : t'.exchanges =
        t.exchanges.map (Exchange.told (endedCall t.executor a' es))) :
      ForwardEffect d config t t' a (es.map .ran)

variable {C} {t t' : X402Forward σ} {a : ForwardAction} {es : List ForwardEvent}

private theorem drive_effect {a' : Action} (h : t.drive d a' = some (t', es))
    (hagent : a'.isAgent = true)
    (hbare : ∀ now src intent attestation, a' ≠ .execute now src intent attestation) :
    ForwardEffect d config t t' a es := by
  obtain ⟨⟨s, es'⟩, htaken, heq⟩ := Option.map_eq_some_iff.1 h
  cases heq
  exact .drove hagent hbare htaken rfl

private theorem challenged_effect {i : Nat} {x : Exchange} {res : ProxyResponse}
    {newId createdAt now : String} {src : Sources} (hslot : t.exchanges[i]? = some x)
    (hphase : x.phase = .fetching)
    (h : t.challenged d config i x res newId createdAt now src = some (t', es)) :
    ForwardEffect d config t t' (.upstreamAnswers i res newId createdAt now src) es := by
  have hclosed : ∀ res', (t.close i x, [ForwardEvent.answered i res']) = (t', es) →
      ForwardEffect d config t t' (.upstreamAnswers i res newId createdAt now src) es := by
    intro res' heq
    cases heq
    exact .closed hslot rfl rfl rfl rfl
  unfold X402Forward.challenged at h
  split at h
  · exact hclosed _ (Option.some.inj h)
  · split at h
    · exact hclosed _ (Option.some.inj h)
    · cases h
    · split at h
      · exact hclosed _ (Option.some.inj h)
      · next r intent hbuilt =>
          obtain ⟨⟨s, es'⟩, htaken, heq⟩ := Option.map_eq_some_iff.1 h
          cases heq
          obtain ⟨req, -, hpair⟩ := Option.map_eq_some_iff.1 hbuilt
          have hintent := (Prod.mk.inj hpair).2
          exact .executed hslot hphase (by rw [← hintent]; rfl) htaken rfl

private theorem respond_effect {i : Nat} {x : Exchange} {result : ExecuteResult}
    (hslot : t.exchanges[i]? = some x) (hphase : x.phase = .paid (.ok result))
    (h : t.respond config i x result = (t', es)) :
    ForwardEffect d config t t' (.respond i) es := by
  unfold X402Forward.respond at h
  split at h
  · next hsettle =>
      have hstatus : result.status = .settled := by
        unfold challengeOutcome at hsettle
        split at hsettle
        · assumption
        · cases hsettle
        · cases hsettle
      split at h
      · cases h
        exact .closed hslot rfl rfl rfl rfl
      · next proof hproof =>
          cases h
          exact .proved hslot hphase hstatus hproof rfl rfl
  · cases h
    exact .closed hslot rfl rfl rfl rfl

/-- **One step of the proxy.** -/
theorem forwardStep_effect (h : forwardStep d config t a = some (t', es)) :
    ForwardEffect d config t t' a es := by
  cases a with
  | forward req =>
      cases h
      exact .arrived rfl rfl
  | upstreamAnswers i res newId createdAt now src =>
      obtain ⟨x, hslot, h⟩ := Option.bind_eq_some_iff.1 h
      split at h
      · next hphase => exact challenged_effect hslot hphase h
      · cases h
        exact .closed hslot rfl rfl rfl rfl
      · cases h
  | upstreamFails i error =>
      obtain ⟨x, hslot, h⟩ := Option.bind_eq_some_iff.1 h
      split at h
      · cases h
        exact .closed hslot rfl rfl rfl rfl
      · cases h
        exact .closed hslot rfl rfl rfl rfl
      · cases h
  | respond i =>
      obtain ⟨x, hslot, h⟩ := Option.bind_eq_some_iff.1 h
      split at h
      · next result hphase => exact respond_effect hslot hphase (Option.some.inj h)
      · cases h
        exact .closed hslot rfl rfl rfl rfl
      · cases h
  | railReturns k receipt verified => exact drive_effect h rfl (by simp)
  | railThrows k error => exact drive_effect h rfl (by simp)
  | resume k => exact drive_effect h rfl (by simp)

/-! ## The invariant -/

/-- The request has had its proof, or is over. -/
def ExchangePhase.isSpent : ExchangePhase → Bool
  | .retrying | .closed => true
  | _ => false

variable (C)

/-- What the request resumes with, if it is a settled payment, is its own, came
from the rail and is on the books. -/
def Exchange.Backed (steps : List (ForwardStep σ)) (s : State σ) (x : Exchange) : Prop :=
  ∀ result, x.phase = .paid (.ok result) → result.status = .settled →
    ∃ intent receipt, x.intent = some intent ∧ result.receipt = some receipt ∧
      SettledFor steps intent receipt ∧ BookedAs C s intent receipt

structure ForwardInv (s₀ : State σ) (steps : List (ForwardStep σ)) (t : X402Forward σ) :
    Prop where
  confined : Confined C s₀ t.executor
  once : SettleOnceInv C (executorEvents (events steps)) t.executor
  distinct : DistinctKeys (t.exchanges.map Exchange.intentId)
  unpaid : ∀ x ∈ t.exchanges, x.phase = .fetching → x.intent = none
  waiting : ∀ call ∈ t.executor.calls, ∃ x ∈ t.exchanges, x.intent = some call.intent
  answered : ∀ call ∈ t.executor.calls, ∀ r v, call.stage = .settled (.ok (r, v)) →
    SettledFor steps call.intent r
  backed : ∀ x ∈ t.exchanges, x.Backed C steps t.executor
  proofs : (provedRequests (events steps)).Nodup
  spent : ∀ i ∈ provedRequests (events steps),
    ∃ x, t.exchanges[i]? = some x ∧ x.phase.isSpent = true

variable {C}

section Step

variable {s₀ : State σ} {steps : List (ForwardStep σ)}

theorem Exchange.Backed.snoc {s : State σ} {x : Exchange} (h : x.Backed C steps s)
    (step : ForwardStep σ) {s' : State σ}
    (hbooks : ∀ intent r, BookedAs C s intent r → BookedAs C s' intent r) :
    x.Backed C (steps ++ [step]) s' := by
  intro result hphase hstatus
  obtain ⟨intent, receipt, hintent, hreceipt, hsettled, hbooked⟩ := h result hphase hstatus
  exact ⟨intent, receipt, hintent, hreceipt, hsettled.snoc step, hbooks intent receipt hbooked⟩

theorem Exchange.backed_of_unsettled {s : State σ} {x : Exchange}
    (h : ∀ result, x.phase = .paid (.ok result) → result.status ≠ .settled) :
    x.Backed C steps s :=
  fun result hphase hstatus => absurd hstatus (h result hphase)

theorem paidFor_of_unproved {step : ForwardStep σ} (h : provedRequests step.events = []) :
    PaidFor C config steps step := by
  intro i req proof hmem
  have hproved : i ∈ provedRequests step.events :=
    List.mem_filterMap.2 ⟨_, hmem, rfl⟩
  rw [h] at hproved
  cases hproved

/-- A request arrives. -/
theorem ForwardInv.arrive (hinv : ForwardInv C s₀ steps t) {req : ProxyRequest}
    (hexecutor : t'.executor = t.executor)
    (hexchanges : t'.exchanges = t.exchanges ++ [{ request := req }])
    (hquiet : executorEvents es = []) (hunproved : provedRequests es = []) :
    ForwardInv C s₀ (steps ++ [⟨t, a, es, t'⟩]) t' := by
  have hmem : ∀ x ∈ t'.exchanges, x ∈ t.exchanges ∨ x = { request := req } := by
    rw [hexchanges]
    simp
  refine ⟨by rw [hexecutor]; exact hinv.confined, ?_, ?_, ?_, ?_, ?_, ?_, ?_, ?_⟩
  · rw [events_snoc, executorEvents_append, hquiet, List.append_nil, hexecutor]
    exact hinv.once
  · rw [hexchanges, List.map_append]
    exact hinv.distinct.snoc_none
  · intro x hx hphase
    rcases hmem x hx with hx | rfl
    · exact hinv.unpaid x hx hphase
    · rfl
  · intro call hcall
    rw [hexecutor] at hcall
    obtain ⟨x, hx, hintent⟩ := hinv.waiting call hcall
    exact ⟨x, hexchanges ▸ List.mem_append_left _ hx, hintent⟩
  · intro call hcall r v hstage
    rw [hexecutor] at hcall
    exact (hinv.answered call hcall r v hstage).snoc _
  · intro x hx
    rw [hexecutor]
    rcases hmem x hx with hx | rfl
    · exact (hinv.backed x hx).snoc _ fun _ _ h => h
    · exact Exchange.backed_of_unsettled fun result hphase => by cases hphase
  · rw [events_snoc, provedRequests_append, hunproved, List.append_nil]
    exact hinv.proofs
  · rw [events_snoc, provedRequests_append, hunproved, List.append_nil, hexchanges]
    intro i hi
    obtain ⟨x, hslot, hspent⟩ := hinv.spent i hi
    obtain ⟨hlt, -⟩ := List.getElem?_eq_some_iff.1 hslot
    exact ⟨x, by rw [List.getElem?_append_left hlt, hslot], hspent⟩

/-- A request leaves: it ends, or it has its proof. -/
theorem ForwardInv.leave (hinv : ForwardInv C s₀ steps t) {i : Nat} {x : Exchange}
    {phase : ExchangePhase} (hslot : t.exchanges[i]? = some x) (hspent : phase.isSpent = true)
    (hexecutor : t'.executor = t.executor)
    (hexchanges : t'.exchanges = t.exchanges.set i { x with phase := phase })
    (hquiet : executorEvents es = [])
    (hproved : provedRequests es = [] ∨ provedRequests es = [i] ∧ x.phase.isSpent = false) :
    ForwardInv C s₀ (steps ++ [⟨t, a, es, t'⟩]) t' := by
  obtain ⟨hlt, -⟩ := List.getElem?_eq_some_iff.1 hslot
  have hmem : ∀ y ∈ t'.exchanges, y ∈ t.exchanges ∨ y = { x with phase := phase } := by
    rw [hexchanges]
    exact fun y hy => List.mem_or_eq_of_mem_set hy
  have hloud : ∀ {p : ExchangePhase}, p.isSpent = false → phase ≠ p := by
    rintro p hp rfl
    rw [hspent] at hp
    cases hp
  have hnow : ∃ y, t'.exchanges[i]? = some y ∧ y.phase.isSpent = true :=
    ⟨_, by rw [hexchanges, List.getElem?_set_self hlt], hspent⟩
  have hpast : ∀ j ∈ provedRequests (events steps),
      ∃ y, t'.exchanges[j]? = some y ∧ y.phase.isSpent = true := by
    intro j hj
    by_cases hij : i = j
    · exact hij ▸ hnow
    · obtain ⟨y, hy, hyspent⟩ := hinv.spent j hj
      exact ⟨y, by rw [hexchanges, List.getElem?_set_ne hij, hy], hyspent⟩
  refine ⟨by rw [hexecutor]; exact hinv.confined, ?_, ?_, ?_, ?_, ?_, ?_, ?_, ?_⟩
  · rw [events_snoc, executorEvents_append, hquiet, List.append_nil, hexecutor]
    exact hinv.once
  · rw [hexchanges, map_set_eq (b := { x with phase := phase }) hslot rfl]
    exact hinv.distinct
  · intro y hy hphase
    rcases hmem y hy with hy | rfl
    · exact hinv.unpaid y hy hphase
    · exact absurd hphase (hloud rfl)
  · intro call hcall
    rw [hexecutor] at hcall
    obtain ⟨y, hy, hintent⟩ := hinv.waiting call hcall
    rcases List.mem_cons.1 ((perm_eraseIdx hslot).mem_iff.1 hy) with rfl | hrest
    · refine ⟨{ y with phase := phase }, ?_, hintent⟩
      rw [hexchanges]
      exact (perm_set hslot).mem_iff.2 List.mem_cons_self
    · refine ⟨y, ?_, hintent⟩
      rw [hexchanges]
      exact (perm_set hslot).mem_iff.2 (List.mem_cons_of_mem _ hrest)
  · intro call hcall r v hstage
    rw [hexecutor] at hcall
    exact (hinv.answered call hcall r v hstage).snoc _
  · intro y hy
    rw [hexecutor]
    rcases hmem y hy with hy | rfl
    · exact (hinv.backed y hy).snoc _ fun _ _ h => h
    · exact Exchange.backed_of_unsettled fun result hphase => absurd hphase (hloud rfl)
  · rw [events_snoc, provedRequests_append]
    rcases hproved with hnone | ⟨hone, hfresh⟩
    · rw [hnone, List.append_nil]
      exact hinv.proofs
    · rw [hone]
      refine hinv.proofs.append (List.nodup_singleton i) (List.disjoint_singleton.2 ?_)
      intro hi
      obtain ⟨y, hy, hyspent⟩ := hinv.spent i hi
      rw [hslot] at hy
      cases hy
      rw [hfresh] at hyspent
      cases hyspent
  · rw [events_snoc, provedRequests_append]
    intro j hj
    rcases List.mem_append.1 hj with hj | hj
    · exact hpast j hj
    · rcases hproved with hnone | ⟨hone, -⟩
      · rw [hnone] at hj
        cases hj
      · rw [hone] at hj
        exact List.mem_singleton.1 hj ▸ hnow

/-- What a step of the executor keeps. -/
theorem ForwardInv.driven (hinv : ForwardInv C s₀ steps t) {a' : Action} {es' : List Event}
    (hagent : a'.isAgent = true)
    (htaken : AgentWorth.step d t.executor a' = some (t'.executor, es'))
    (hguard : OneCallPerId d [] t.executor a') :
    Confined C s₀ t'.executor ∧
      SettleOnceInv C (executorEvents (events (steps ++ [⟨t, a, es'.map .ran, t'⟩])))
        t'.executor ∧
      (∀ intent r, BookedAs C t.executor intent r → BookedAs C t'.executor intent r) ∧
      AgentStep C t.executor t'.executor a' es' := by
  have hconfined := hinv.confined
  refine ⟨hconfined.step hagent htaken, ?_, ?_, ?_⟩
  · rw [events_snoc, executorEvents_append, executorEvents_ran]
    exact settleOnce_step C hinv.once hguard htaken
  · rintro intent r ⟨row, hrow, hbooked⟩
    exact ⟨row, (step_effect C htaken).1.row_of_agent hagent hconfined.calls
      hconfined.refunds hrow, hbooked⟩
  · exact agentStep_of_step hagent htaken hinv.once.synced hinv.once.finishable
      hconfined.calls

/-- A challenged request calls `execute`. -/
theorem ForwardInv.execute (hinv : ForwardInv C s₀ steps t) {i : Nat} {res : ProxyResponse}
    {newId createdAt now : String} {src : Sources} {x : Exchange} {intent : PaymentIntent}
    {es' : List Event} (hslot : t.exchanges[i]? = some x) (hphase : x.phase = .fetching)
    (hnamed : intent.id = newId)
    (htaken : AgentWorth.step d t.executor (.execute now src intent none) =
      some (t'.executor, es'))
    (hexchanges : t'.exchanges = t.exchanges.set i
      { x with intent := some intent, phase := paymentPhase es' })
    (hfresh : FreshOffers d steps t (.upstreamAnswers i res newId createdAt now src)) :
    ForwardInv C s₀ (steps ++ [⟨t, a, es'.map .ran, t'⟩]) t' := by
  obtain ⟨hfree, halone, hunused⟩ := hfresh
  subst hnamed
  obtain ⟨hconfined, honce, hbooks, hstep⟩ := hinv.driven (a := a) rfl htaken ⟨hfree, halone⟩
  obtain ⟨hlt, -⟩ := List.getElem?_eq_some_iff.1 hslot
  have hnew : { x with intent := some intent, phase := paymentPhase es' } ∈ t'.exchanges := by
    rw [hexchanges]
    exact (perm_set hslot).mem_iff.2 List.mem_cons_self
  have hmem : ∀ y ∈ t'.exchanges, y ∈ t.exchanges ∨
      y = { x with intent := some intent, phase := paymentPhase es' } := by
    rw [hexchanges]
    exact fun y hy => List.mem_or_eq_of_mem_set hy
  -- the request had no intent, so no call waits for the one it had
  have hold : ∀ call ∈ t.executor.calls, ∃ y ∈ t'.exchanges, y.intent = some call.intent := by
    intro call hcall
    obtain ⟨y, hy, hintent⟩ := hinv.waiting call hcall
    rcases List.mem_cons.1 ((perm_eraseIdx hslot).mem_iff.1 hy) with rfl | hrest
    · rw [hinv.unpaid y hy hphase] at hintent
      cases hintent
    · refine ⟨y, ?_, hintent⟩
      rw [hexchanges]
      exact (perm_set hslot).mem_iff.2 (List.mem_cons_of_mem _ hrest)
  have hpast : ∀ call ∈ t.executor.calls, ∀ r v, call.stage = .settled (.ok (r, v)) →
      SettledFor (steps ++ [⟨t, a, es'.map .ran, t'⟩]) call.intent r :=
    fun call hcall r v hstage => (hinv.answered call hcall r v hstage).snoc _
  have hcalls : (∀ call ∈ t'.executor.calls, ∃ y ∈ t'.exchanges, y.intent = some call.intent) ∧
      ∀ call ∈ t'.executor.calls, ∀ r v, call.stage = .settled (.ok (r, v)) →
        SettledFor (steps ++ [⟨t, a, es'.map .ran, t'⟩]) call.intent r := by
    cases hstep with
    | declined calls ends =>
        rw [calls]
        exact ⟨hold, hpast⟩
    | started calls =>
        rw [calls]
        refine ⟨?_, ?_⟩
        · intro call hcall
          rcases List.mem_append.1 hcall with hcall | hcall
          · exact hold call hcall
          · rw [List.mem_singleton.1 hcall]
            exact ⟨_, hnew, rfl⟩
        · intro call hcall r v hstage
          rcases List.mem_append.1 hcall with hcall | hcall
          · exact hpast call hcall r v hstage
          · rw [List.mem_singleton.1 hcall] at hstage
            unfold settle at hstage
            split at hstage <;> cases hstage
    | answered slot stage answer => cases answer
  have hphase' : ∀ result, paymentPhase es' = .paid (.ok result) → result.status ≠ .settled := by
    intro result hpaid
    cases hstep with
    | declined calls ends =>
        rcases ends with ⟨r, rfl, hstatus⟩ | ⟨e, rfl⟩
        · cases hpaid
          exact hstatus
        · cases hpaid
    | started calls =>
        unfold Call.invocation at hpaid
        split at hpaid <;> cases hpaid
    | answered slot stage answer => cases answer
  refine ⟨hconfined, honce, ?_, ?_, hcalls.1, hcalls.2, ?_, ?_, ?_⟩
  · rw [hexchanges, List.map_set]
    refine hinv.distinct.set ?_ i
    intro hused
    obtain ⟨y, hy, hid⟩ := List.mem_map.1 hused
    exact hunused y hy hid
  · intro y hy hfetching
    rcases hmem y hy with hy | rfl
    · exact hinv.unpaid y hy hfetching
    · simp only [paymentPhase] at hfetching
      split at hfetching <;> cases hfetching
  · intro y hy
    rcases hmem y hy with hy | rfl
    · exact (hinv.backed y hy).snoc _ hbooks
    · exact Exchange.backed_of_unsettled hphase'
  · rw [events_snoc, provedRequests_append, provedRequests_ran, List.append_nil]
    exact hinv.proofs
  · rw [events_snoc, provedRequests_append, provedRequests_ran, List.append_nil]
    intro j hj
    obtain ⟨y, hy, hspent⟩ := hinv.spent j hj
    have hij : i ≠ j := by
      rintro rfl
      rw [hslot] at hy
      cases hy
      rw [hphase] at hspent
      cases hspent
    exact ⟨y, by rw [hexchanges, List.getElem?_set_ne hij, hy], hspent⟩

/-! ### The end of a payment -/

theorem Exchange.told_intent (ended : Option (String × Except String ExecuteResult))
    (x : Exchange) : (x.told ended).intent = x.intent := by
  unfold Exchange.told
  split
  · split <;> rfl
  · rfl

/-- Either nothing is news to the request, or its payment has ended. -/
theorem Exchange.told_cases (ended : Option (String × Except String ExecuteResult))
    (x : Exchange) :
    x.told ended = x ∨ ∃ id outcome, ended = some (id, outcome) ∧ x.phase = .paying ∧
      x.intentId = some id ∧ x.told ended = { x with phase := .paid outcome } := by
  unfold Exchange.told
  split
  · next id outcome hphase =>
      split
      · next hid =>
          refine Or.inr ⟨id, outcome, rfl, hphase, ?_, rfl⟩
          obtain ⟨intent, hintent, heq⟩ := (Option.any_eq_true _ _).1 hid
          rw [Exchange.intentId, hintent, Option.map_some, eq_of_beq heq]
      · exact Or.inl rfl
  · exact Or.inl rfl

theorem endedCall_finished {s : State σ} {k : Nat} {call : Call} {result : ExecuteResult}
    (hslot : s.calls[k]? = some call) (hentry : call.entry = .execute) :
    endedCall s (.resume k) [.finished call result] = some (call.intent.id, .ok result) := by
  simp [endedCall, Action.slot, hslot, Option.filter, hentry, Event.outcome]

/-- A step of the executor that no request makes. -/
theorem ForwardInv.drive (hinv : ForwardInv C s₀ steps t) {a' : Action} {es' : List Event}
    (hagent : a'.isAgent = true)
    (hbare : ∀ now src intent attestation, a' ≠ .execute now src intent attestation)
    (htaken : AgentWorth.step d t.executor a' = some (t'.executor, es'))
    (hexchanges : t'.exchanges =
      t.exchanges.map (Exchange.told (endedCall t.executor a' es'))) :
    ForwardInv C s₀ (steps ++ [⟨t, a, es'.map .ran, t'⟩]) t' := by
  have hguard : OneCallPerId d [] t.executor a' := by
    cases a' with
    | execute now src intent attestation => exact absurd rfl (hbare now src intent attestation)
    | approve => cases hagent
    | _ => trivial
  obtain ⟨hconfined, honce, hbooks, hstep⟩ := hinv.driven (a := a) hagent htaken hguard
  have hmem : ∀ y ∈ t'.exchanges,
      ∃ x ∈ t.exchanges, x.told (endedCall t.executor a' es') = y := by
    rw [hexchanges]
    exact fun y hy => List.mem_map.1 hy
  have hwaiting : ∀ call ∈ t.executor.calls,
      ∃ y ∈ t'.exchanges, y.intent = some call.intent := by
    intro call hcall
    obtain ⟨x, hx, hintent⟩ := hinv.waiting call hcall
    refine ⟨_, by rw [hexchanges]; exact List.mem_map_of_mem hx, ?_⟩
    rw [Exchange.told_intent, hintent]
  have hpast : ∀ call ∈ t.executor.calls, ∀ r v, call.stage = .settled (.ok (r, v)) →
      SettledFor (steps ++ [⟨t, a, es'.map .ran, t'⟩]) call.intent r :=
    fun call hcall r v hstage => (hinv.answered call hcall r v hstage).snoc _
  have hcalls : (∀ call ∈ t'.executor.calls, ∃ y ∈ t'.exchanges, y.intent = some call.intent) ∧
      ∀ call ∈ t'.executor.calls, ∀ r v, call.stage = .settled (.ok (r, v)) →
        SettledFor (steps ++ [⟨t, a, es'.map .ran, t'⟩]) call.intent r := by
    cases hstep with
    | declined => exact absurd rfl (hbare _ _ _ _)
    | started => exact absurd rfl (hbare _ _ _ _)
    | @answered _ _ k call provider outcome slot stage answer calls =>
        rw [calls]
        refine ⟨?_, ?_⟩
        · intro c hc
          rcases List.mem_or_eq_of_mem_set hc with hc | rfl
          · exact hwaiting c hc
          · exact hwaiting call (mem_of_slot slot)
        · intro c hc r v hstage
          rcases List.mem_or_eq_of_mem_set hc with hc | rfl
          · exact hpast c hc r v hstage
          · cases hstage
            cases answer with
            | @returned receipt verified _ booked =>
                exact ⟨_, List.mem_append_right _ List.mem_cons_self, call, provider, receipt,
                  List.mem_cons_self, rfl, booked r v rfl⟩
    | finished slot stage calls intents =>
        rw [calls]
        exact ⟨fun c hc => hwaiting c (List.mem_of_mem_eraseIdx hc),
          fun c hc => hpast c (List.mem_of_mem_eraseIdx hc)⟩
  -- the payment that ends is that of the request which is told
  have htold : ∀ x ∈ t.exchanges, ∀ id result, x.intentId = some id →
      endedCall t.executor a' es' = some (id, .ok result) → result.status = .settled →
      ∃ intent receipt, x.intent = some intent ∧ result.receipt = some receipt ∧
        SettledFor (steps ++ [⟨t, a, es'.map .ran, t'⟩]) intent receipt ∧
        BookedAs C t'.executor intent receipt := by
    intro x hx id result hid hended hstatus
    cases hstep with
    | declined => exact absurd rfl (hbare _ _ _ _)
    | started => exact absurd rfl (hbare _ _ _ _)
    | answered slot stage answer calls =>
        obtain ⟨call, -, houtcome⟩ := Option.bind_eq_some_iff.1 hended
        cases answer <;> cases houtcome
    | @finished k call outcome slot stage calls intents =>
        have hentry := hinv.confined.calls call (mem_of_slot slot)
        rw [endedCall_finished slot hentry] at hended
        cases hended
        obtain ⟨y, hy, hintent⟩ := hinv.waiting call (mem_of_slot slot)
        have hsame : x = y := hinv.distinct.eq_of_mem hx hy hid (by
          rw [Exchange.intentId, hintent, Option.map_some])
        subst hsame
        cases outcome with
        | error e => cases hstatus
        | ok answer =>
            refine ⟨call.intent, answer.1, hintent, rfl,
              hpast call (mem_of_slot slot) answer.1 answer.2 stage,
              C.saved (executedIntent call (.ok answer)), ?_, ?_, ?_, ?_⟩
            · rw [intents, Table.get_put, if_pos]
              rw [C.saved_id, executedIntent_id]
            · rw [C.saved_intent]
              rfl
            · rw [C.saved_status]
              rfl
            · rw [C.saved_receiptId]
              rfl
  refine ⟨hconfined, honce, ?_, ?_, hcalls.1, hcalls.2, ?_, ?_, ?_⟩
  · have hids : t'.exchanges.map Exchange.intentId = t.exchanges.map Exchange.intentId := by
      rw [hexchanges, List.map_map]
      refine List.map_congr_left fun x _ => ?_
      rw [Function.comp_apply, Exchange.intentId, Exchange.told_intent, Exchange.intentId]
    rw [hids]
    exact hinv.distinct
  · intro y hy hphase
    obtain ⟨x, hx, rfl⟩ := hmem y hy
    rcases x.told_cases (endedCall t.executor a' es') with heq | ⟨id, outcome, -, -, -, heq⟩
    · rw [heq] at hphase ⊢
      exact hinv.unpaid x hx hphase
    · rw [heq] at hphase
      cases hphase
  · intro y hy
    obtain ⟨x, hx, rfl⟩ := hmem y hy
    rcases x.told_cases (endedCall t.executor a' es') with
      heq | ⟨id, outcome, hended, -, hid, heq⟩
    · rw [heq]
      exact (hinv.backed x hx).snoc _ hbooks
    · rw [heq]
      intro result hphase hstatus
      cases hphase
      exact htold x hx id result hid hended hstatus
  · rw [events_snoc, provedRequests_append, provedRequests_ran, List.append_nil]
    exact hinv.proofs
  · rw [events_snoc, provedRequests_append, provedRequests_ran, List.append_nil]
    intro j hj
    obtain ⟨x, hslot, hspent⟩ := hinv.spent j hj
    refine ⟨x, ?_, hspent⟩
    rw [hexchanges, List.getElem?_map, hslot, Option.map_some]
    rcases x.told_cases (endedCall t.executor a' es') with heq | ⟨id, outcome, -, hphase, -⟩
    · rw [heq]
    · rw [hphase] at hspent
      cases hspent

/-- **One step keeps the invariant, and its proof is paid for.** -/
theorem ForwardInv.step (hinv : ForwardInv C s₀ steps t)
    (hguard : FreshOffers d steps t a) (htaken : forwardStep d config t a = some (t', es)) :
    ForwardInv C s₀ (steps ++ [⟨t, a, es, t'⟩]) t' ∧ PaidFor C config steps ⟨t, a, es, t'⟩ := by
  cases forwardStep_effect htaken with
  | arrived executor exchanges =>
      exact ⟨hinv.arrive executor exchanges rfl rfl, paidFor_of_unproved rfl⟩
  | closed slot executor exchanges quiet unproved =>
      exact ⟨hinv.leave slot rfl executor exchanges quiet (Or.inl unproved),
        paidFor_of_unproved unproved⟩
  | @proved i x result proof slot phase status proves executor exchanges =>
      refine ⟨hinv.leave slot rfl executor exchanges rfl (Or.inr ⟨rfl, by rw [phase]; rfl⟩), ?_⟩
      intro j req proof' hmem
      cases List.mem_singleton.1 hmem
      obtain ⟨intent, receipt, hintent, hreceipt, hsettled, hbooked⟩ :=
        hinv.backed x (mem_of_slot slot) result phase status
      exact ⟨x, intent, result, receipt, slot, rfl, hintent, proves, hreceipt, hsettled, hbooked⟩
  | executed slot phase named taken exchanges =>
      exact ⟨hinv.execute slot phase named taken exchanges hguard,
        paidFor_of_unproved (provedRequests_ran _)⟩
  | drove agent bare taken exchanges =>
      exact ⟨hinv.drive agent bare taken exchanges, paidFor_of_unproved (provedRequests_ran _)⟩

end Step

variable (C)

/-- **Every proof of payment is paid for.**  In every run of the proxy, started
idle and under fresh ids, whatever upstreams and rails answer and however the
requests interleave: the mandates, the kill switch and the rows filed before are
as they were, no id settles twice, no request is retried with a proof twice, and
each proof is of a payment of that request which a rail has settled and the
books hold as settled. -/
theorem x402_proof_is_paid_for {t₀ t : X402Forward σ} {steps : List (ForwardStep σ)}
    (hrun : (x402Forward d config).Run (FreshOffers d) t₀ steps t)
    (hidle : t₀.exchanges = []) (hcalls : t₀.executor.calls = [])
    (hrefunds : t₀.executor.refunds = []) (hsync : Synced C t₀.executor.world) :
    Confined C t₀.executor t.executor ∧
      (settledIds (executorEvents (events steps))).Nodup ∧
      (provedRequests (events steps)).Nodup ∧ Throughout (PaidFor C config) steps := by
  have hstart : ForwardInv C t₀.executor [] t₀ :=
    { confined := .start C (by simp [hcalls]) hrefunds
      once := settleOnce_start C hcalls hsync
      distinct := by simp [hidle, DistinctKeys]
      unpaid := by simp [hidle]
      waiting := by simp [hcalls]
      answered := by simp [hcalls]
      backed := by simp [hidle]
      proofs := List.nodup_nil
      spent := fun i hi => absurd hi List.not_mem_nil }
  obtain ⟨hinv, hpaid⟩ := hrun.throughout (ForwardInv C t₀.executor) (PaidFor C config) hstart
    fun steps t a t' es hinv hguard htaken => hinv.step hguard htaken
  exact ⟨hinv.confined, hinv.once.once, hinv.proofs, hpaid⟩

namespace Sample

def forwardConfig : ProxyConfig where
  rail := none
  currencyOf := none
  payeeClassOf := none
  networks := none
  buildProof := none

/-- The body of a 402 that asks for 40 to be paid to the weather service. -/
def challengeBody : String :=
  "\x7b\"accepts\":[\x7b\"scheme\":\"exact\",\"network\":\"base\",\"asset\":\"0xUSDC\"," ++
    "\"payTo\":\"weather\",\"maxAmountRequired\":\"40\"\x7d]\x7d"

/-- A request that pays and one that its upstream serves at once, side by side. -/
def forwardActions : List ForwardAction :=
  [.forward ⟨"GET", "/forecast", [], none⟩, .forward ⟨"GET", "/free", [], none⟩,
    .upstreamAnswers 0 ⟨402, [], challengeBody⟩ "p" noon noon {},
    .upstreamAnswers 1 ⟨200, [], "sunny"⟩ "q" noon noon {},
    .railReturns 0 (receipt "p" 40) (.ok true), .resume 0, .respond 0,
    .upstreamAnswers 0 ⟨200, [], "rain"⟩ "r" noon noon {}]

end Sample

theorem x402_proof_is_paid_for_forecast : ∃ steps t,
    (x402Forward Sample.x402Deps Sample.forwardConfig).Run (FreshOffers Sample.x402Deps)
      ⟨Sample.x402Start, []⟩ steps t ∧
    provedRequests (events steps) = [0] ∧
    Confined (d := Sample.x402Deps) memoryContract Sample.x402Start t.executor ∧
    (settledIds (executorEvents (events steps))).Nodup ∧
    (provedRequests (events steps)).Nodup ∧
    Throughout (PaidFor (d := Sample.x402Deps) memoryContract Sample.forwardConfig) steps := by
  obtain ⟨steps, t, hrun, hproved⟩ := System.exists_run
    (x402Forward Sample.x402Deps Sample.forwardConfig) (FreshOffers Sample.x402Deps)
    ⟨Sample.x402Start, []⟩ Sample.forwardActions
    (fun steps _ => provedRequests (events steps) == [0]) (by decide +kernel)
  exact ⟨steps, t, hrun, eq_of_beq hproved, x402_proof_is_paid_for (d := Sample.x402Deps)
    memoryContract hrun rfl rfl rfl
    (synced_deploy (d := Sample.x402Deps) memoryContract "key" rfl)⟩

end AgentWorth
