import AgentWorth.Rails.Railed

/-!
# The progress of a payment over a network rail

The orders of a dialogue that keeps the conduct of a payment; what a run has
asked and heard for an intent; and how far its payment has come.  A step of the
executor suspends a call, lets one go on at its slot, or ends one; the payments
of the other intents stay where they are.
-/

namespace AgentWorth

open AgentWorth.Js AgentWorth.Lib

variable {σ : Type} {d : ExecutorDeps σ} {R : RailSet} (C : Contract d.store)

/-! ## Orders of a dialogue -/

/-- The orders among some replies. -/
def orders (replies : List RailReply) : List RailQuestion :=
  (replies.map Sigma.fst).filter RailQuestion.isOrder

theorem orders_snoc (replies : List RailReply) (r : RailReply) :
    orders (replies ++ [r]) = orders replies ++ [r.1].filter RailQuestion.isOrder := by
  simp [orders]

/-- The orders behind each phase of a payment. -/
inductive OrdersSo (places : RailQuestion → Prop) (replies : List RailReply) :
    PaymentPhase → Prop
  | fresh (none : orders replies = []) : OrdersSo places replies .fresh
  | signed {requirement : PaymentRequirements} {paymentHeader : String}
      (none : orders replies = []) : OrdersSo places replies (.signed requirement paymentHeader)
  | ordered {order : RailQuestion} {answer : Except String order.Answer}
      (one : orders replies = [order]) (placed : places order)
      (replied : ⟨order, answer⟩ ∈ replies) : OrdersSo places replies (.ordered order answer)

section

variable {intent : PaymentIntent} {places : RailQuestion → Prop} {replies : List RailReply}
  {p : PaymentPhase} {q : RailQuestion}

/-- An order that is in order is one that may be placed, and the first. -/
theorem OrdersSo.first (h : OrdersSo places replies p) (hmay : (payment intent places).may p q)
    (horder : q.isOrder = true) : orders replies = [] ∧ places q := by
  cases h with
  | fresh none =>
      refine ⟨none, ?_⟩
      cases q with
      | quote | authorize => cases horder
      | settle => exact absurd hmay id
      | writeContract | createCard | present => exact hmay
  | signed none => exact ⟨none, hmay.2⟩
  | ordered one placed replied => exact absurd hmay id

/-- Where an order leads. -/
theorem after_order (hmay : (payment intent places).may p q) (horder : q.isOrder = true)
    (answer : Except String q.Answer) :
    (payment intent places).after p q answer = .ordered q answer := by
  cases q with
  | quote | authorize => cases horder
  | settle | writeContract | createCard | present =>
      cases p with
      | fresh | signed => rfl
      | ordered => exact absurd hmay id

/-- An answer that is not to an order places none. -/
theorem OrdersSo.other {answer : Except String q.Answer} (h : OrdersSo places replies p)
    (hmay : (payment intent places).may p q) (horder : q.isOrder = false) :
    OrdersSo places (replies ++ [⟨q, answer⟩]) ((payment intent places).after p q answer) := by
  have hsame : orders (replies ++ [⟨q, answer⟩]) = orders replies := by
    rw [orders_snoc, List.filter_cons_of_neg (by simp [horder]), List.filter_nil,
      List.append_nil]
  cases h with
  | ordered one placed replied => exact absurd hmay id
  | signed none =>
      obtain ⟨rfl, -⟩ := hmay
      cases horder
  | fresh none =>
      rw [← hsame] at none
      cases q with
      | settle | writeContract | createCard | present => cases horder
      | quote => exact .fresh none
      | authorize =>
          cases answer with
          | ok paymentHeader => exact .signed none
          | error e => exact .fresh none

/-- **One order at most.**  The orders of a lawful dialogue, by the phase it has
come to. -/
theorem orders_of_lawful (h : (payment intent places).Lawful .fresh replies) :
    OrdersSo places replies ((payment intent places).phase .fresh replies) := by
  induction replies using List.reverseRecOn with
  | nil => exact .fresh rfl
  | append_singleton replies r ih =>
      obtain ⟨hlawful, hmay⟩ := ((payment intent places).lawful_snoc).1 h
      have hso := ih hlawful
      rw [Conduct.phase_snoc]
      cases horder : r.1.isOrder with
      | false => exact hso.other hmay horder
      | true =>
          obtain ⟨hnone, hplaced⟩ := hso.first hmay horder
          rw [after_order hmay horder]
          refine .ordered ?_ hplaced (List.mem_append_right _ (List.mem_singleton_self _))
          rw [orders_snoc, hnone, List.filter_cons_of_pos horder]
          rfl

end

/-! ## What a run has asked for an intent -/

namespace Railed

/-- The events of the executor. -/
def coreEvents (es : List RailedEvent) : List Event :=
  es.filterMap fun e =>
    match e with
    | .executor e => some e
    | _ => none

/-- The questions asked for an intent, each with the call it was asked for. -/
def askedFor (id : String) (es : List RailedEvent) : List (Call × RailQuestion) :=
  es.filterMap fun e =>
    match e with
    | .asked call q => if call.intent.id = id then some (call, q) else none
    | _ => none

/-- The replies heard for an intent. -/
def heardFor (id : String) (es : List RailedEvent) : List (Call × RailReply) :=
  es.filterMap fun e =>
    match e with
    | .heard call reply => if call.intent.id = id then some (call, reply) else none
    | _ => none

/-- The orders placed for an intent. -/
def ordersFor (id : String) (es : List RailedEvent) : List (Call × RailQuestion) :=
  (askedFor id es).filter fun x => x.2.isOrder

@[simp] theorem coreEvents_append (es es' : List RailedEvent) :
    coreEvents (es ++ es') = coreEvents es ++ coreEvents es' := List.filterMap_append

@[simp] theorem askedFor_append (id : String) (es es' : List RailedEvent) :
    askedFor id (es ++ es') = askedFor id es ++ askedFor id es' := List.filterMap_append

@[simp] theorem heardFor_append (id : String) (es es' : List RailedEvent) :
    heardFor id (es ++ es') = heardFor id es ++ heardFor id es' := List.filterMap_append

@[simp] theorem coreEvents_map (es : List Event) :
    coreEvents (es.map .executor) = es := by
  rw [coreEvents, List.filterMap_map]
  exact List.filterMap_some

@[simp] theorem askedFor_map (id : String) (es : List Event) :
    askedFor id (es.map .executor) = [] := by
  simp [askedFor]

@[simp] theorem heardFor_map (id : String) (es : List Event) :
    heardFor id (es.map .executor) = [] := by
  simp [heardFor]

@[simp] theorem coreEvents_asks (call : Call) (talk : Option (RailDialogue Receipt)) :
    coreEvents (asks call talk) = [] := by
  unfold asks
  cases talk.bind Dialogue.pending <;> rfl

@[simp] theorem heardFor_asks (id : String) (call : Call)
    (talk : Option (RailDialogue Receipt)) : heardFor id (asks call talk) = [] := by
  unfold asks
  cases talk.bind Dialogue.pending <;> rfl

theorem askedFor_asks_self (call : Call) (talk : Option (RailDialogue Receipt)) :
    askedFor call.intent.id (asks call talk) =
      (talk.bind Dialogue.pending).toList.map (Prod.mk call) := by
  unfold asks
  cases talk.bind Dialogue.pending with
  | none => rfl
  | some q => simp [askedFor]

theorem askedFor_asks_other {id : String} {call : Call} (h : call.intent.id ≠ id)
    (talk : Option (RailDialogue Receipt)) : askedFor id (asks call talk) = [] := by
  unfold asks
  cases talk.bind Dialogue.pending with
  | none => rfl
  | some q => simp [askedFor, h]

end Railed

/-- The gate let the call through: `execute` on its own, `approve` unless it
blocked. -/
def Call.Cleared (call : Call) : Prop :=
  match call.entry with
  | .execute => call.decision.outcome = .autoExecute
  | .approve => call.decision.outcome ≠ .block

namespace Railed

/-! ## How far the payment of an intent has come -/

/-- What has passed in the dialogue about the payment of a call: its questions
were lawful, and all but the pending one were answered. -/
structure Told (R : RailSet) (spec : NetworkRailSpec) (call : Call) (replies : List RailReply)
    (pending : Option RailQuestion) (past : List RailedEvent) : Prop where
  mem : spec ∈ R.specs
  invoked : .railInvoked call (createNetworkRail spec) ∈ coreEvents past
  cleared : call.Cleared
  lawful : (payment call.intent (spec.Places call.intent)).Lawful .fresh replies
  heard : heardFor call.intent.id past = replies.map (Prod.mk call)
  asked : askedFor call.intent.id past =
    (replies.map Sigma.fst ++ pending.toList).map (Prod.mk call)

/-- The phase the payment has come to. -/
def phaseOf (spec : NetworkRailSpec) (call : Call) (replies : List RailReply) : PaymentPhase :=
  (payment call.intent (spec.Places call.intent)).phase .fresh replies

/-- No call of the id waits for its rail. -/
def Away (t : Railed σ) (id : String) : Prop :=
  ∀ call ∈ t.executor.calls, call.intent.id = id → call.isAnswered = true

/-- The settlements of an id are those of one call, with the receipt its order
went through for. -/
def SettledAs (spec : NetworkRailSpec) (call : Call) (replies : List RailReply)
    (past : List RailedEvent) : Prop :=
  ∀ c p r, .railSettled c p r ∈ coreEvents past → c.intent.id = call.intent.id →
    c = call ∧ p = createNetworkRail spec ∧
      spec.Receipts call.intent call.now (phaseOf spec call replies) r

/-- The payment of an id: not begun, under way at a rail, or ended. -/
inductive Progress (R : RailSet) (t : Railed σ) (past : List RailedEvent) (id : String) : Prop
  | unbegun (unsettled : id ∉ settledIds (coreEvents past)) (asked : askedFor id past = [])
      (heard : heardFor id past = []) (away : t.Away id) : Progress R t past id
  | talking {k : Nat} {call : Call} {spec : NetworkRailSpec} {talk : RailDialogue Receipt}
      {replies : List RailReply} (named : call.intent.id = id)
      (unsettled : id ∉ settledIds (coreEvents past))
      (waiting : atRail t.executor k = some (call, createNetworkRail spec))
      (talks : t.talk k = some talk) (told : Told R spec call replies talk.pending past)
      (keeps : talk.Keeps (payment call.intent (spec.Places call.intent))
        (spec.Receipts call.intent call.now) (phaseOf spec call replies)) :
      Progress R t past id
  | ended {call : Call} {spec : NetworkRailSpec} {replies : List RailReply}
      (named : call.intent.id = id) (told : Told R spec call replies none past)
      (settled : SettledAs spec call replies past) (away : t.Away id) : Progress R t past id

/-- The invariant of runs under `RailedOnce`. -/
structure RailedInv (R : RailSet) (past : List RailedEvent) (t : Railed σ) : Prop where
  once : AskOnceInv C (coreEvents past) t.executor
  aligned : t.talks.length = t.executor.calls.length
  progress : ∀ id, Progress R t past id

section

variable {t t' : Railed σ} {past es : List RailedEvent} {id : String}

/-- More events that are not about the intent leave what was told. -/
theorem Told.more {spec : NetworkRailSpec} {call : Call} {replies : List RailReply}
    {pending : Option RailQuestion} (h : Told R spec call replies pending past)
    (hasked : askedFor call.intent.id es = []) (hheard : heardFor call.intent.id es = []) :
    Told R spec call replies pending (past ++ es) where
  mem := h.mem
  invoked := by
    rw [coreEvents_append]
    exact List.mem_append_left _ h.invoked
  cleared := h.cleared
  lawful := h.lawful
  heard := by rw [heardFor_append, hheard, List.append_nil, h.heard]
  asked := by rw [askedFor_append, hasked, List.append_nil, h.asked]

theorem mem_settledIds {es : List Event} {call : Call} {p : PaymentProvider} {r : Receipt}
    (h : .railSettled call p r ∈ es) : call.intent.id ∈ settledIds es :=
  List.mem_filterMap.2 ⟨_, h, rfl⟩

theorem exists_of_mem_settledIds {es : List Event} (h : id ∈ settledIds es) :
    ∃ call p r, .railSettled call p r ∈ es ∧ call.intent.id = id := by
  obtain ⟨e, he, heq⟩ := List.mem_filterMap.1 h
  cases e with
  | railSettled call p r => exact ⟨call, p, r, he, Option.some.inj heq⟩
  | _ => cases heq

theorem not_mem_settled_append (hpast : id ∉ settledIds (coreEvents past))
    (hes : id ∉ settledIds (coreEvents es)) : id ∉ settledIds (coreEvents (past ++ es)) := by
  rw [coreEvents_append, settledIds_append]
  intro h
  rcases List.mem_append.1 h with h | h
  · exact hpast h
  · exact hes h

/-- The calls of an id that wait for their rail are where they were, with the
dialogues they had. -/
structure Stays (t t' : Railed σ) (id : String) : Prop where
  stay : ∀ k call provider, atRail t.executor k = some (call, provider) → call.intent.id = id →
    ∃ j, atRail t'.executor j = some (call, provider) ∧ t'.talk j = t.talk k
  away : ∀ call ∈ t'.executor.calls, call.intent.id = id → call.isAnswered = false →
    call ∈ t.executor.calls

theorem Stays.keepsAway (h : Stays t t' id) (haway : t.Away id) : t'.Away id := by
  intro call hcall hid
  by_contra hnot
  rw [Bool.not_eq_true] at hnot
  have hanswered := haway call (h.away call hcall hid hnot) hid
  rw [hnot] at hanswered
  cases hanswered

/-- **A step that is not about an intent leaves its payment where it is.** -/
theorem Progress.carry (h : Progress R t past id) (hstays : Stays t t' id)
    (hasked : askedFor id es = []) (hheard : heardFor id es = [])
    (hsettled : id ∉ settledIds (coreEvents es)) : Progress R t' (past ++ es) id := by
  cases h with
  | unbegun unsettled asked heard away =>
      refine .unbegun (not_mem_settled_append unsettled hsettled) ?_ ?_ (hstays.keepsAway away)
      · rw [askedFor_append, asked, hasked, List.append_nil]
      · rw [heardFor_append, heard, hheard, List.append_nil]
  | talking named unsettled waiting talks told keeps =>
      subst named
      obtain ⟨j, hj, htalk⟩ := hstays.stay _ _ _ waiting rfl
      exact .talking rfl (not_mem_settled_append unsettled hsettled) hj (htalk.trans talks)
        (told.more hasked hheard) keeps
  | ended named told settled away =>
      subst named
      refine .ended rfl (told.more hasked hheard) ?_ (hstays.keepsAway away)
      intro c p r hmem hid
      rw [coreEvents_append] at hmem
      rcases List.mem_append.1 hmem with hmem | hmem
      · exact settled c p r hmem hid
      · exact absurd (hid ▸ mem_settledIds hmem) hsettled

end

end Railed

/-! ## Steps of the executor, by what they do to the suspended calls -/

/-- What a step of an executor in step with its chain does to the calls it has
suspended. -/
inductive SlotChange (d : ExecutorDeps σ) (s : State σ) :
    Action → List Event → List Call → Prop
  | same {a : Action} {es : List Event} (unasked : railIds es = [])
      (unsettled : settledIds es = []) : SlotChange d s a es s.calls
  | started {a : Action} {call : Call} (cleared : call.Cleared)
      (routed : ∀ provider, call.stage = .rail provider →
        d.rails.get call.intent.rail = some provider) :
      SlotChange d s a call.invocation (s.calls ++ [call])
  | returned {k : Nat} {receipt : Receipt} {verified : Except String Bool} {call : Call}
      {provider : PaymentProvider} {outcome : Except String (Receipt × Bool)}
      (waiting : atRail s k = some (call, provider)) :
      SlotChange d s (.railReturns k receipt verified) [.railSettled call provider receipt]
        (s.calls.set k { call with stage := .settled outcome })
  | threw {k : Nat} {error : String} {call : Call} {provider : PaymentProvider}
      {outcome : Except String (Receipt × Bool)}
      (waiting : atRail s k = some (call, provider)) :
      SlotChange d s (.railThrows k error) [.railFailed call error]
        (s.calls.set k { call with stage := .settled outcome })
  | resumed {k : Nat} {es : List Event} {call : Call}
      {outcome : Except String (Receipt × Bool)}
      (waiting : atResume s k = some (call, outcome)) (unasked : railIds es = [])
      (unsettled : settledIds es = []) :
      SlotChange d s (.resume k) es (s.calls.eraseIdx k)

theorem settle_routed {entry : Entry} {intentId now : String} {intent : PaymentIntent}
    {decision : GateDecision} {provider : PaymentProvider}
    (h : (settle d entry intentId intent now decision).stage = .rail provider) :
    d.rails.get intent.rail = some provider := by
  unfold settle at h
  cases hget : d.rails.get intent.rail with
  | none => simp [hget] at h
  | some p =>
      simp only [hget, Stage.rail.injEq] at h
      rw [h]

theorem Effect.slot_change {s s' : State σ} {a : Action} {es : List Event}
    (heffect : Effect C s a s' es) (hsync : Synced C s.world) :
    SlotChange d s a es s'.calls := by
  have hsame : s'.calls = s.calls → railIds es = [] → settledIds es = [] →
      SlotChange d s a es s'.calls := by
    intro hcalls hunasked hunsettled
    rw [hcalls]
    exact .same hunasked hunsettled
  cases heffect with
  | quiet same calls refunds quiet =>
      exact hsame calls (railIds_quiet quiet) (settledIds_quiet quiet)
  | filed intent_eq status unrefunded fresh mandates intents receipts calls refunds quiet =>
      exact hsame calls (railIds_quiet quiet) (settledIds_quiet quiet)
  | refused present pending mandates intents receipts calls refunds quiet =>
      exact hsame calls (railIds_quiet quiet) (settledIds_quiet quiet)
  | executeStarted runs decides automatic recorded calls refunds =>
      rw [calls]
      exact .started automatic fun provider => settle_routed
  | approveStarted runs present pending decides passes unchallenged recorded calls refunds =>
      rw [calls]
      exact .started passes fun provider => settle_routed
  | answered waiting mandates intents receipts booked calls refunds =>
      rw [calls]
      exact .returned waiting
  | railFailed waiting same calls refunds =>
      rw [calls]
      exact .threw waiting
  | answerLost waiting outOfStep mandates intents receipts calls refunds =>
      exact absurd hsync outOfStep
  | railFailureLost waiting outOfStep same calls refunds => exact absurd hsync outOfStep
  | executeFinished waiting entry fresh mandates intents receipts calls refunds =>
      rw [calls]
      exact .resumed waiting rfl rfl
  | approveFinished waiting entry present mandates intents receipts calls refunds =>
      rw [calls]
      exact .resumed waiting rfl rfl
  | finishRefused waiting refusal same calls refunds =>
      rw [calls]
      exact .resumed waiting rfl rfl
  | refundStarted starts same calls refunds => exact hsame calls rfl rfl
  | refunded waiting present mandates intents receipts calls refunds quiet =>
      exact hsame calls (railIds_refundSettled quiet) (settledIds_refundSettled quiet)
  | refundRefused waiting refusal same calls refunds => exact hsame calls rfl rfl
  | refundFailed waiting same calls refunds => exact hsame calls rfl rfl
  | mandateChanged change intents receipts calls refunds quiet =>
      exact hsame calls (railIds_quiet quiet) (settledIds_quiet quiet)

end AgentWorth
