import AgentWorth.Executor.Attribution
import AgentWorth.Executor.Smurfing
import AgentWorth.Lib.Numeral

/-!
# The circuit breaker

The count of consecutive blocks and failures is text in the store's meta table,
rewritten after the row of the payment is filed.  A store that refuses the row
keeps the count from advancing, so a blocked or failed payment counts when its id
is still free.
-/

namespace AgentWorth

open AgentWorth.Js AgentWorth.Lib

variable {σ : Type} {d : ExecutorDeps σ} (C : Contract d.store)

/-! ## What counts -/

/-- A recorded decision of the agent phase that blocks. -/
def isAgentBlock (e : AuditEntry) : Bool :=
  e.type == .gateDecision && (e.payload.get "phase").strictEq (.str "agent") &&
    (e.payload.get "outcome").strictEq (.str GateOutcome.block.text)

/-- Blocked or failed `execute` calls since the last settlement or reset. -/
def badStep (n : Nat) (t : Step (State σ) Action Event) : Nat :=
  match t.action with
  | .execute .. => if (appended t).any isAgentBlock then n + 1 else n
  | .resume k =>
      match atResume t.before k with
      | some (_, .ok _) => 0
      | some (call, .error _) => if call.entry = .execute then n + 1 else n
      | none => n
  | .resetCircuitBreaker => 0
  | _ => n

def badStreak (steps : List (Step (State σ) Action Event)) : Nat := steps.foldl badStep 0

@[simp] theorem badStreak_snoc (steps : List (Step (State σ) Action Event))
    (t : Step (State σ) Action Event) :
    badStreak (steps ++ [t]) = badStep (badStreak steps) t := by
  simp [badStreak]

/-- The gate blocks the payment. -/
def gateBlocks (d : ExecutorDeps σ) (src : Sources) (store : σ) (now : String)
    (intent : PaymentIntent) (attestation : Option Attestation) : Bool :=
  match evaluateGate intent (context d src store now intent attestation) with
  | .ok decision => decision.outcome == .block
  | .error _ => false

/-- Nothing is stored under the id of the payment, whose amount is a number. -/
def freeRow (d : ExecutorDeps σ) (store : σ) (intent : PaymentIntent) : Bool :=
  (d.store.getIntent store intent.id).isNone && intent.amount != .nan

/-- An `execute` call that blocks or fails has a free id to be filed under. -/
def Countable (d : ExecutorDeps σ) : Guard (State σ) Action Event := fun _ s a =>
  match a with
  | .execute now src intent attestation =>
      gateBlocks d src s.world.store now intent attestation = true →
        freeRow d s.world.store intent = true
  | .resume k =>
      match atResume s k with
      | some (call, .error _) =>
          call.entry = .execute → freeRow d s.world.store call.intent = true
      | _ => True
  | _ => True

instance (steps : List (Step (State σ) Action Event)) (s : State σ) (a : Action) :
    Decidable (Countable d steps s a) :=
  match a with
  | .execute .. => inferInstanceAs (Decidable (_ → _))
  | .resume k => by
      unfold Countable
      dsimp only
      split <;> infer_instance
  | .approve .. | .railReturns .. | .railThrows .. | .refund .. | .refundReturns ..
  | .refundThrows .. | .grantMandate .. | .revokeMandate .. | .amendMandate ..
  | .extendMandate .. | .engageKillSwitch | .disengageKillSwitch | .resetCircuitBreaker =>
      inferInstanceAs (Decidable True)

/-! ## Writes that leave the counter alone -/

/-- The counter's text is as it was. -/
def SameCounter (d : ExecutorDeps σ) (w w' : World σ) : Prop :=
  d.store.getMeta w'.store failKey = d.store.getMeta w.store failKey

theorem SameCounter.trans {a b c : World σ} (h : SameCounter d a b) (h' : SameCounter d b c) :
    SameCounter d a c := Eq.trans h' h

theorem SameCounter.failures {w w' : World σ} (h : SameCounter d w w') :
    failures d w'.store = failures d w.store := by
  unfold AgentWorth.failures
  rw [h]

include C in
theorem sameCounter_of_meta {w : World σ} {store : σ}
    (h : (C.books store).meta' = (C.books w.store).meta') :
    SameCounter d w { w with store := store } := by
  unfold SameCounter
  rw [C.getMeta, C.getMeta, h]

include C in
theorem insertIntent_sameCounter {w : World σ} {x : StoredIntent} {store : σ}
    (h : d.store.insertIntent w.store x = .ok store) :
    SameCounter d w { w with store := store } := by
  obtain ⟨-, hbooks⟩ := C.insertIntent_spec h
  exact sameCounter_of_meta C (by rw [hbooks])

include C in
theorem updateIntent_sameCounter {w : World σ} {id : String} {u : IntentUpdate} {store : σ}
    (h : d.store.updateIntent w.store id u = .ok store) :
    SameCounter d w { w with store := store } := by
  obtain ⟨x, -, hbooks⟩ := C.updateIntent_spec h
  exact sameCounter_of_meta C (by rw [hbooks])

include C in
theorem moves_record_sameCounter (type : AuditEventType) (payload : JsValue) (ts : String) :
    Moves (SameCounter d) (record d type payload ts) := by
  intro w
  unfold record
  split
  · rfl
  · next entry log happend =>
      split
      · rfl
      · next store hstore =>
          obtain ⟨rows, -, hbooks⟩ := C.appendAudit hstore
          have hsame : SameCounter d w { w with store := store } :=
            sameCounter_of_meta C (by rw [hbooks])
          exact hsame

include C in
theorem record_sameCounter {type : AuditEventType} {payload : JsValue} {ts : String}
    {w : World σ} {r : EStateM.Result String (World σ) Unit}
    (h : record d type payload ts w = r) : SameCounter d w (stateAfter r) := by
  rw [← h]
  exact moves_record_sameCounter C type payload ts w

theorem moves_write_sameCounter {f : σ → Except String σ}
    (hf : ∀ {w : World σ} {store : σ}, f w.store = .ok store →
      SameCounter d w { w with store := store }) : Moves (SameCounter d) (write f) := by
  intro w
  unfold write
  split
  · next store hstore => exact hf hstore
  · rfl

theorem moves_eval_sameCounter {α : Type} (x : Except String α) :
    Moves (SameCounter d) (eval x : Exec σ α) := by
  intro w
  unfold eval
  split <;> rfl

/-! ## Writes that advance it or clear it -/

include C in
theorem failures_setMeta (store : σ) (v : String) :
    failures d (d.store.setMeta store failKey v) = number v := by
  unfold failures
  rw [C.getMeta, C.setMeta, Books.setMeta, JsMap.get_set_self, Option.getD_some]

/-- The count once an outcome is counted. -/
def OutcomeKind.countAfter (n : Nat) : OutcomeKind → Nat
  | .ok => 0
  | .bad => n + 1

include C in
theorem failures_recordOutcome {kind : OutcomeKind} {w w' : World σ} {n : Nat}
    (hn : failures d w.store = n) (h : recordOutcome d kind w = .ok () w') :
    failures d w'.store = kind.countAfter n := by
  cases h
  cases kind with
  | ok =>
      rw [failures_setMeta C]
      show number "0" = ((0 : Nat) : JsNumber)
      decide +kernel
  | bad =>
      have hsucc : failures d w.store + 1 = ((n + 1 : Nat) : JsNumber) := by
        rw [hn]
        show JsNumber.fin ((n : ℚ) + 1) = JsNumber.fin ((n + 1 : Nat) : ℚ)
        rw [Nat.cast_succ]
      rw [failures_setMeta C]
      dsimp only
      rw [hsucc]
      exact number_natCast (n + 1)

/-! ## One step -/

/-- The counter is a number of calls, and at least those that count. -/
def Counts (d : ExecutorDeps σ) (m : Nat) (store : σ) : Prop :=
  ∃ n : Nat, failures d store = n ∧ m ≤ n

theorem Counts.same {m : Nat} {w w' : World σ} (h : Counts d m w.store)
    (hsame : SameCounter d w w') : Counts d m w'.store := by
  obtain ⟨n, hn, hle⟩ := h
  exact ⟨n, hsame.failures.trans hn, hle⟩

theorem Counts.mono {m m' : Nat} {store : σ} (h : Counts d m store) (hle : m' ≤ m) :
    Counts d m' store := by
  obtain ⟨n, hn, hm⟩ := h
  exact ⟨n, hn, hle.trans hm⟩

include C in
theorem Counts.bad {m : Nat} {w w' : World σ} (h : Counts d m w.store)
    (hcounted : recordOutcome d .bad w = .ok () w') : Counts d (m + 1) w'.store := by
  obtain ⟨n, hn, hle⟩ := h
  exact ⟨n + 1, failures_recordOutcome C hn hcounted, Nat.succ_le_succ hle⟩

include C in
theorem Counts.cleared {m : Nat} {w w' : World σ} (h : Counts d m w.store)
    (hcounted : recordOutcome d .ok w = .ok () w') : Counts d 0 w'.store := by
  obtain ⟨n, hn, -⟩ := h
  exact ⟨0, failures_recordOutcome C hn hcounted, Nat.le_refl 0⟩

/-- A recorded entry other than a blocking decision. -/
theorem appended_harmless {t : Step (State σ) Action Event} {type : AuditEventType}
    {payload : JsValue} {ts : String} {w' : World σ}
    (hrecorded : Recorded C type payload ts t.before.world w')
    (hworld : t.after.world.audit = w'.audit)
    (hharmless : type ≠ .gateDecision ∨
      ∃ outcome, (stamped d t.before.world.store type payload).get "outcome" =
        outcomeCodec.encode outcome ∧ outcome ≠ .block) :
    (appended t).any isAgentBlock = false := by
  obtain ⟨entry, hentries, htype, hpayload, -⟩ := hrecorded.entries
  have happended : appended t = [entry] := by
    unfold appended
    rw [hworld, hentries, List.drop_left]
  rw [happended, List.any_cons, List.any_nil, Bool.or_false, ← Bool.not_eq_true]
  intro hblock
  simp only [isAgentBlock, Bool.and_eq_true, beq_iff_eq, JsValue.strictEq_str] at hblock
  obtain ⟨⟨hdecision, -⟩, houtcome⟩ := hblock
  rcases hharmless with hother | ⟨outcome, hget, hpasses⟩
  · exact hother (htype.symm.trans hdecision)
  · rw [hpayload, hget, encode_outcome_eq_iff] at houtcome
    exact hpasses houtcome

/-- The gate's own block is what the agent's decision says. -/
theorem gateBlocks_of_decision {src : Sources} {w : World σ} {now : String}
    {intent : PaymentIntent} {attestation : Option Attestation} {decision : GateDecision}
    (hdecides : agentDecision d src w now intent attestation = .ok decision)
    (hblock : decision.outcome = .block) :
    gateBlocks d src w.store now intent attestation = true := by
  obtain ⟨gated, hgate, hescalated⟩ := except_map_eq_ok.1 hdecides
  have houtcome := congrArg Verdict.outcome
    (escalate_verdict (chainAlert d w now intent gated) gated)
  rw [hescalated] at houtcome
  have hdecision : decision.outcome =
      if (chainAlert d w now intent gated).triggered = true ∧ gated.outcome = .autoExecute then
        .confirmOperator else gated.outcome := houtcome
  unfold gateBlocks
  rw [hgate, beq_iff_eq]
  rw [hblock] at hdecision
  split at hdecision
  · cases hdecision
  · exact hdecision.symm

theorem execute_counts {s s' : State σ} {es : List Event} {now : String} {src : Sources}
    {intent : PaymentIntent} {attestation : Option Attestation} {m : Nat}
    {steps : List (Step (State σ) Action Event)} (hsync : Synced C s.world)
    (hguard : Countable d steps s (.execute now src intent attestation))
    (htaken : step d s (.execute now src intent attestation) = some (s', es))
    (hcounts : Counts d m s.world.store) :
    Counts d (badStep m ⟨s, .execute now src intent attestation, es, s'⟩) s'.world.store := by
  have heq : s.started (execute d src now intent attestation s.world) = (s', es) :=
    Option.some.inj htaken
  have hworld := started_world s (execute d src now intent attestation s.world)
  rw [heq] at hworld
  have hworld' : s'.world = stateAfter (execute d src now intent attestation s.world) := hworld
  -- a step that records nothing, or no blocking decision, need not advance the count
  have hquiet : (appended (⟨s, .execute now src intent attestation, es, s'⟩ :
      Step (State σ) Action Event)).any isAgentBlock = false → SameCounter d s.world s'.world →
      Counts d (badStep m ⟨s, .execute now src intent attestation, es, s'⟩) s'.world.store := by
    intro hnone hsame
    simp only [badStep, hnone, Bool.false_eq_true, if_false]
    exact hcounts.same hsame
  have hunchanged : s'.world = s.world →
      Counts d (badStep m ⟨s, .execute now src intent attestation, es, s'⟩) s'.world.store := by
    intro hsame
    refine hquiet ?_ (by rw [hsame]; rfl)
    simp [appended, hsame]
  have hfails : ∀ {type : AuditEventType} {members : List (String × JsValue)} {e : String}
      {w' : World σ}, record d type (.obj members) now s.world = .error e w' → False :=
    fun herror => (record_error C rfl herror).2.1 hsync
  have hrun := execute_run d src now intent attestation s.world
  generalize execute d src now intent attestation s.world = r at hrun hworld'
  cases hrun with
  | haltUnrecorded halts recorded => exact (hfails recorded).elim
  | unrecorded runs decides captures recorded => exact (hfails recorded).elim
  | haltUnfiled halts recorded filed =>
      have hkept := record_sameCounter C recorded
      refine hquiet (appended_harmless C (record_ok C recorded) (by rw [hworld']; rfl)
        (Or.inl (by simp))) ?_
      rw [hworld']
      exact hkept
  | halted halts recorded filed =>
      have hkept := (record_sameCounter C recorded).trans (insertIntent_sameCounter C filed)
      refine hquiet (appended_harmless C (record_ok C recorded) (by rw [hworld']; rfl)
        (Or.inl (by simp))) ?_
      rw [hworld']
      exact hkept
  | undecided runs decides => exact hunchanged hworld'
  | uncaptured runs decides captures => exact hunchanged hworld'
  | @unfiled decision inputs _ w₁ runs decides captures recorded parks filed =>
      by_cases hblock : decision.outcome = .block
      · -- the row of a blocked payment is not refused
        exfalso
        have hfree := hguard (gateBlocks_of_decision decides hblock)
        simp only [freeRow, Bool.and_eq_true, Option.isNone_iff_eq_none, bne_iff_ne] at hfree
        obtain ⟨hnone, hnumber⟩ := hfree
        have hsame := (record_ok C recorded).same.intents
        obtain ⟨store, hok⟩ := C.insertIntent_fresh w₁.store
          (unsettled intent decision.outcome.parkedStatus decision.mandateId decision.reasons)
          (by
            rw [hsame]
            rw [C.getIntent] at hnone
            exact hnone) hnumber (by simp [unsettled])
        rw [hok] at filed
        cases filed
      · have hkept := record_sameCounter C recorded
        refine hquiet (appended_harmless C (record_ok C recorded) (by rw [hworld']; rfl)
          (Or.inr ⟨decision.outcome, by simp [stamped, agentPayload], hblock⟩)) ?_
        rw [hworld']
        exact hkept
  | blocked runs decides captures recorded blocks filed counted =>
      have hkept := (record_sameCounter C recorded).trans (insertIntent_sameCounter C filed)
      have hbad := (hcounts.same hkept).bad C counted
      rw [hworld']
      refine hbad.mono ?_
      simp only [badStep]
      split <;> omega
  | parked runs decides captures recorded confirms filed =>
      have hkept := (record_sameCounter C recorded).trans (insertIntent_sameCounter C filed)
      refine hquiet (appended_harmless C (record_ok C recorded) (by rw [hworld']; rfl)
        (Or.inr ⟨.confirmOperator, by simp [stamped, agentPayload, confirms], by simp⟩)) ?_
      rw [hworld']
      exact hkept
  | authorized runs decides captures recorded automatic =>
      have hkept := record_sameCounter C recorded
      refine hquiet (appended_harmless C (record_ok C recorded) (by rw [hworld']; rfl)
        (Or.inr ⟨.autoExecute, by simp [stamped, agentPayload, automatic], by simp⟩)) ?_
      rw [hworld']
      exact hkept

include C in
theorem approve_counts {s s' : State σ} {es : List Event} {now : String} {src : Sources}
    {intentId rationale : String} {acknowledged : Bool} {m : Nat}
    (htaken : step d s (.approve now src intentId rationale acknowledged) = some (s', es))
    (hcounts : Counts d m s.world.store) : Counts d m s'.world.store := by
  have heq : s.started (approve d src now intentId rationale acknowledged s.world) = (s', es) :=
    Option.some.inj htaken
  have hworld := started_world s (approve d src now intentId rationale acknowledged s.world)
  rw [heq] at hworld
  have hworld' : s'.world =
    stateAfter (approve d src now intentId rationale acknowledged s.world) := hworld
  have hrun := approve_run d src now intentId rationale acknowledged s.world
  generalize approve d src now intentId rationale acknowledged s.world = r at hrun hworld'
  rw [hworld']
  cases hrun with
  | missing absent => exact hcounts
  | settledAlready present closed => exact hcounts
  | undecided present pending runs decides => exact hcounts
  | haltUnrecorded present pending halts recorded =>
      exact hcounts.same (record_sameCounter C recorded)
  | halted present pending halts recorded => exact hcounts.same (record_sameCounter C recorded)
  | unrecorded present pending runs decides recorded =>
      exact hcounts.same (record_sameCounter C recorded)
  | unblocked present pending runs decides recorded blocks updated =>
      exact hcounts.same (record_sameCounter C recorded)
  | blocked present pending runs decides recorded blocks updated counted =>
      have hkept := (record_sameCounter C recorded).trans (updateIntent_sameCounter C updated)
      exact ((hcounts.same hkept).bad C counted).mono (Nat.le_succ m)
  | challenged present pending runs decides recorded passes challenges =>
      exact hcounts.same (record_sameCounter C recorded)
  | authorized present pending runs decides recorded passes unchallenged =>
      exact hcounts.same (record_sameCounter C recorded)

include C in
theorem resume_counts {s s' : State σ} {es : List Event} {k m : Nat}
    {steps : List (Step (State σ) Action Event)} (hsound : ∀ call ∈ s.calls, call.Sound)
    (hguard : Countable d steps s (.resume k))
    (htaken : step d s (.resume k) = some (s', es)) (hcounts : Counts d m s.world.store) :
    Counts d (badStep m ⟨s, .resume k, es, s'⟩) s'.world.store := by
  obtain ⟨⟨call, outcome⟩, hwait, heq⟩ := Option.map_eq_some_iff.1 htaken
  have hworld := conclude_world { s with calls := s.calls.eraseIdx k }
    (fun r => [Event.finished call r]) (finish d call outcome s.world)
  rw [show State.conclude { s with calls := s.calls.eraseIdx k }
    (fun r => [Event.finished call r]) (finish d call outcome s.world) = (s', es) from heq]
    at hworld
  have hworld' : s'.world = stateAfter (finish d call outcome s.world) := hworld
  have hfiled : ∀ {store}, filing d call outcome s.world.store = .ok store →
      SameCounter d s.world { s.world with store := store } := by
    intro store hstore
    unfold filing at hstore
    split at hstore
    · exact insertIntent_sameCounter C hstore
    · exact updateIntent_sameCounter C hstore
  rcases finish_cases d call outcome s.world with
    ⟨e, hrefused, hthrew⟩ | ⟨store, w', hstore, hcounted, hdone⟩
  · have hsame : s'.world = s.world := by rw [hworld', hthrew]; rfl
    rw [hsame]
    refine hcounts.mono ?_
    simp only [badStep, hwait]
    cases outcome with
    | ok r => exact Nat.zero_le m
    | error e' =>
        dsimp only
        split
        · -- a failed `execute` finds its id free
          next hentry =>
            exfalso
            have hfree := hguard
            simp only [Countable, hwait] at hfree
            have hrow := hfree hentry
            simp only [freeRow, Bool.and_eq_true, Option.isNone_iff_eq_none, bne_iff_ne] at hrow
            rw [C.getIntent] at hrow
            have hnamed := (hsound call (List.mem_of_getElem? (atResume_iff.1 hwait).1)).named
            have hfinishable : call.Finishable (s.books C) := by
              unfold Call.Finishable
              rw [hentry]
              exact ⟨hnamed, hrow⟩
            obtain ⟨store, hok⟩ := filing_ok C (.error e') hfinishable
            rw [hok] at hrefused
            cases hrefused
        · exact Nat.le_refl m
  · have hafter : s'.world = w' := by rw [hworld', hdone]; rfl
    have hbefore := hcounts.same (hfiled hstore)
    rw [hafter]
    simp only [badStep, hwait]
    cases outcome with
    | ok r => exact hbefore.cleared C hcounted
    | error e' =>
        refine (hbefore.bad C hcounted).mono ?_
        dsimp only
        split <;> omega

include C in
/-- Every other step leaves the counter, except the reset. -/
theorem other_sameCounter {s s' : State σ} {a : Action} {es : List Event}
    (htaken : step d s a = some (s', es))
    (hexecute : ∀ now src intent attestation, a ≠ .execute now src intent attestation)
    (happrove : ∀ now src intentId rationale acknowledged,
      a ≠ .approve now src intentId rationale acknowledged)
    (hresume : ∀ k, a ≠ .resume k) (hreset : a ≠ .resetCircuitBreaker) :
    SameCounter d s.world s'.world := by
  have htrans : ∀ {a b c : World σ}, SameCounter d a b → SameCounter d b c →
      SameCounter d a c := fun h h' => h.trans h'
  have hrefl : ∀ w : World σ, SameCounter d w w := fun _ => rfl
  have hrecord := @moves_record_sameCounter σ d C
  have hconclude : ∀ {α : Type} {s₀ : State σ} {ended : α → List Event} {x : Exec σ α},
      Moves (SameCounter d) x → s₀.conclude ended (x s.world) = (s', es) →
      SameCounter d s.world s'.world := by
    intro α s₀ ended x hmoves heq
    have h := hmoves s.world
    rw [← conclude_world s₀ ended, heq] at h
    exact h
  have hfailed : ∀ intent now error, Moves (SameCounter d) (settleFailed d intent now error) :=
    fun _ _ _ => .bind htrans (hrecord _ _ _) fun _ => .pure hrefl _
  have hcontrol : ∀ {f : σ → Except String σ} {type : AuditEventType} {payload : JsValue}
      {now : String}, (∀ {w : World σ} {store : σ}, f w.store = .ok store →
        SameCounter d w { w with store := store }) →
      Moves (SameCounter d) (do write f; record d type payload now) :=
    fun hf => .bind htrans (moves_write_sameCounter hf) fun _ => hrecord _ _ _
  have hswitch : ∀ v, Moves (SameCounter d)
      (write fun s => .ok (d.store.setMeta s killKey v)) := by
    intro v
    refine moves_write_sameCounter ?_
    rintro w store hstore
    cases hstore
    unfold SameCounter
    rw [C.getMeta, C.getMeta, C.setMeta, Books.setMeta, JsMap.get_set, if_neg (by decide)]
  have hmandates : ∀ {id : String} {patch : MandatePatch} {w : World σ} {store : σ},
      d.store.updateMandate w.store id patch = .ok store →
      SameCounter d w { w with store := store } :=
    fun hstore => sameCounter_of_meta C (by rw [C.updateMandate hstore]; rfl)
  cases a with
  | execute now src intent attestation => exact absurd rfl (hexecute _ _ _ _)
  | approve now src intentId rationale acknowledged => exact absurd rfl (happrove _ _ _ _ _)
  | resume k => exact absurd rfl (hresume k)
  | resetCircuitBreaker => exact absurd rfl hreset
  | railReturns k receipt verified =>
      obtain ⟨⟨call, provider⟩, -, heq⟩ := Option.map_eq_some_iff.1 htaken
      simp only at heq
      have hmoves : Moves (SameCounter d) (settleReturned d call.intent call.now
          (issuedBy provider receipt) verified) := by
        refine .tryCatch htrans (.bind htrans ?_ fun _ => .pure hrefl _) (hfailed _ _)
        refine .bind htrans (moves_write_sameCounter ?_) fun _ =>
          .bind htrans (hrecord _ _ _) fun _ =>
          .bind htrans (moves_eval_sameCounter _) fun _ =>
          .bind htrans (hrecord _ _ _) fun _ => .pure hrefl _
        intro w store hstore
        exact sameCounter_of_meta C (by rw [C.insertReceipt hstore]; rfl)
      have h := hmoves s.world
      rw [← answered_world s k call (.railSettled call provider receipt), heq] at h
      exact h
  | railThrows k error =>
      obtain ⟨⟨call, provider⟩, -, heq⟩ := Option.map_eq_some_iff.1 htaken
      simp only at heq
      have h := hfailed call.intent call.now error s.world
      rw [← answered_world s k call (.railFailed call error), heq] at h
      exact h
  | refund now intentId amountMinor reason =>
      simp only [step] at htaken
      split at htaken <;> cases htaken <;> rfl
  | refundReturns k refundRef =>
      obtain ⟨call, -, heq⟩ := Option.map_eq_some_iff.1 htaken
      have hmoves : Moves (SameCounter d) (refundReturned d call refundRef) :=
        .bind htrans (moves_write_sameCounter fun hstore => updateIntent_sameCounter C hstore)
          fun _ => .bind htrans (hrecord _ _ _) fun _ => .pure hrefl _
      have h := hmoves s.world
      rw [← conclude_world { s with refunds := s.refunds.eraseIdx k }
        (fun r => [.refundFinished r])] at h
      cases heq
      exact h
  | refundThrows k error =>
      obtain ⟨call, -, heq⟩ := Option.map_eq_some_iff.1 htaken
      cases heq
      rfl
  | grantMandate now m =>
      refine hconclude (hcontrol ?_) (Option.some.inj htaken)
      intro w store hstore
      obtain ⟨-, hbooks⟩ := C.insertMandate_spec hstore
      exact sameCounter_of_meta C (by rw [hbooks])
  | revokeMandate now id =>
      refine hconclude (hcontrol ?_) (Option.some.inj htaken)
      intro w store hstore
      cases hstore
      exact sameCounter_of_meta C (by rw [C.revokeMandate]; rfl)
  | amendMandate now id patch => exact hconclude (hcontrol hmandates) (Option.some.inj htaken)
  | extendMandate now id expiresAt =>
      exact hconclude (hcontrol hmandates) (Option.some.inj htaken)
  | engageKillSwitch => exact hconclude (hswitch "1") (Option.some.inj htaken)
  | disengageKillSwitch => exact hconclude (hswitch "0") (Option.some.inj htaken)

theorem counts_step {s s' : State σ} {a : Action} {es : List Event} {m : Nat}
    {steps : List (Step (State σ) Action Event)} (hsync : Synced C s.world)
    (hsound : ∀ call ∈ s.calls, call.Sound) (hguard : Countable d steps s a)
    (htaken : step d s a = some (s', es)) (hcounts : Counts d m s.world.store) :
    Counts d (badStep m ⟨s, a, es, s'⟩) s'.world.store := by
  cases a with
  | execute now src intent attestation => exact execute_counts C hsync hguard htaken hcounts
  | approve now src intentId rationale acknowledged => exact approve_counts C htaken hcounts
  | resume k => exact resume_counts C hsound hguard htaken hcounts
  | resetCircuitBreaker =>
      cases htaken
      refine ⟨0, ?_, Nat.le_refl 0⟩
      show failures d (d.store.setMeta s.world.store failKey "0") = ((0 : Nat) : JsNumber)
      rw [failures_setMeta C]
      decide +kernel
  | _ => exact hcounts.same (other_sameCounter C htaken (by simp) (by simp) (by simp) (by simp))

/-! ## An open breaker -/

theorem haltReason_of_open {store : σ} (hopen : breakerOpen d store = true) :
    haltReason d store ≠ none := by
  unfold haltReason
  rw [if_pos hopen]
  split <;> simp

/-- A rail is only asked by a call that found nothing halted. -/
theorem Effect.unhalted_of_invoked {s s' : State σ} {a : Action} {es : List Event}
    (heffect : Effect C s a s' es) {call : Call} {provider : PaymentProvider}
    (hinvoked : .railInvoked call provider ∈ es) : haltReason d s.world.store = none := by
  have hloud : ∀ {es : List Event}, (∀ e ∈ es, e.isQuiet = true) →
      .railInvoked call provider ∉ es := by
    intro es hquiet hmem
    cases hquiet _ hmem
  cases heffect with
  | executeStarted runs => exact runs
  | approveStarted runs => exact runs
  | quiet _ _ _ quiet => exact absurd hinvoked (hloud quiet)
  | filed _ _ _ _ _ _ _ _ _ quiet => exact absurd hinvoked (hloud quiet)
  | refused _ _ _ _ _ _ _ quiet => exact absurd hinvoked (hloud quiet)
  | mandateChanged _ _ _ _ _ quiet => exact absurd hinvoked (hloud quiet)
  | refunded _ _ _ _ _ _ _ quiet =>
      rcases List.mem_cons.1 hinvoked with h | h
      · cases h
      · exact absurd h (hloud quiet)
  | _ => simp at hinvoked

/-- **The breaker contains a doom loop.**  In every run whose blocked and failed
`execute` calls find their ids free, the breaker is open once as many of them as
its threshold have followed one another, and while it is open no call reaches a
rail. -/
theorem breaker_contains {s₀ s : State σ} {steps : List (Step (State σ) Action Event)}
    (hidle : s₀.calls = []) (hsync : Synced C s₀.world) {n : Nat}
    (hcount : failures d s₀.world.store = n)
    (hrun : (executor d).Run (Countable d) s₀ steps s) :
    (breakerThreshold d ≤ (badStreak steps : JsNumber) →
      breakerOpen d s.world.store = true) ∧
    (breakerOpen d s.world.store = true → ∀ a s' es, step d s a = some (s', es) →
      ∀ call provider, .railInvoked call provider ∉ es) := by
  have hinv : (∀ call ∈ s.calls, call.Sound) ∧ Synced C s.world ∧
      Counts d (badStreak steps) s.world.store := by
    refine hrun.invariant (fun steps s => (∀ call ∈ s.calls, call.Sound) ∧ Synced C s.world ∧
      Counts d (badStreak steps) s.world.store) ?_ ?_
    · refine ⟨?_, hsync, n, hcount, Nat.zero_le n⟩
      rw [hidle]
      exact fun c hc => absurd hc List.not_mem_nil
    · rintro steps s a s' es ⟨hsound, hsync, hcounts⟩ hguard htaken
      obtain ⟨heffect, hkeep⟩ := step_effect C htaken
      refine ⟨fun call hcall => (heffect.mem_calls C hcall).sound hsound C, hkeep hsync, ?_⟩
      rw [badStreak_snoc]
      exact counts_step C hsync hsound hguard htaken hcounts
  obtain ⟨-, -, m, hm, hle⟩ := hinv
  constructor
  · intro hthreshold
    have hcast : (badStreak steps : JsNumber) ≤ (m : JsNumber) := by
      show JsNumber.fin _ ≤ JsNumber.fin _
      rw [JsNumber.fin_le_fin]
      exact_mod_cast hle
    unfold breakerOpen
    rw [hm, decide_eq_true_eq]
    exact JsNumber.le_trans hthreshold hcast
  · intro hopen a s' es htaken call provider hinvoked
    exact haltReason_of_open hopen ((step_effect C htaken).1.unhalted_of_invoked C hinvoked)

namespace Sample

/-- More than a payment may be. -/
def overpay (id : String) : Action := pay id 70

end Sample

/-- Four blocked payments under new ids, and a fifth that is halted. -/
theorem fifth_payment_is_halted : ∃ steps s,
    (executor Sample.deps).Run (Countable Sample.deps) Sample.start steps s ∧
      badStreak steps = 4 ∧ breakerOpen Sample.deps s.world.store = true ∧
      ((breakerThreshold Sample.deps ≤ (badStreak steps : JsNumber) →
          breakerOpen Sample.deps s.world.store = true) ∧
        (breakerOpen Sample.deps s.world.store = true → ∀ a s' es,
          step Sample.deps s a = some (s', es) →
          ∀ call provider, .railInvoked call provider ∉ es)) := by
  obtain ⟨steps, s, hrun, hfound⟩ := System.exists_run (executor Sample.deps)
    (Countable Sample.deps) Sample.start
    [Sample.overpay "a", Sample.overpay "b", Sample.overpay "c", Sample.overpay "d",
      Sample.pay "e" 40]
    (fun steps s => decide (badStreak steps = 4) && breakerOpen Sample.deps s.world.store)
    (by decide +kernel)
  rw [Bool.and_eq_true, decide_eq_true_eq] at hfound
  exact ⟨steps, s, hrun, hfound.1, hfound.2,
    breaker_contains (d := Sample.deps) memoryContract rfl Sample.synced_start (n := 0)
      (by decide +kernel) hrun⟩

/-- Four blocked payments under an id that is already stored: each throws before
it is counted, and the rail is asked again. -/
theorem doom_loop_reaches_rail : ∃ steps s,
    (executor Sample.deps).Run Sequential Sample.start steps s ∧
      breakerThreshold Sample.deps = 4 ∧ (steps.map fun t => badStreak [t]) = [1, 1, 1, 1, 0] ∧
      badStreak steps = 4 ∧
      ((events steps).map fun e =>
        match e with
        | .threw error => error
        | .railInvoked call _ => call.intentId
        | _ => "") = ["intent earlier already exists", "intent earlier already exists",
          "intent earlier already exists", "intent earlier already exists", "a"] := by
  obtain ⟨steps, s, hrun, hfound⟩ := System.exists_run (executor Sample.deps)
    Sequential Sample.start
    [Sample.overpay "earlier", Sample.overpay "earlier", Sample.overpay "earlier",
      Sample.overpay "earlier", Sample.pay "a" 40]
    (fun steps _ => decide (breakerThreshold Sample.deps = 4 ∧
      (steps.map fun t => badStreak [t]) = [1, 1, 1, 1, 0] ∧ badStreak steps = 4 ∧
      ((events steps).map fun e =>
        match e with
        | .threw error => error
        | .railInvoked call _ => call.intentId
        | _ => "") = ["intent earlier already exists", "intent earlier already exists",
          "intent earlier already exists", "intent earlier already exists", "a"]))
    (by decide +kernel)
  exact ⟨steps, s, hrun, of_decide_eq_true hfound⟩

end AgentWorth
