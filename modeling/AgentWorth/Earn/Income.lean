import AgentWorth.Audit.HouseEntries
import AgentWorth.Lib.Slots

/-!
# No income on faith

The income on the chain is what the verifier has confirmed, payment by payment
and in that order: nothing that any other writer does adds to it or takes from
it, and an answer counts once.
-/

namespace AgentWorth

open AgentWorth.Js AgentWorth.Lib

/-- The payloads of what was earned, in order. -/
def income (entries : List AuditEntry) : List JsValue :=
  entries.filterMap fun e => if e.type = .earningReceived then some e.payload else none

/-- The payments whose proof the verifier was asked about. -/
def askedPayments (es : List HouseEvent) : List InboundPayment :=
  es.filterMap fun e =>
    match e with
    | .asked payment => some payment
    | _ => none

/-- The payments that the verifier is done with. -/
def resolvedPayments (es : List HouseEvent) : List InboundPayment :=
  es.filterMap fun e =>
    match e with
    | .answered payment _ | .verifierFailed payment _ => some payment
    | _ => none

/-- The payments that the verifier has confirmed. -/
def confirmedPayments (es : List HouseEvent) : List InboundPayment :=
  es.filterMap fun e =>
    match e with
    | .answered payment true => some payment
    | _ => none

@[simp] theorem askedPayments_append (es es' : List HouseEvent) :
    askedPayments (es ++ es') = askedPayments es ++ askedPayments es' := List.filterMap_append

@[simp] theorem resolvedPayments_append (es es' : List HouseEvent) :
    resolvedPayments (es ++ es') = resolvedPayments es ++ resolvedPayments es' :=
  List.filterMap_append

@[simp] theorem confirmedPayments_append (es es' : List HouseEvent) :
    confirmedPayments (es ++ es') = confirmedPayments es ++ confirmedPayments es' :=
  List.filterMap_append

/-- The executor and the shield ask no verifier. -/
@[simp] theorem askedPayments_ran (es : List Event) : askedPayments (es.map .ran) = [] := by
  simp [askedPayments, List.filterMap_map]

@[simp] theorem resolvedPayments_ran (es : List Event) :
    resolvedPayments (es.map .ran) = [] := by
  simp [resolvedPayments, List.filterMap_map]

@[simp] theorem confirmedPayments_ran (es : List Event) :
    confirmedPayments (es.map .ran) = [] := by
  simp [confirmedPayments, List.filterMap_map]

@[simp] theorem askedPayments_shield (es : List ShieldEvent) :
    askedPayments (es.map .shield) = [] := by
  simp [askedPayments, List.filterMap_map]

@[simp] theorem resolvedPayments_shield (es : List ShieldEvent) :
    resolvedPayments (es.map .shield) = [] := by
  simp [resolvedPayments, List.filterMap_map]

@[simp] theorem confirmedPayments_shield (es : List ShieldEvent) :
    confirmedPayments (es.map .shield) = [] := by
  simp [confirmedPayments, List.filterMap_map]

/-- What is confirmed is resolved. -/
theorem confirmedPayments_sublist (es : List HouseEvent) :
    (confirmedPayments es).Sublist (resolvedPayments es) := by
  induction es with
  | nil => exact .slnil
  | cons e es ih =>
      cases e with
      | answered payment verified =>
          cases verified with
          | true => exact ih.cons_cons payment
          | false => exact ih.cons payment
      | verifierFailed payment error => exact ih.cons payment
      | _ => exact ih

variable {σ : Type} {d : ExecutorDeps σ} {desk : EarningDesk} {t t' : House σ}
  {a : HouseAction σ} {es : List HouseEvent}

/-! ## The payments under way -/

/-- A refusal is an answer. -/
theorem rejected_ne_none {payment : InboundPayment} {reasons : List String} {now : String}
    {w w' : World σ} : (do
      let result ← EarningDesk.rejectInbound d payment reasons now
      return some result : Exec σ (Option ReceiveResult)) w ≠ .ok none w' := by
  show EStateM.bind (EarningDesk.rejectInbound d payment reasons now) _ w ≠ _
  unfold EStateM.bind
  split
  · exact nofun
  · exact nofun

/-- The verifier is asked about payments that the policy accepts. -/
theorem receive_asks {payment : InboundPayment} {now : String} {w w' : World σ}
    (h : desk.receive d payment now w = .ok none w') :
    (evaluateInbound payment desk.policy).accepted = true := by
  by_contra hrefused
  unfold EarningDesk.receive at h
  rw [if_pos (Bool.eq_false_iff.2 hrefused)] at h
  exact rejected_ne_none h

/-- What is asked about is under way until it is resolved. -/
theorem flow_of_houseStep (htaken : houseStep d desk t a = some (t', es)) :
    (t.receiving ++ askedPayments es).Perm (t'.receiving ++ resolvedPayments es) ∧
      ∀ p ∈ askedPayments es, (evaluateInbound p desk.policy).accepted = true := by
  cases a with
  | run a =>
      obtain ⟨⟨s, es'⟩, -, heq⟩ := Option.map_eq_some_iff.1 htaken
      cases heq
      rw [askedPayments_ran, resolvedPayments_ran]
      exact ⟨.refl _, nofun⟩
  | quote service priceMinor payTo now =>
      have heq := Option.some.inj htaken
      generalize desk.quote d service priceMinor payTo now t.executor.world = r at heq
      cases r <;> cases heq <;> exact ⟨.refl _, nofun⟩
  | receive payment now =>
      have heq := Option.some.inj htaken
      cases hr : desk.receive d payment now t.executor.world with
      | error e w =>
          rw [hr] at heq
          cases heq
          exact ⟨.refl _, nofun⟩
      | ok result w =>
          rw [hr] at heq
          cases result with
          | some result =>
              cases heq
              exact ⟨.refl _, nofun⟩
          | none =>
              cases heq
              refine ⟨?_, ?_⟩
              · show (t.receiving ++ [payment]).Perm (t.receiving ++ [payment] ++ [])
                rw [List.append_nil]
              · intro p hp
                rw [List.mem_singleton.1 hp]
                exact receive_asks hr
  | verified k answer now =>
      obtain ⟨payment, hslot, heq⟩ := Option.map_eq_some_iff.1 htaken
      have hperm : (t.receiving ++ []).Perm (t.receiving.eraseIdx k ++ [payment]) := by
        rw [List.append_nil]
        exact (perm_eraseIdx hslot).trans (List.perm_append_singleton payment _).symm
      generalize EarningDesk.receiveVerified d payment answer now t.executor.world = r at heq
      cases r <;> cases heq <;> exact ⟨hperm, nofun⟩
  | verifierThrows k error =>
      obtain ⟨payment, hslot, heq⟩ := Option.map_eq_some_iff.1 htaken
      cases heq
      refine ⟨?_, nofun⟩
      show (t.receiving ++ []).Perm (t.receiving.eraseIdx k ++ [payment])
      rw [List.append_nil]
      exact (perm_eraseIdx hslot).trans (List.perm_append_singleton payment _).symm
  | overwrite store =>
      cases htaken
      exact ⟨.refl _, nofun⟩
  | check =>
      cases htaken
      rw [askedPayments_shield, resolvedPayments_shield]
      exact ⟨.refl _, nofun⟩

/-! ## The income of a step -/

theorem income_append (entries entries' : List AuditEntry) :
    income (entries ++ entries') = income entries ++ income entries' := List.filterMap_append

/-- Entries about anything else leave the income as it was. -/
theorem income_of_appends {w w' : World σ}
    (h : Appends (fun e => e.type ≠ .earningReceived) w w') :
    income w'.audit.entries = income w.audit.entries := by
  obtain ⟨added, hadded, hother⟩ := h
  have hnone : income added = [] := by
    rw [income, List.filterMap_eq_nil_iff]
    intro e he
    rw [if_neg (hother e he)]
  rw [hadded, income_append, hnone, List.append_nil]

/-- A result that is made up afterwards leaves the state as it is. -/
theorem stateAfter_bind_pure {α β : Type} (x : Exec σ α) (b : β) (w : World σ) :
    stateAfter ((x >>= fun _ => pure b : Exec σ β) w) = stateAfter (x w) := by
  show stateAfter (EStateM.bind x _ w) = _
  unfold EStateM.bind
  cases x w <;> rfl

/-- A confirmed payment is income, even where the store refuses the entry. -/
theorem income_received {key : SigningKey} {payment : InboundPayment} {now : String}
    {w : World σ} (hsign : w.audit.signer.sign = .ok key) :
    income (stateAfter (EarningDesk.receiveVerified d payment true now w)).audit.entries =
      income w.audit.entries ++ [receivedPayload payment] := by
  obtain ⟨entry, log, happend⟩ := AuditLog.append_total d.crypto hsign .earningReceived
    (receivedPayload payment) now
  obtain ⟨-, hentries, htype, hpayload, -⟩ := AuditLog.append_ok happend
  have hlog : income log.entries = income w.audit.entries ++ [receivedPayload payment] := by
    rw [hentries, income_append, ← hpayload]
    simp [income, htype]
  have hrecord : (stateAfter (record d .earningReceived (receivedPayload payment) now w)).audit =
      log := by
    unfold record appendEntry
    rw [if_neg (by simp), happend]
    dsimp only
    split <;> rfl
  rw [← hlog, ← hrecord]
  exact congrArg (fun w : World σ => income w.audit.entries)
    (stateAfter_bind_pure (record d .earningReceived (receivedPayload payment) now) _ w)

theorem income_of_houseStep {key : SigningKey}
    (hsign : t.executor.world.audit.signer.sign = .ok key)
    (htaken : houseStep d desk t a = some (t', es)) :
    income t'.executor.world.audit.entries = income t.executor.world.audit.entries ++
      (confirmedPayments es).map receivedPayload := by
  have hentries := entries_of_houseStep htaken
  have hnone : (∀ k now, a ≠ .verified k true now) → confirmedPayments es = [] →
      income t'.executor.world.audit.entries = income t.executor.world.audit.entries ++
        (confirmedPayments es).map receivedPayload := by
    intro hother hconfirmed
    rw [hconfirmed, List.map_nil, List.append_nil]
    refine income_of_appends (hentries.mono ?_)
    intro e he htype
    cases he with
    | spent outbound legible =>
        have hspending := outbound.spending
        rw [htype] at hspending
        cases hspending
    | quoted type payload => rw [htype] at type; cases type
    | rejected type payload => rw [htype] at type; cases type
    | received waiting type payload => exact hother _ _ rfl
  cases a with
  | run a =>
      refine hnone nofun ?_
      obtain ⟨⟨s, es'⟩, -, heq⟩ := Option.map_eq_some_iff.1 htaken
      cases heq
      exact confirmedPayments_ran es'
  | quote service priceMinor payTo now =>
      refine hnone nofun ?_
      have heq := Option.some.inj htaken
      generalize desk.quote d service priceMinor payTo now t.executor.world = r at heq
      cases r <;> cases heq <;> rfl
  | receive payment now =>
      refine hnone nofun ?_
      have heq := Option.some.inj htaken
      generalize desk.receive d payment now t.executor.world = r at heq
      rcases r with ⟨_ | _, _⟩ | _ <;> cases heq <;> rfl
  | verified k answer now =>
      obtain ⟨payment, -, heq⟩ := Option.map_eq_some_iff.1 htaken
      cases answer with
      | false =>
          refine hnone nofun ?_
          generalize EarningDesk.receiveVerified d payment false now t.executor.world = r at heq
          cases r <;> cases heq <;> rfl
      | true =>
          have hincome : income (stateAfter
              (EarningDesk.receiveVerified d payment true now t.executor.world)).audit.entries =
                income t.executor.world.audit.entries ++ [receivedPayload payment] :=
            income_received hsign
          rw [← House.settle_world { t with receiving := t.receiving.eraseIdx k }
            fun result => [.received result]] at hincome
          have hconfirmed : confirmedPayments es = [payment] := by
            generalize EarningDesk.receiveVerified d payment true now t.executor.world = r at heq
            cases r <;> cases heq <;> rfl
          rw [hconfirmed]
          cases heq
          exact hincome
  | verifierThrows k error =>
      refine hnone nofun ?_
      obtain ⟨payment, -, heq⟩ := Option.map_eq_some_iff.1 htaken
      cases heq
      rfl
  | overwrite store =>
      refine hnone nofun ?_
      cases htaken
      rfl
  | check =>
      refine hnone nofun ?_
      cases htaken
      exact confirmedPayments_shield _

/-! ## A run -/

/-- **No income on faith.**  In every run of the executor, the desk and the
controls over one chain, whatever happens to the database: the chain's income
grows by exactly the payments that the verifier confirmed, in the order of its
answers; it was asked about each of them, once for each answer, and the policy
had accepted every payment it was asked about. -/
theorem income_is_confirmed {t₀ t : House σ} {key : SigningKey}
    {steps : List (Step (House σ) (HouseAction σ) HouseEvent)}
    (hsign : t₀.executor.world.audit.signer.sign = .ok key)
    (hrun : (house d desk).Run anyStep t₀ steps t) :
    income t.executor.world.audit.entries = income t₀.executor.world.audit.entries ++
        (confirmedPayments (events steps)).map receivedPayload ∧
      (confirmedPayments (events steps)).Subperm
        (t₀.receiving ++ askedPayments (events steps)) ∧
      ∀ p ∈ askedPayments (events steps), (evaluateInbound p desk.policy).accepted = true := by
  obtain ⟨hgrown, hincome, hflow, hpolicy⟩ := hrun.invariant
    (fun steps t => Grown d.crypto t₀.executor.world.audit t.executor.world.audit ∧
      income t.executor.world.audit.entries = income t₀.executor.world.audit.entries ++
        (confirmedPayments (events steps)).map receivedPayload ∧
      (t₀.receiving ++ askedPayments (events steps)).Perm
        (t.receiving ++ resolvedPayments (events steps)) ∧
      ∀ p ∈ askedPayments (events steps), (evaluateInbound p desk.policy).accepted = true)
    ⟨.refl _, (List.append_nil _).symm, .refl _, nofun⟩ (by
      rintro steps t a t' es ⟨hgrown, hincome, hflow, hpolicy⟩ _ htaken
      obtain ⟨hperm, haccepted⟩ := flow_of_houseStep htaken
      refine ⟨hgrown.trans (grown_of_houseStep htaken), ?_, ?_, ?_⟩
      · rw [income_of_houseStep (by rw [hgrown.signer]; exact hsign) htaken, hincome, events_snoc,
          confirmedPayments_append, List.map_append, List.append_assoc]
      · rw [events_snoc, askedPayments_append, resolvedPayments_append, ← List.append_assoc]
        calc List.Perm ((t₀.receiving ++ askedPayments (events steps)) ++ askedPayments es)
              ((t.receiving ++ resolvedPayments (events steps)) ++ askedPayments es) :=
              hflow.append_right _
          List.Perm _ ((t.receiving ++ askedPayments es) ++ resolvedPayments (events steps)) := by
              rw [List.append_assoc, List.append_assoc]
              exact List.perm_append_comm.append_left _
          List.Perm _ ((t'.receiving ++ resolvedPayments es) ++
              resolvedPayments (events steps)) := hperm.append_right _
          List.Perm _ (t'.receiving ++ (resolvedPayments (events steps) ++
              resolvedPayments es)) := by
              rw [List.append_assoc]
              exact List.perm_append_comm.append_left _
      · intro p hp
        rw [events_snoc, askedPayments_append] at hp
        rcases List.mem_append.1 hp with hp | hp
        · exact hpolicy p hp
        · exact haccepted p hp)
  refine ⟨hincome, ?_, hpolicy⟩
  have hsub := (confirmedPayments_sublist (events steps)).subperm
  exact (hsub.trans (List.sublist_append_right _ _).subperm).trans hflow.symm.subperm

namespace Sample

/-- A confirmed payment whose entry the database still gets, one below the price,
and one that the verifier turns down. -/
def incomeActions : List (HouseAction Books) :=
  [.receive (inbound 20) noon, .receive (inbound 5) noon, .receive (inbound 30) noon,
    .verified 1 false noon, .verified 0 true noon]

end Sample

theorem income_is_confirmed_forecast : ∃ steps t,
    (house Sample.deps Sample.serviceDesk).Run anyStep ⟨Sample.start, []⟩ steps t ∧
    (askedPayments (events steps)).length = 2 ∧
    income t.executor.world.audit.entries =
      (confirmedPayments (events steps)).map receivedPayload ∧
    (confirmedPayments (events steps)).Subperm (askedPayments (events steps)) := by
  obtain ⟨steps, t, hrun, hlength⟩ := System.exists_run (house Sample.deps Sample.serviceDesk)
    anyStep ⟨Sample.start, []⟩ Sample.incomeActions
    (fun steps _ => (askedPayments (events steps)).length == 2) (by decide +kernel)
  have hsign : (⟨Sample.start, []⟩ : House Books).executor.world.audit.signer.sign =
      .ok ⟨"key", none⟩ := rfl
  obtain ⟨hincome, hsub, -⟩ := income_is_confirmed hsign hrun
  exact ⟨steps, t, hrun, eq_of_beq hlength, hincome, hsub⟩

end AgentWorth
