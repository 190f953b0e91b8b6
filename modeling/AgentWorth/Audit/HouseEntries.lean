import AgentWorth.Audit.House
import AgentWorth.Compliance.Decisions
import AgentWorth.Executor.Payloads

/-!
# What the writers of a chain append

One case for each kind of entry, with the step it comes from.
-/

namespace AgentWorth

open AgentWorth.Js AgentWorth.Lib

variable {σ : Type} {d : ExecutorDeps σ} {desk : EarningDesk} {p q : AuditEntry → Prop}

/-- Both descriptions are of the same new entries. -/
theorem Appends.and {w w' : World σ} (h : Appends p w w') (h' : Appends q w w') :
    Appends (fun e => p e ∧ q e) w w' := by
  obtain ⟨es, hes, hp⟩ := h
  obtain ⟨es', hes', hq⟩ := h'
  rw [hes, List.append_right_inj] at hes'
  subst hes'
  exact ⟨es, hes, fun e he => ⟨hp e he, hq e he⟩⟩

theorem Appends.mem {w w' : World σ} (h : Appends p w w') {e : AuditEntry}
    (he : e ∈ w'.audit.entries) : e ∈ w.audit.entries ∨ p e := by
  obtain ⟨es, hes, hp⟩ := h
  rw [hes] at he
  exact (List.mem_append.1 he).imp_right (hp e)

inductive HouseEntry (t : House σ) (e : AuditEntry) : HouseAction σ → Prop
  | spent {a : Action} (outbound : Outbound e) (legible : Legible e) : HouseEntry t e (.run a)
  | quoted {service : String} {priceMinor : JsNumber} {payTo : Option String} {now : String}
      {quoted : PriceQuote} (type : e.type = .earningQuoted)
      (payload : e.payload = quotePayload quoted) :
      HouseEntry t e (.quote service priceMinor payTo now)
  | rejected {a : HouseAction σ} {payment : InboundPayment} {reasons : List String}
      (type : e.type = .earningRejected) (payload : e.payload = rejectedPayload payment reasons) :
      HouseEntry t e a
  | received {k : Nat} {now : String} {payment : InboundPayment}
      (waiting : t.receiving[k]? = some payment) (type : e.type = .earningReceived)
      (payload : e.payload = receivedPayload payment) : HouseEntry t e (.verified k true now)

theorem moves_rejectInbound_appends {payment : InboundPayment} {reasons : List String}
    {now : String} (h : ∀ e : AuditEntry, e.type = .earningRejected →
      e.payload = rejectedPayload payment reasons → p e) :
    Moves (Appends p) (EarningDesk.rejectInbound d payment reasons now) :=
  .bind .trans (moves_record (by simp) h) fun _ => .pure .refl _

/-- **Every entry of a step** is of one of these kinds. -/
theorem entries_of_houseStep {t t' : House σ} {a : HouseAction σ} {es : List HouseEvent}
    (htaken : houseStep d desk t a = some (t', es)) :
    Appends (fun e => HouseEntry t e a) t.executor.world t'.executor.world := by
  cases a with
  | run a =>
      obtain ⟨⟨s, es'⟩, hstep, heq⟩ := Option.map_eq_some_iff.1 htaken
      cases heq
      have hlegible := (entries_of_step hstep).mono fun e he => he.legible
      exact ((outbound_of_step hstep).and hlegible).mono fun e he => .spent he.1 he.2
  | quote service priceMinor payTo now =>
      have hmoves : Moves (Appends fun e => HouseEntry t e (.quote service priceMinor payTo now))
          (desk.quote d service priceMinor payTo now) :=
        .bind .trans (moves_record (by simp) fun e htype hpayload => .quoted htype hpayload)
          fun _ => .pure .refl _
      have hmoved := hmoves t.executor.world
      rw [← t.settle_world fun q => [.quoted q], Option.some.inj htaken] at hmoved
      exact hmoved
  | receive payment now =>
      have hmoves : Moves (Appends fun e => HouseEntry t e (.receive payment now))
          (desk.receive d payment now) := by
        unfold EarningDesk.receive
        dsimp only
        split
        · exact .bind .trans (moves_rejectInbound_appends fun e htype hpayload =>
            .rejected htype hpayload) fun _ => .pure .refl _
        · split
          · exact .bind .trans (moves_rejectInbound_appends fun e htype hpayload =>
              .rejected htype hpayload) fun _ => .pure .refl _
          · exact .pure .refl _
      have hmoved := hmoves t.executor.world
      rw [← t.begun_world payment, Option.some.inj htaken] at hmoved
      exact hmoved
  | verified k answer now =>
      obtain ⟨payment, hwaiting, heq⟩ := Option.map_eq_some_iff.1 htaken
      have hmoves : Moves (Appends fun e => HouseEntry t e (.verified k answer now))
          (EarningDesk.receiveVerified d payment answer now) := by
        unfold EarningDesk.receiveVerified
        cases answer with
        | true =>
            exact .bind .trans (moves_record (by simp) fun e htype hpayload =>
              .received hwaiting htype hpayload) fun _ => .pure .refl _
        | false =>
            exact moves_rejectInbound_appends fun e htype hpayload => .rejected htype hpayload
      have hmoved := hmoves t.executor.world
      rw [← House.settle_world { t with receiving := t.receiving.eraseIdx k }
        fun result => [.received result]] at hmoved
      cases heq
      exact hmoved
  | verifierThrows k error =>
      obtain ⟨payment, -, heq⟩ := Option.map_eq_some_iff.1 htaken
      cases heq
      exact .refl _
  | overwrite store =>
      cases htaken
      exact ⟨[], (List.append_nil _).symm, nofun⟩
  | check =>
      cases htaken
      refine ⟨[], ?_, nofun⟩
      show (checkIntegrity d t.executor.world).1.audit.entries = _
      rw [checkIntegrity_audit, List.append_nil]

end AgentWorth
