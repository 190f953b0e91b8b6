import AgentWorth.Executor.Deployment
import AgentWorth.Executor.InFlight
import AgentWorth.Executor.Rows

/-!
# Refunds

A refund reads what was refunded before, awaits the rail, and then writes the
old total plus its amount.  The total is kept only when nothing else was booked
in between, and it stays a whole number of minor units only when the amount is
one, which the check on the amount does not ask: `WholeRefunds`.
-/

namespace AgentWorth

open AgentWorth.Js AgentWorth.Lib

variable {σ : Type} {d : ExecutorDeps σ} (C : Contract d.store)

/-- The amounts that rails have refunded for an intent, in order. -/
def refundedAmounts (id : String) (es : List Event) : List JsNumber :=
  es.filterMap fun e =>
    match e with
    | .refundSettled call => if call.intentId = id then some call.amount else none
    | _ => none

def refundedTotal (id : String) (es : List Event) : JsNumber :=
  JsNumber.sum (refundedAmounts id es)

@[simp] theorem refundedAmounts_append (id : String) (es es' : List Event) :
    refundedAmounts id (es ++ es') = refundedAmounts id es ++ refundedAmounts id es' :=
  List.filterMap_append

theorem refundedAmounts_unrefunded {id : String} {es : List Event}
    (h : Unrefunded id es) : refundedAmounts id es = [] := by
  rw [refundedAmounts, List.filterMap_eq_nil_iff]
  intro e he
  cases e with
  | refundSettled call => exact if_neg (h call he)
  | _ => rfl

theorem refundedAmounts_settled {call : RefundCall} {es : List Event}
    (h : ∀ e ∈ es, e.isQuiet = true) :
    refundedAmounts call.intentId (.refundSettled call :: es) = [call.amount] := by
  have hrest := refundedAmounts_unrefunded (unrefunded_of_quiet call.intentId h)
  rw [refundedAmounts] at hrest
  simp only [refundedAmounts, List.filterMap_cons, if_true, hrest]

/-- A rail that returns to a refund of the intent refunds a whole number of
minor units, and what was refunded before is still what the call read. -/
def WholeRefunds (d : ExecutorDeps σ) (id : String) : Guard (State σ) Action Event :=
  fun _ s a =>
    match a with
    | .refundReturns k _ =>
        ∀ call ∈ s.refunds[k]?, call.intentId = id → call.amount.isInteger = true ∧
          ∀ x ∈ d.store.getIntent s.world.store id, call.already = x.refundedMinor.getD 0
    | _ => True

instance (id : String) (steps : List (Step (State σ) Action Event)) (s : State σ)
    (a : Action) : Decidable (WholeRefunds d id steps s a) :=
  match a with
  | .refundReturns .. => inferInstanceAs (Decidable (∀ call ∈ _, _))
  | .execute .. | .approve .. | .railReturns .. | .railThrows .. | .resume .. | .refund ..
  | .refundThrows .. | .grantMandate .. | .revokeMandate .. | .amendMandate ..
  | .extendMandate .. | .engageKillSwitch | .disengageKillSwitch | .resetCircuitBreaker =>
      inferInstanceAs (Decidable True)

/-- The invariant of runs under `WholeRefunds`, for a payment of `n`. -/
structure RefundInv (id : String) (intent : PaymentIntent) (n : Int) (es : List Event)
    (s : State σ) : Prop where
  booked : ∃ x, (s.books C).intents.get id = some x ∧ x.intent = intent ∧
    ∃ t : Int, 0 ≤ t ∧ t ≤ n ∧ refundedTotal id es = .fin t ∧
      x.refundedMinor.getD 0 = .fin t
  checked : ∀ call ∈ s.refunds, call.intentId = id →
    ¬ call.amount ≤ 0 ∧ ¬ JsNumber.fin n < call.already + call.amount

section Steps

variable {s s' : State σ} {a : Action} {es past : List Event} {id : String}
  {intent : PaymentIntent} {n : Int}

/-- A refund only reaches its rail with an amount that passed the check. -/
theorem RefundInv.check (hinv : RefundInv C id intent n past s)
    (hn : intent.amount = .fin n) (heffect : Effect C s a s' es) :
    ∀ call ∈ s'.refunds, call.intentId = id →
      ¬ call.amount ≤ 0 ∧ ¬ JsNumber.fin n < call.already + call.amount := by
  intro call hcall hid
  rcases heffect.mem_refunds C hcall with hold | ⟨now, intentId, amountMinor, reason, -, hstart⟩
  · exact hinv.checked call hold hid
  · obtain ⟨x, receipt, provider, hget, -, -, -, -, -, hgood, rfl⟩ :=
      (refund_awaiting_iff _ _ _).1 hstart
    obtain ⟨x', hx', hintent, -⟩ := hinv.booked
    rw [C.getIntent] at hget
    have hget' : (s.books C).intents.get id = some x := hid ▸ hget
    rw [hx'] at hget'
    cases hget'
    rw [← hn, ← hintent]
    exact not_or.1 hgood

theorem refunds_step (hinv : RefundInv C id intent n past s) (hn : intent.amount = .fin n)
    {steps : List (Step (State σ) Action Event)} (hguard : WholeRefunds d id steps s a)
    (htaken : step d s a = some (s', es)) : RefundInv C id intent n (past ++ es) s' := by
  obtain ⟨heffect, -⟩ := step_effect C htaken
  refine ⟨?_, hinv.check C hn heffect⟩
  obtain ⟨x, hx, hintent, t, ht0, htn, htotal, hstored⟩ := hinv.booked
  obtain ⟨x', hx', hchange⟩ := heffect.row C hx
  have hsame : x'.refundedMinor = x.refundedMinor → Unrefunded id es →
      ∃ x', (s'.books C).intents.get id = some x' ∧ x'.intent = intent ∧
        ∃ t : Int, 0 ≤ t ∧ t ≤ n ∧ refundedTotal id (past ++ es) = .fin t ∧
          x'.refundedMinor.getD 0 = .fin t := by
    intro hminor hunrefunded
    refine ⟨x', hx', hchange.intent_eq.trans hintent, t, ht0, htn, ?_, by rw [hminor, hstored]⟩
    rw [refundedTotal, refundedAmounts_append, refundedAmounts_unrefunded hunrefunded,
      List.append_nil]
    exact htotal
  -- the checks and the discipline, for the call whose rail has answered
  have hsettles : ∀ {k : Nat} {call : RefundCall}, s.refunds[k]? = some call →
      call.intentId = id → (∃ ref, a = .refundReturns k ref) →
        ∃ m : Int, call.amount = .fin m ∧ call.already + call.amount = .fin (t + m : Int) ∧
          0 < m ∧ t + m ≤ n := by
    rintro k call hk hid ⟨ref, rfl⟩
    obtain ⟨hwhole, hread⟩ := hguard call hk hid
    have halready := hread x (by rw [C.getIntent]; exact hx)
    obtain ⟨m, hm⟩ := JsNumber.isInteger_iff.1 hwhole
    obtain ⟨hpos, hfits⟩ := hinv.checked call (List.mem_of_getElem? hk) hid
    rw [halready, hstored, hm, JsNumber.fin_add_fin, JsNumber.fin_lt_fin] at hfits
    rw [hm, JsNumber.ofNat_eq_fin, JsNumber.fin_le_fin] at hpos
    refine ⟨m, hm, ?_, ?_, ?_⟩
    · rw [halready, hstored, hm, JsNumber.fin_add_fin]
      push_cast
      rfl
    · exact_mod_cast not_le.1 hpos
    · exact_mod_cast not_lt.1 hfits
  cases hchange with
  | kept hunrefunded => exact hsame rfl hunrefunded
  | refused pending hunrefunded => exact hsame rfl hunrefunded
  | approved waiting entry named =>
      refine hsame ?_ (by intro call hcall; simp at hcall)
      cases ‹Except String (Receipt × Bool)› <;> rfl
  | @refunded k ref call es waiting named quiet =>
      obtain ⟨m, hm, hsum, hpos, hfits⟩ := hsettles waiting named ⟨ref, rfl⟩
      refine ⟨_, hx', hintent, t + m, by omega, hfits, ?_, ?_⟩
      · subst named
        rw [refundedTotal, refundedAmounts_append, refundedAmounts_settled quiet,
          JsNumber.sum_snoc, ← refundedTotal, htotal, hm, JsNumber.fin_add_fin]
        push_cast
        rfl
      · show call.already + call.amount = _
        exact hsum
  | refundLost waiting named nan =>
      obtain ⟨m, -, hsum, -⟩ := hsettles waiting named ⟨_, rfl⟩
      rw [nan] at hsum
      cases hsum

end Steps

namespace Sample

/-- A payment of 40 that has settled. -/
def paid : StoredIntent where
  intent := intent "a" 40
  status := .settled
  mandateId := some "m"
  reasons := []
  settledAt := some noon
  receiptId := some "receipt-a"
  refundedMinor := none

/-- The books with that payment and its receipt. -/
def paidBooks : Books :=
  { books with
    intents := books.intents.put paid
    receipts := Table.empty.put (issuedBy cardRail (receipt "a" 40)) }

def refundOf (amount : JsNumber) : Action := .refund noon "a" (some amount) none

end Sample

end AgentWorth
