import AgentWorth.Executor.Deployment
import AgentWorth.Executor.Rows
import AgentWorth.Store.Sqlite

/-!
# Refunds under changing rails

One store outlives many executors: the operator registers, removes and
re-routes providers, and restarts the process.  A receipt names the provider
that issued it, so that a refund can go back to it, if the store keeps the name
and the provider is still registered; otherwise the refund goes to whoever
serves the rail by then.
-/

namespace AgentWorth

open AgentWorth.Js AgentWorth.Lib

variable {σ : Type} {d : ExecutorDeps σ} (C : Contract d.store)

/-- What the operator's host may do next. -/
inductive HostAction where
  /-- the executor takes a step, over the rails configured by then -/
  | run (rails : RailRegistry) (a : Action)
  /-- a new executor over the same store, its audit log read back -/
  | restart (key : String)

def restarted (d : ExecutorDeps σ) (key : String) (s : State σ) : State σ where
  world :=
    { store := s.world.store
      audit := { signer := operatorSigner key, entries := d.store.loadAudit s.world.store } }

/-- Executors over one store, one after the other. -/
def host (d : ExecutorDeps σ) : System (State σ) HostAction Event where
  step s
    | .run rails a => step { d with rails := rails } s a
    | .restart key => some (restarted d key s, [])

/-! ## Who issued a stored receipt -/

/-- The provider whose receipt a step wrote under an id. -/
def issuedIn (d : ExecutorDeps σ) (receiptId : String)
    (t : Step (State σ) HostAction Event) : Option PaymentProvider :=
  t.events.findSome? fun e =>
    match e with
    | .railSettled _ provider receipt =>
        if receipt.id = receiptId ∧
            (d.store.insertReceipt t.before.world.store (issuedBy provider receipt)).isOk then
          some provider
        else none
    | _ => none

/-- The provider whose receipt was the last to be written under an id. -/
def issuer (d : ExecutorDeps σ) (receiptId : String) :
    List (Step (State σ) HostAction Event) → Option PaymentProvider :=
  List.foldl (fun known t => (issuedIn d receiptId t).or known) none

theorem issuer_snoc (receiptId : String) (steps : List (Step (State σ) HostAction Event))
    (t : Step (State σ) HostAction Event) :
    issuer d receiptId (steps ++ [t]) = (issuedIn d receiptId t).or (issuer d receiptId steps) := by
  simp only [issuer, List.foldl_append, List.foldl_cons, List.foldl_nil]

section

variable {receiptId : String} {s s' : State σ} {a : HostAction} {es : List Event}

theorem issuedIn_unsettled (h : ∀ call p r, .railSettled call p r ∉ es) :
    issuedIn d receiptId ⟨s, a, es, s'⟩ = none := by
  rw [issuedIn, List.findSome?_eq_none_iff]
  intro e he
  cases e <;> first | rfl | exact absurd he (h _ _ _)

theorem issuedIn_settled {call : Call} {p : PaymentProvider} {r : Receipt}
    (h : ∀ e ∈ es, e.isQuiet = true) :
    issuedIn d receiptId ⟨s, a, .railSettled call p r :: es, s'⟩ =
      if r.id = receiptId ∧ (d.store.insertReceipt s.world.store (issuedBy p r)).isOk then some p
      else none := by
  have hrest : issuedIn d receiptId ⟨s, a, es, s'⟩ = none := by
    refine issuedIn_unsettled ?_
    intro call p r hmem
    cases h _ hmem
  by_cases hwrote : r.id = receiptId ∧
      (d.store.insertReceipt s.world.store (issuedBy p r)).isOk = true
  · simp only [issuedIn, List.findSome?_cons, if_pos hwrote]
  · simp only [issuedIn, List.findSome?_cons, if_neg hwrote]
    exact hrest

end

/-- Every receipt whose issuer is known is stored as the store keeps that
issuer's receipts. -/
def IssuerInv (steps : List (Step (State σ) HostAction Event)) (s : State σ) : Prop :=
  ∀ receiptId p, issuer d receiptId steps = some p →
    ∃ receipt, (s.books C).receipts.get receiptId = some (C.savedReceipt (issuedBy p receipt))

theorem issuer_step {steps : List (Step (State σ) HostAction Event)} {s s' : State σ}
    {a : HostAction} {es : List Event} (hinv : IssuerInv C steps s)
    (htaken : (host d).step s a = some (s', es)) :
    IssuerInv C (steps ++ [⟨s, a, es, s'⟩]) s' := by
  intro receiptId p hp
  rw [issuer_snoc] at hp
  cases a with
  | restart key =>
      cases htaken
      exact hinv receiptId p hp
  | run rails a =>
      obtain ⟨heffect, -⟩ := step_effect (d := { d with rails := rails }) C htaken
      rcases Effect.receipts (d := { d with rails := rails }) C heffect with
        ⟨hnone, hsame⟩ | ⟨call, q, r, rest, rfl, hquiet, hafter⟩
      · rw [issuedIn_unsettled hnone, Option.none_or] at hp
        have hold := hinv receiptId p hp
        rw [State.books] at hsame ⊢
        rw [hsame]
        exact hold
      · rw [issuedIn_settled hquiet] at hp
        have hkey : (C.savedReceipt (issuedBy q r)).id = r.id := C.savedReceipt_id _
        have hbooks : (C.books s'.world.store).receipts =
            receiptsAfter C s.world.store (issuedBy q r) := hafter
        show ∃ receipt, (C.books s'.world.store).receipts.get receiptId = _
        rw [hbooks, receiptsAfter]
        cases hins : d.store.insertReceipt s.world.store (issuedBy q r) with
        | error e =>
            simp only [hins, Except.isOk, Except.toBool, Bool.false_eq_true, and_false,
              if_false, Option.none_or] at hp ⊢
            exact hinv receiptId p hp
        | ok store =>
            simp only [hins, Except.isOk, Except.toBool, and_true] at hp ⊢
            by_cases hid : r.id = receiptId
            · rw [if_pos hid, Option.some_or] at hp
              cases hp
              exact ⟨r, by rw [← hid, ← hkey, Table.get_put_self]⟩
            · rw [if_neg hid, Option.none_or] at hp
              obtain ⟨receipt, hreceipt⟩ := hinv receiptId p hp
              refine ⟨receipt, ?_⟩
              rw [Table.get_put_of_ne (by rw [hkey]; exact Ne.symm hid)]
              exact hreceipt

/-- **The books know the issuer.**  A stored receipt is what the store keeps of
a receipt of its issuer. -/
theorem issuer_run {s₀ s : State σ} {steps : List (Step (State σ) HostAction Event)}
    (hrun : (host d).Run anyStep s₀ steps s) : IssuerInv C steps s := by
  refine hrun.invariant (fun steps s => IssuerInv C steps s) ?_ ?_
  · intro receiptId p hp
    cases hp
  · intro steps s a s' es ih _ htaken
    exact issuer_step C ih htaken

/-! ## Where a refund goes -/

/-- A refund goes to the registered provider the receipt names, or else to the
one that serves the rail. -/
theorem refundProvider_cases (rails : RailRegistry) (receipt : Receipt) (rail : RailKind) :
    (∃ p, receipt.providerId = some p.capabilities.id ∧ p.capabilities.id ≠ "" ∧
      rails.byId p.capabilities.id = some p ∧
      refundProvider { d with rails := rails } receipt rail = some p) ∨
    (∀ id, receipt.providerId = some id → id ≠ "" → rails.byId id = none) ∧
      refundProvider { d with rails := rails } receipt rail = rails.get rail := by
  unfold refundProvider
  cases hnamed : receipt.providerId with
  | none => exact Or.inr ⟨by simp, by simp⟩
  | some id =>
      by_cases hid : id = ""
      · exact Or.inr ⟨by simp [hid], by simp [hid]⟩
      · cases hp : rails.byId id with
        | none =>
            refine Or.inr ⟨?_, by simp [hid, hp]⟩
            rintro id' ⟨⟩ _
            exact hp
        | some p =>
            have hpid := RailRegistry.byId_id hp
            subst hpid
            exact Or.inl ⟨p, rfl, hid, hp, by simp [hid, hp]⟩

/-- When the refund of a stored intent can not go astray: it is refused before
a provider is chosen, or the receipt as read back names its issuer and the
issuer is registered, or no other provider serves the rail that would refund. -/
def RefundSafe (rails : RailRegistry) (x : StoredIntent) (receipt : Receipt)
    (amountMinor : Option JsNumber) (issuerId : String) : Prop :=
  x.status ≠ .settled ∨ badRefund x amountMinor ∨
    (receipt.providerId = some issuerId ∧ issuerId ≠ "" ∧
      (rails.byId issuerId).isSome = true) ∨
    ∀ p, rails.get x.intent.rail = some p → p.capabilities.reversibility = .reversible →
      p.canRefund = true → p.capabilities.id = issuerId

/-- A step of `refund` asks a provider, or leaves everything as it was. -/
theorem refund_step_cases {s s' : State σ} {es : List Event} {now intentId : String}
    {amountMinor : Option JsNumber} {reason : Option String}
    (h : step d s (.refund now intentId amountMinor reason) = some (s', es)) :
    (∃ call, refund d s.world.store now intentId amountMinor reason = .ok (.awaiting call) ∧
      es = [.refundInvoked call]) ∨
    (∀ call, refund d s.world.store now intentId amountMinor reason ≠ .ok (.awaiting call)) ∧
      s' = s ∧ ∀ call, .refundInvoked call ∉ es := by
  simp only [step] at h
  split at h
  · next result hrefund =>
      cases h
      exact Or.inr ⟨by simp [hrefund], rfl, by simp⟩
  · next call hrefund =>
      cases h
      exact Or.inl ⟨call, hrefund, rfl⟩
  · next e hrefund =>
      cases h
      exact Or.inr ⟨by simp [hrefund], rfl, by simp⟩

include C in
/-- **A refund goes to the issuer or is refused, exactly when it is safe**: in
every run, over every sequence of rail configurations and restarts. -/
theorem refund_reaches_issuer_iff {s₀ s s' : State σ}
    {steps : List (Step (State σ) HostAction Event)}
    (hrun : (host d).Run anyStep s₀ steps s) {rails : RailRegistry} {now intentId : String}
    {amountMinor : Option JsNumber} {reason : Option String} {es : List Event}
    (htaken : (host d).step s (.run rails (.refund now intentId amountMinor reason)) =
      some (s', es))
    {x : StoredIntent} {receipt : Receipt} {p : PaymentProvider}
    (hstored : d.store.getIntent s.world.store intentId = some x)
    (hreceipt : storedReceipt d s.world.store x = some receipt)
    (hissuer : issuer d receipt.id steps = some p) :
    ((∀ call, .refundInvoked call ∈ es →
        call.provider.capabilities.id = p.capabilities.id) ∧
      ((∀ call, .refundInvoked call ∉ es) → s' = s)) ↔
    RefundSafe rails x receipt amountMinor p.capabilities.id := by
  -- what the store kept of the issuer
  have hkept : receipt.providerId = some p.capabilities.id ∨ receipt.providerId = none := by
    obtain ⟨r, hr⟩ := issuer_run C hrun receipt.id p hissuer
    have hread : (s.books C).receipts.get receipt.id = some receipt := by
      unfold storedReceipt at hreceipt
      split at hreceipt
      · split at hreceipt
        · rw [C.getReceipt] at hreceipt
          rw [Table.key_of_get hreceipt]
          exact hreceipt
        · cases hreceipt
      · cases hreceipt
    rw [hread] at hr
    cases hr
    exact C.savedReceipt_issuer (issuedBy p r)
  have hstep := refund_step_cases (d := { d with rails := rails }) htaken
  constructor
  · rintro ⟨hgoes, -⟩
    by_contra hunsafe
    simp only [RefundSafe, not_or, not_not, not_and, not_forall] at hunsafe
    obtain ⟨hsettled, hgood, hunnamed, q, hserves, hrev, hcan, hother⟩ := hunsafe
    have hprov : refundProvider { d with rails := rails } receipt x.intent.rail = some q := by
      rcases refundProvider_cases (d := d) rails receipt x.intent.rail with
        ⟨q', hname, hne, hreg, -⟩ | ⟨-, hfall⟩
      · rcases hkept with h | h
        · have hid := Option.some.inj (h.symm.trans hname)
          rw [← hid] at hne hreg
          exact absurd (by rw [hreg]; rfl) (hunnamed h hne)
        · rw [h] at hname
          cases hname
      · rw [hfall, hserves]
    have hawait := (refund_awaiting_iff { d with rails := rails } now reason).2
      ⟨x, receipt, q, hstored, hsettled, hreceipt, hprov, hrev, hcan, hgood, rfl⟩
    rcases hstep with ⟨call, hcall, rfl⟩ | ⟨hno, -, -⟩
    · rw [hawait] at hcall
      cases hcall
      exact hother (hgoes _ (List.mem_singleton.2 rfl))
    · exact hno _ hawait
  · intro hsafe
    rcases hstep with ⟨call, hcall, rfl⟩ | ⟨-, hsame, hnone⟩
    · refine ⟨?_, fun h => absurd (List.mem_singleton.2 rfl) (h call)⟩
      intro call' hmem
      cases List.mem_singleton.1 hmem
      obtain ⟨x', receipt', q, hx', hsettled, hr', hprov, hrev, hcan, hgood, rfl⟩ :=
        (refund_awaiting_iff _ _ _).1 hcall
      rw [show d.store.getIntent s.world.store intentId = some x' from hx'] at hstored
      cases hstored
      rw [show storedReceipt d s.world.store x = some receipt' from hr'] at hreceipt
      cases hreceipt
      show q.capabilities.id = p.capabilities.id
      rcases refundProvider_cases (d := d) rails receipt x.intent.rail with
        ⟨q', hname, -, -, hq'⟩ | ⟨hunreg, hfall⟩
      · rw [hprov] at hq'
        cases hq'
        rcases hkept with h | h
        · exact (Option.some.inj (h.symm.trans hname)).symm
        · rw [h] at hname
          cases hname
      · rw [hprov] at hfall
        rcases hsafe with h | h | ⟨hname, hne, hreg⟩ | h
        · exact absurd hsettled h
        · exact absurd h hgood
        · rw [hunreg _ hname hne] at hreg
          cases hreg
        · exact h q hfall.symm hrev hcan
    · exact ⟨fun call hmem => absurd hmem (hnone call), fun _ => hsame⟩

/-- The receipts that rails returned and the provider each came from. -/
def settledBy (es : List Event) : List (String × String) :=
  es.filterMap fun e =>
    match e with
    | .railSettled _ provider receipt => some (receipt.id, provider.capabilities.id)
    | _ => none

/-- The receipts that were refunded and the provider each refund was sent to. -/
def refundedBy (es : List Event) : List (String × String) :=
  es.filterMap fun e =>
    match e with
    | .refundInvoked call => some (call.receipt.id, call.provider.capabilities.id)
    | _ => none

namespace Sample

/-- A second card provider. -/
def otherRail : PaymentProvider where
  capabilities := { id := "tap", rail := .card, reversibility := .reversible }
  canRefund := true

/-- Both providers, with cards routed to one of them. -/
def routed (id : String) : RailRegistry where
  providers := [cardRail, otherRail]
  routes _ := some id

/-- One payment through the provider `acp`. -/
def paidThroughAcp : List HostAction :=
  [.run (routed "acp") (pay "a" 40), .run (routed "acp") (settles 0 "a" 40),
    .run (routed "acp") (.resume 0)]

end Sample

/-- The in-memory store remembers the issuer across a re-route. -/
theorem refund_reaches_issuer_rerouted :
    ∃ steps s s' es x receipt, ∃ p : PaymentProvider,
    (host Sample.deps).Run anyStep Sample.start steps s ∧
    (host Sample.deps).step s
      (.run (Sample.routed "tap") (.refund Sample.noon "a" none none)) = some (s', es) ∧
    Sample.deps.store.getIntent s.world.store "a" = some x ∧
    (((∀ call, .refundInvoked call ∈ es →
        call.provider.capabilities.id = p.capabilities.id) ∧
      ((∀ call, .refundInvoked call ∉ es) → s' = s)) ↔
    RefundSafe (Sample.routed "tap") x receipt none p.capabilities.id) := by
  obtain ⟨steps, s, hrun, hfound⟩ := System.exists_run (host Sample.deps)
    anyStep Sample.start Sample.paidThroughAcp
    (fun steps s =>
      ((host Sample.deps).step s
        (.run (Sample.routed "tap") (.refund Sample.noon "a" none none))).isSome &&
      ((Sample.deps.store.getIntent s.world.store "a").bind fun x =>
        (storedReceipt Sample.deps s.world.store x).bind fun receipt =>
          issuer Sample.deps receipt.id steps).isSome) (by decide +kernel)
  rw [Bool.and_eq_true, Option.isSome_iff_exists, Option.isSome_iff_exists] at hfound
  obtain ⟨⟨⟨s', es⟩, htaken⟩, p, hp⟩ := hfound
  obtain ⟨x, hx, hrest⟩ := Option.bind_eq_some_iff.1 hp
  obtain ⟨receipt, hreceipt, hissuer⟩ := Option.bind_eq_some_iff.1 hrest
  exact ⟨steps, s, s', es, x, receipt, p, hrun, htaken, hx,
    refund_reaches_issuer_iff (d := Sample.deps) memoryContract hrun htaken hx hreceipt hissuer⟩

/-- The SQLite store forgets it: the payment went through one provider and its
refund is sent to another. -/
theorem sqlite_refund_goes_astray : ∃ steps s,
    (host { Sample.deps with store := sqliteStore }).Run anyStep Sample.start steps s ∧
      settledBy (events steps) = [("receipt-a", "acp")] ∧
      refundedBy (events steps) = [("receipt-a", "tap")] := by
  obtain ⟨steps, s, hrun, hids⟩ := System.exists_run
    (host { Sample.deps with store := sqliteStore })
    anyStep Sample.start
    (Sample.paidThroughAcp ++
      [.run (Sample.routed "tap") (.refund Sample.noon "a" none none)])
    (fun steps _ => decide (settledBy (events steps) = [("receipt-a", "acp")] ∧
      refundedBy (events steps) = [("receipt-a", "tap")])) (by decide +kernel)
  exact ⟨steps, s, hrun, of_decide_eq_true hids⟩

end AgentWorth
