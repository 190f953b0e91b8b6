import AgentWorth.Executor.Deployment
import AgentWorth.Executor.InFlight
import AgentWorth.Executor.Rows
import AgentWorth.Executor.Writes
import AgentWorth.Ingress.Server
import AgentWorth.Lib.Slots

/-!
# Idempotency keys

The key of a request is looked up when the request arrives and remembered when
its payment has ended, so in between a retry is a new payment.  A key executes
once when nobody retries while the first request is under way, or after it has
thrown: the discipline `OneAttempt`.
-/

namespace AgentWorth

open AgentWorth.Js AgentWorth.Lib

variable {σ : Type} {d : ExecutorDeps σ} (C : Contract d.store)

/-! ## What a payment that ends leaves -/

/-- A row is stored under the id. -/
def Filed (store : σ) (id : String) : Prop := ∃ x, (C.books store).intents.get id = some x

theorem Filed.inserted {store store' : σ} {x : StoredIntent}
    (h : d.store.insertIntent store x = .ok store') : Filed C store' x.id := by
  obtain ⟨-, hbooks⟩ := C.insertIntent_spec h
  refine ⟨C.saved x, ?_⟩
  rw [hbooks, ← C.saved_id x]
  exact Table.get_put_self _ _

theorem Filed.step {s s' : State σ} {a : Action} {es : List Event} {id : String}
    (h : Filed C s.world.store id) (heffect : Effect C s a s' es) : Filed C s'.world.store id := by
  obtain ⟨x, hx⟩ := h
  obtain ⟨x', hx', -⟩ := heffect.row C hx
  exact ⟨x', hx'⟩

/-- An `execute` call that returns at once has filed its intent. -/
theorem execute_done {src : Sources} {now : String} {intent : PaymentIntent}
    {attestation : Option Attestation} {w w' : World σ} {r : ExecuteResult}
    (h : execute d src now intent attestation w = .ok (.done r) w') :
    r.intentId = intent.id ∧ Filed C w'.store intent.id := by
  have hrun := execute_run d src now intent attestation w
  rw [h] at hrun
  cases hrun with
  | halted halts recorded filed => exact ⟨rfl, Filed.inserted C filed⟩
  | blocked runs decides captures recorded blocks filed counted =>
      refine ⟨rfl, ?_⟩
      obtain ⟨x, hx⟩ := Filed.inserted C filed
      exact ⟨x, by rw [(recordOutcome_spec C counted).1.intents]; exact hx⟩
  | parked runs decides captures recorded confirms filed => exact ⟨rfl, Filed.inserted C filed⟩

/-- A rail's answer ends a call only in an error. -/
theorem answered_not_ok {s : State σ} {k : Nat} {call : Call} {answer : Event}
    {x : EStateM.Result String (World σ) (Except String (Receipt × Bool))} {r : ExecuteResult}
    (hanswer : answer.outcome = none) :
    (s.answered k call answer x).2.findSome? Event.outcome ≠ some (.ok r) := by
  cases x with
  | ok outcome w => simp [State.answered, hanswer]
  | error e w =>
      simp only [State.answered, List.findSome?_cons, hanswer]
      simp [Event.outcome]

/-- A suspended call returns only when it is resumed. -/
theorem finished_of_slot {s s' : State σ} {a : Action} {es : List Event} {k : Nat} {call : Call}
    {r : ExecuteResult} (htaken : step d s a = some (s', es)) (hk : a.slot = some k)
    (hcall : s.calls[k]? = some call) (hfound : es.findSome? Event.outcome = some (.ok r)) :
    .finished call r ∈ es := by
  cases a with
  | railReturns j receipt verified =>
      obtain ⟨⟨waiting, provider⟩, -, heq⟩ := Option.map_eq_some_iff.1 htaken
      refine absurd hfound ?_
      have hes := congrArg Prod.snd heq
      simp only at hes
      rw [← hes]
      exact answered_not_ok rfl
  | railThrows j error =>
      obtain ⟨⟨waiting, provider⟩, -, heq⟩ := Option.map_eq_some_iff.1 htaken
      refine absurd hfound ?_
      have hes := congrArg Prod.snd heq
      simp only at hes
      rw [← hes]
      exact answered_not_ok rfl
  | resume j =>
      obtain ⟨⟨waiting, outcome⟩, hwait, heq⟩ := Option.map_eq_some_iff.1 htaken
      cases hk
      have hsame : waiting = call := by
        rw [(atResume_iff.1 hwait).1] at hcall
        exact Option.some.inj hcall
      subst hsame
      have hes := congrArg Prod.snd heq
      simp only at hes
      subst hes
      cases hfinish : finish d waiting outcome s.world <;>
        simp [hfinish, State.conclude, Event.outcome] at hfound ⊢
      rw [hfound]
  | execute | approve | refund | refundReturns | refundThrows | grantMandate | revokeMandate
  | amendMandate | extendMandate | engageKillSwitch | disengageKillSwitch
  | resetCircuitBreaker => cases hk

/-- A suspended `execute` call that returns has filed its intent. -/
theorem endedCall_ok {s s' : State σ} {a : Action} {es : List Event} {id : String}
    {r : ExecuteResult} (hcalls : ∀ call ∈ s.calls, call.Sound)
    (htaken : step d s a = some (s', es)) (h : endedCall s a es = some (id, .ok r)) :
    r.intentId = id ∧ Filed C s'.world.store id := by
  obtain ⟨call, hcall, hout⟩ := Option.bind_eq_some_iff.1 h
  obtain ⟨hslot, hentry⟩ := Option.filter_eq_some_iff.1 hcall
  obtain ⟨k, hk, hget⟩ := Option.bind_eq_some_iff.1 hslot
  obtain ⟨outcome, hfound, heq⟩ := Option.map_eq_some_iff.1 hout
  obtain ⟨rfl, rfl⟩ := Prod.mk.inj heq
  have hmem := finished_of_slot htaken hk hget hfound
  obtain ⟨heffect, -⟩ := step_effect C htaken
  obtain ⟨j, result, -, -, -, rfl, -, hleft⟩ := heffect.finished C hmem
  have hid : (settlementResult call result).intentId = call.intentId := by
    cases result <;> rfl
  refine ⟨hid.trans (hcalls call (List.mem_of_getElem? hget)).named, ?_⟩
  cases hleft with
  | execute entry fresh intents =>
      refine ⟨C.saved (executedIntent call result), ?_⟩
      have hput : (C.books s'.world.store).intents = _ := intents
      rw [hput, ← executedIntent_id call result, ← C.saved_id]
      exact Table.get_put_self _ _
  | approve entry present intents =>
      rw [entry] at hentry
      cases hentry

/-! ## The entry of a key -/

theorem idempotencyMetaKey_injective {key key' : String}
    (h : idempotencyMetaKey key = idempotencyMetaKey key') : key = key' :=
  (String.append_right_inj "idem:").1 h

/-- The executor's own keys do not name an idempotency key. -/
theorem idempotencyMetaKey_ne {key k : String} (own : k = killKey ∨ k = failKey) :
    idempotencyMetaKey key ≠ k := by
  intro h
  have hchars := congrArg String.toList h
  rcases own with rfl | rfl <;> simp [idempotencyMetaKey, killKey, failKey] at hchars

/-- What the store remembers of a key. -/
def remembered (d : ExecutorDeps σ) (key : String) (w : World σ) : Option String :=
  d.store.getMeta w.store (idempotencyMetaKey key)

def SameKey (d : ExecutorDeps σ) (key : String) (w w' : World σ) : Prop :=
  remembered d key w' = remembered d key w

include C in
theorem sameKey_of_meta {key : String} {w w' : World σ}
    (h : (C.books w'.store).meta' = (C.books w.store).meta') : SameKey d key w w' := by
  unfold SameKey remembered
  rw [C.getMeta, C.getMeta, h]

include C in
/-- The executor leaves the keys alone. -/
theorem sameKey_rule (key : String) : StepRule d (SameKey d key) where
  refl _ := rfl
  trans h h' := Eq.trans h' h
  write {w store} h := by
    cases h with
    | setMeta v own =>
        unfold SameKey remembered
        rw [C.getMeta, C.getMeta, C.setMeta, Books.setMeta, JsMap.get_set,
          if_neg (idempotencyMetaKey_ne own)]
    | revokeMandate id => exact sameKey_of_meta C (by simp only [C.revokeMandate]; rfl)
    | insertMandate written =>
        obtain ⟨-, hbooks⟩ := C.insertMandate_spec written
        exact sameKey_of_meta C (by rw [hbooks])
    | updateMandate written =>
        have hbooks := C.updateMandate written
        exact sameKey_of_meta C (by rw [hbooks]; rfl)
    | insertIntent written =>
        obtain ⟨-, hbooks⟩ := C.insertIntent_spec written
        exact sameKey_of_meta C (by rw [hbooks])
    | updateIntent written =>
        obtain ⟨x, -, hbooks⟩ := C.updateIntent_spec written
        exact sameKey_of_meta C (by rw [hbooks])
    | insertReceipt written =>
        have hbooks := C.insertReceipt written
        exact sameKey_of_meta C (by rw [hbooks]; rfl)
  record type members ts := by
    intro w
    unfold record
    split
    · rfl
    · split
      · rfl
      · next store hstore =>
          obtain ⟨rows, -, hbooks⟩ := C.appendAudit hstore
          exact sameKey_of_meta C (by simp only [stateAfter]; rw [hbooks])

/-! ## Runs of the ingress -/

/-- The intents executed for a key, in order. -/
def invokedIds (key : String) (es : List IngressEvent) : List String :=
  es.filterMap fun e =>
    match e with
    | .invoked k id => if k = some key then some id else none
    | _ => none

/-- The intents named by the answers to valid requests with a key, in order. -/
def answeredIds (key : String) (es : List IngressEvent) : List JsValue :=
  es.filterMap fun e =>
    match e with
    | .answered k true response =>
        if k = some key then some (response.body.get "intentId") else none
    | _ => none

/-- A valid request with the key arrives and is not answered at once. -/
def keptWaiting (key : String) (t : Step (Ingress σ) IngressAction IngressEvent) : Bool :=
  match t.action with
  | .receive rawBody k _ _ => k == some key && (bodyDraft rawBody).isSome && t.events.isEmpty
  | _ => false

/-- A key is executed at most once, and every other valid request with it is
answered, at once and with the intent of that execution. -/
structure ExecutedOnce (key : String)
    (steps : List (Step (Ingress σ) IngressAction IngressEvent)) : Prop where
  once : (invokedIds key (events steps)).length ≤ 1
  others : (steps.filter (keptWaiting key)).length ≤ 1
  answers : ∀ v ∈ answeredIds key (events steps),
    ∃ id, invokedIds key (events steps) = [id] ∧ v = .str id

/-- `newId` answers fresh ids, and nobody else pays under them. -/
def FreshIds (d : ExecutorDeps σ) : Guard (Ingress σ) IngressAction IngressEvent := fun _ t a =>
  match a with
  | .receive _ _ newId _ =>
      newId ≠ "" ∧ d.store.getIntent t.executor.world.store newId = none ∧
        (∀ call ∈ t.executor.calls, call.intent.id ≠ newId) ∧
          ∀ h ∈ t.requests, h.intent.id ≠ newId
  | .run (.execute _ _ intent _) => ∀ h ∈ t.requests, h.intent.id ≠ intent.id
  | _ => True

instance (steps : List (Step (Ingress σ) IngressAction IngressEvent)) (t : Ingress σ)
    (a : IngressAction) : Decidable (FreshIds d steps t a) :=
  match a with
  | .receive .. => inferInstanceAs (Decidable (_ ∧ _ ∧ _ ∧ _))
  | .run (.execute ..) => inferInstanceAs (Decidable (∀ h ∈ t.requests, _))
  | .attest .. | .respond .. => inferInstanceAs (Decidable True)
  | .run (.approve ..) | .run (.railReturns ..) | .run (.railThrows ..) | .run (.resume ..)
  | .run (.refund ..) | .run (.refundReturns ..) | .run (.refundThrows ..)
  | .run (.grantMandate ..) | .run (.revokeMandate ..) | .run (.amendMandate ..)
  | .run (.extendMandate ..) | .run .engageKillSwitch | .run .disengageKillSwitch
  | .run .resetCircuitBreaker => inferInstanceAs (Decidable True)

/-- A request with the key has thrown. -/
def IngressEvent.rejects (key : String) : IngressEvent → Bool
  | .rejected k _ => k == some key
  | _ => false

/-- No valid request with the key arrives while another is under way, or after
one has thrown. -/
def OneAttempt (d : ExecutorDeps σ) (key : String) :
    Guard (Ingress σ) IngressAction IngressEvent := fun steps t a =>
  FreshIds d steps t a ∧
    match a with
    | .receive rawBody k _ _ =>
        k = some key → (bodyDraft rawBody).isSome = true →
          (∀ h ∈ t.requests, h.idempotencyKey ≠ some key) ∧
            (events steps).any (IngressEvent.rejects key) = false
    | _ => True

instance (key : String) (steps : List (Step (Ingress σ) IngressAction IngressEvent))
    (t : Ingress σ) (a : IngressAction) : Decidable (OneAttempt d key steps t a) :=
  match a with
  | .receive .. => inferInstanceAs (Decidable (_ ∧ (_ → _ → (∀ h ∈ t.requests, _) ∧ _)))
  | .attest .. | .respond .. | .run .. => inferInstanceAs (Decidable (_ ∧ True))

/-! ## What a step does for a key -/

/-- The requests with a key that are under way. -/
def underWay (key : String) (t : Ingress σ) : List Handling :=
  t.requests.filter fun h => h.idempotencyKey == some key

/-- The events say nothing about the key. -/
structure SilentOn (key : String) (es : List IngressEvent) : Prop where
  invoked : invokedIds key es = []
  answered : answeredIds key es = []
  rejected : es.any (IngressEvent.rejects key) = false

theorem silentOn_nil (key : String) : SilentOn key [] := ⟨rfl, rfl, rfl⟩

/-- The key of the request that an event is about. -/
def IngressEvent.key : IngressEvent → Option String
  | .invoked k _ => k
  | .answered k _ _ => k
  | .rejected k _ => k

theorem silentOn_other {key : String} {e : IngressEvent} (h : e.key ≠ some key) :
    SilentOn key [e] := by
  have hne : (e.key == some key) = false := by simpa using h
  cases e with
  | invoked k id => exact ⟨by simp [invokedIds, show k ≠ some key from h], rfl, rfl⟩
  | answered k valid response =>
      refine ⟨rfl, ?_, rfl⟩
      cases valid with
      | true => simp [answeredIds, show k ≠ some key from h]
      | false => rfl
  | rejected k e =>
      refine ⟨rfl, rfl, ?_⟩
      rw [List.any_cons, List.any_nil, Bool.or_false]
      exact hne

/-- What a step does for a key. -/
inductive KeyChange (d : ExecutorDeps σ) (key : String) (t : Ingress σ) :
    IngressAction → Ingress σ → List IngressEvent → Prop
  /-- nothing, but that the payment a request waits for may end -/
  | apart {a : IngressAction} {t' : Ingress σ} {es : List IngressEvent}
      (requests : ∃ ended, underWay key t' = (underWay key t).map (Handling.told ended))
      (entry : SameKey d key t.executor.world t'.executor.world)
      (silent : SilentOn key es) (unkept : keptWaiting key ⟨t, a, es, t'⟩ = false) :
      KeyChange d key t a t' es
  | replayed {rawBody : String} {newId createdAt : String} {replay : IngressResponse}
      (valid : (bodyDraft rawBody).isSome = true)
      (seen : replayIfSeen d t.executor.world.store key = some replay) :
      KeyChange d key t (.receive rawBody (some key) newId createdAt) t
        [.answered (some key) true replay]
  | arrived {rawBody : String} {newId createdAt : String} {h : Handling} {t' : Ingress σ}
      (valid : (bodyDraft rawBody).isSome = true)
      (unseen : replayIfSeen d t.executor.world.store key = none)
      (phase : h.phase = .attesting)
      (requests : underWay key t' = underWay key t ++ [h])
      (executor : t'.executor = t.executor) :
      KeyChange d key t (.receive rawBody (some key) newId createdAt) t' []
  | invoked {i : Nat} {now : String} {src : Sources} {found : Option Attestation}
      {h : Handling} {phase : Phase} {rest : List Handling} {t' : Ingress σ}
      (keyed : h.idempotencyKey = some key) (waiting : h.phase = .attesting)
      (goes : phase ≠ .attesting)
      (before : (underWay key t).Perm (h :: rest))
      (after : (underWay key t').Perm ({ h with phase } :: rest))
      (entry : SameKey d key t.executor.world t'.executor.world) :
      KeyChange d key t (.attest i now src (.ok found)) t' [.invoked h.idempotencyKey h.intent.id]
  | answered {i : Nat} {h : Handling} {result : ExecuteResult} {t' : Ingress σ}
      (phase : h.phase = .executed (.ok result)) (mem : h ∈ t.requests)
      (before : (underWay key t).Perm (h :: underWay key t'))
      (entry : remembered d key t'.executor.world = some result.intentId) :
      KeyChange d key t (.respond i) t'
        [.answered (some key) true (executeResponse result)]
  | rejected {a : IngressAction} {h : Handling} {e : String} {t' : Ingress σ}
      (before : (underWay key t).Perm (h :: underWay key t'))
      (executor : t'.executor = t.executor)
      (unkept : keptWaiting key ⟨t, a, [.rejected (some key) e], t'⟩ = false) :
      KeyChange d key t a t' [.rejected (some key) e]

@[simp] theorem told_none (h : Handling) : h.told none = h := rfl

@[simp] theorem told_key (ended : Option (String × Except String ExecuteResult)) (h : Handling) :
    (h.told ended).idempotencyKey = h.idempotencyKey := by
  unfold Handling.told
  split
  · split <;> rfl
  · rfl

/-- Steps that leave the requests with the key as they are. -/
theorem KeyChange.still {key : String} {t t' : Ingress σ} {a : IngressAction}
    {es : List IngressEvent} (requests : underWay key t' = underWay key t)
    (entry : SameKey d key t.executor.world t'.executor.world) (silent : SilentOn key es)
    (unkept : keptWaiting key ⟨t, a, es, t'⟩ = false) : KeyChange d key t a t' es := by
  refine .apart ⟨none, ?_⟩ entry silent unkept
  rw [requests]
  exact (List.map_id _).symm

theorem keyChange_receive {key : String} (hkey : key ≠ "") {t t' : Ingress σ}
    {rawBody newId createdAt : String} {k : Option String} {es : List IngressEvent}
    (htaken : ingressStep d t (.receive rawBody k newId createdAt) = some (t', es)) :
    KeyChange d key t (.receive rawBody k newId createdAt) t' es := by
  simp only [ingressStep] at htaken
  by_cases hk : k = some key
  · subst hk
    have hfilter : (some key).filter (· != "") = some key := by simp [hkey]
    rw [hfilter, Option.bind_some] at htaken
    cases hseen : replayIfSeen d t.executor.world.store key with
    | some replay =>
        rw [hseen] at htaken
        cases htaken
        cases hvalid : (bodyDraft rawBody).isSome with
        | true => exact .replayed hvalid hseen
        | false =>
            exact .still rfl rfl ⟨rfl, rfl, rfl⟩ (by simp [keptWaiting])
    | none =>
        rw [hseen] at htaken
        cases hdraft : bodyDraft rawBody with
        | none =>
            rw [hdraft] at htaken
            cases htaken
            exact .still rfl rfl ⟨rfl, rfl, rfl⟩ (by simp [keptWaiting])
        | some draft =>
            rw [hdraft] at htaken
            cases htaken
            refine .arrived (h := ⟨some key, draft.intent newId createdAt, .attesting⟩)
              (by rw [hdraft]; rfl) hseen rfl ?_ rfl
            simp [underWay]
  · have hother : (k == some key) = false := by simpa using hk
    split at htaken
    · cases htaken
      exact .still rfl rfl (silentOn_other hk) (by simp [keptWaiting])
    · split at htaken
      · cases htaken
        exact .still rfl rfl ⟨rfl, rfl, rfl⟩ (by simp [keptWaiting])
      · cases htaken
        refine .still ?_ rfl (silentOn_nil key) (by simp [keptWaiting, hother])
        simp [underWay, hother]

include C in
theorem keyChange_attest {key : String} {t t' : Ingress σ} {i : Nat} {now : String}
    {src : Sources} {attestation : Except String (Option Attestation)} {es : List IngressEvent}
    (htaken : ingressStep d t (.attest i now src attestation) = some (t', es)) :
    KeyChange d key t (.attest i now src attestation) t' es := by
  obtain ⟨h, hget, hstep⟩ := Option.bind_eq_some_iff.1 htaken
  cases hphase : h.phase with
  | executing => simp [hphase] at hstep
  | executed outcome => simp [hphase] at hstep
  | attesting =>
      rw [hphase] at hstep
      by_cases hk : h.idempotencyKey = some key
      · have hp : (h.idempotencyKey == some key) = true := by simpa using hk
        cases attestation with
        | error e =>
            cases hstep
            rw [hk]
            exact .rejected (perm_filter_eraseIdx hget hp) rfl rfl
        | ok found =>
            obtain ⟨⟨s', ses⟩, hs, heq⟩ := Option.map_eq_some_iff.1 hstep
            cases heq
            refine .invoked hk hphase ?_ (perm_filter_eraseIdx hget hp)
              (perm_filter_set hget hp) ((sameKey_rule C key).of_step hs)
            unfold phaseAfter
            split <;> simp
      · have hp : (h.idempotencyKey == some key) = false := by simpa using hk
        cases attestation with
        | error e =>
            cases hstep
            exact .still (filter_eraseIdx_of_neg hget hp) rfl (silentOn_other hk) rfl
        | ok found =>
            obtain ⟨⟨s', ses⟩, hs, heq⟩ := Option.map_eq_some_iff.1 hstep
            cases heq
            exact .still (filter_set_of_neg hget hp hp) ((sameKey_rule C key).of_step hs)
              (silentOn_other hk) rfl

include C in
/-- Remembering one key says nothing about another. -/
theorem remembered_rememberKey {key key' id : String} (w : World σ) :
    remembered d key { w with store := rememberKey d w.store key' id } =
      if key = key' then some id else remembered d key w := by
  unfold remembered rememberKey
  rw [C.getMeta, C.getMeta, C.setMeta, Books.setMeta, JsMap.get_set]
  by_cases hkey : key = key'
  · rw [if_pos hkey, if_pos (by rw [hkey])]
  · rw [if_neg hkey, if_neg fun h => hkey (idempotencyMetaKey_injective h)]

include C in
theorem keyChange_respond {key : String} (hkey : key ≠ "") {t t' : Ingress σ} {i : Nat}
    {es : List IngressEvent} (htaken : ingressStep d t (.respond i) = some (t', es)) :
    KeyChange d key t (.respond i) t' es := by
  obtain ⟨h, hget, hstep⟩ := Option.bind_eq_some_iff.1 htaken
  cases hphase : h.phase with
  | attesting => simp [hphase] at hstep
  | executing => simp [hphase] at hstep
  | executed outcome =>
      rw [hphase] at hstep
      by_cases hk : h.idempotencyKey = some key
      · have hp : (h.idempotencyKey == some key) = true := by simpa using hk
        have hfilter : h.idempotencyKey.filter (· != "") = some key := by simp [hk, hkey]
        cases outcome with
        | error e =>
            cases hstep
            rw [hk]
            exact .rejected (perm_filter_eraseIdx hget hp) rfl rfl
        | ok result =>
            simp only [hfilter] at hstep
            cases hstep
            rw [hk]
            refine .answered hphase (mem_of_slot hget) (perm_filter_eraseIdx hget hp) ?_
            simp only
            rw [remembered_rememberKey C, if_pos rfl]
      · have hp : (h.idempotencyKey == some key) = false := by simpa using hk
        cases outcome with
        | error e =>
            cases hstep
            exact .still (filter_eraseIdx_of_neg hget hp) rfl (silentOn_other hk) rfl
        | ok result =>
            cases hstep
            refine .still (filter_eraseIdx_of_neg hget hp) ?_ (silentOn_other hk) rfl
            unfold SameKey
            simp only
            split
            · next key' hkey' =>
                obtain ⟨hsome, -⟩ := Option.filter_eq_some_iff.1 hkey'
                rw [remembered_rememberKey C, if_neg]
                rintro rfl
                exact hk hsome
            · rfl

include C in
theorem keyChange_of_step {key : String} (hkey : key ≠ "") {t t' : Ingress σ}
    {a : IngressAction} {es : List IngressEvent}
    (htaken : ingressStep d t a = some (t', es)) : KeyChange d key t a t' es := by
  cases a with
  | receive rawBody k newId createdAt => exact keyChange_receive hkey htaken
  | attest i now src attestation => exact keyChange_attest C htaken
  | respond i => exact keyChange_respond C hkey htaken
  | run a =>
      obtain ⟨⟨s', ses⟩, hs, heq⟩ := Option.map_eq_some_iff.1 htaken
      cases heq
      refine .apart ⟨endedCall t.executor a ses, ?_⟩ ((sameKey_rule C key).of_step hs)
        (silentOn_nil key) rfl
      simp only [underWay, List.filter_map, Function.comp_def, told_key]

/-! ## Requests and the rows they report -/

/-- A request has a named intent, and reports one that is filed. -/
structure Handling.Accounted (store : σ) (h : Handling) : Prop where
  named : h.intent.id ≠ ""
  reported : ∀ r, h.phase = .executed (.ok r) →
    r.intentId = h.intent.id ∧ Filed C store h.intent.id

structure Accounted (t : Ingress σ) : Prop where
  calls : ∀ call ∈ t.executor.calls, call.Sound
  requests : ∀ h ∈ t.requests, h.Accounted C t.executor.world.store

theorem Handling.Accounted.mono {store store' : σ} {h : Handling} (hacc : h.Accounted C store)
    (hkeep : ∀ id, Filed C store id → Filed C store' id) : h.Accounted C store' := by
  refine ⟨hacc.named, ?_⟩
  intro r hr
  obtain ⟨hid, hfiled⟩ := hacc.reported r hr
  exact ⟨hid, hkeep _ hfiled⟩

theorem told_cases (ended : Option (String × Except String ExecuteResult)) (h : Handling) :
    h.told ended = h ∨ ∃ outcome, ended = some (h.intent.id, outcome) ∧ h.phase = .executing ∧
      h.told ended = { h with phase := .executed outcome } := by
  unfold Handling.told
  split
  · next id outcome hphase =>
      split
      · next hid => exact Or.inr ⟨outcome, by rw [hid], hphase, rfl⟩
      · exact Or.inl rfl
  · exact Or.inl rfl

/-- Rows stay filed as the ingress steps. -/
theorem Filed.ingress {t t' : Ingress σ} {a : IngressAction} {es : List IngressEvent}
    {id : String} (hfiled : Filed C t.executor.world.store id)
    (htaken : ingressStep d t a = some (t', es)) : Filed C t'.executor.world.store id := by
  cases a with
  | receive rawBody k newId createdAt =>
      simp only [ingressStep] at htaken
      split at htaken
      · cases htaken
        exact hfiled
      · split at htaken <;> cases htaken <;> exact hfiled
  | attest i now src attestation =>
      obtain ⟨h, -, hstep⟩ := Option.bind_eq_some_iff.1 htaken
      split at hstep
      · cases hstep
        exact hfiled
      · obtain ⟨⟨s', ses⟩, hs, heq⟩ := Option.map_eq_some_iff.1 hstep
        cases heq
        exact hfiled.step C (step_effect C hs).1
      · cases hstep
  | respond i =>
      obtain ⟨h, -, hstep⟩ := Option.bind_eq_some_iff.1 htaken
      split at hstep
      · cases hstep
        simp only
        split
        · obtain ⟨x, hx⟩ := hfiled
          refine ⟨x, ?_⟩
          rw [rememberKey, C.setMeta]
          exact hx
        · exact hfiled
      · cases hstep
        exact hfiled
      · cases hstep
  | run a =>
      obtain ⟨⟨s', ses⟩, hs, heq⟩ := Option.map_eq_some_iff.1 htaken
      cases heq
      exact hfiled.step C (step_effect C hs).1

include C in
theorem calls_sound_step {s s' : State σ} {a : Action} {es : List Event}
    (hcalls : ∀ call ∈ s.calls, call.Sound) (htaken : step d s a = some (s', es)) :
    ∀ call ∈ s'.calls, call.Sound := by
  intro call hcall
  exact ((step_effect C htaken).1.mem_calls C hcall).sound hcalls C

/-- The request whose payment was authorized, blocked or parked. -/
theorem accounted_invoked {s s' : State σ} {now : String} {src : Sources} {h : Handling}
    {attestation : Option Attestation} {es : List Event} (named : h.intent.id ≠ "")
    (htaken : step d s (.execute now src h.intent attestation) = some (s', es)) :
    Handling.Accounted C s'.world.store { h with phase := phaseAfter es } := by
  refine ⟨named, ?_⟩
  intro r hr
  simp only [step, Option.some.injEq] at htaken
  cases hexec : execute d src now h.intent attestation s.world with
  | error e w =>
      rw [hexec] at htaken
      cases htaken
      cases hr
  | ok started w =>
      rw [hexec] at htaken
      cases started with
      | done result =>
          cases htaken
          cases hr
          exact execute_done C hexec
      | awaiting call =>
          unfold State.started at htaken
          cases hstage : call.stage with
          | rail provider =>
              simp only [hstage] at htaken
              cases htaken
              cases hr
          | settled outcome =>
              simp only [hstage] at htaken
              cases htaken
              cases hr

theorem accounted_step {t t' : Ingress σ} {a : IngressAction} {es : List IngressEvent}
    {steps : List (Step (Ingress σ) IngressAction IngressEvent)} (hacc : Accounted C t)
    (hfresh : FreshIds d steps t a) (htaken : ingressStep d t a = some (t', es)) :
    Accounted C t' := by
  have hkeep : ∀ h ∈ t.requests, h.Accounted C t'.executor.world.store := fun h hh =>
    (hacc.requests h hh).mono C fun _ hfiled => hfiled.ingress C htaken
  cases a with
  | receive rawBody k newId createdAt =>
      simp only [ingressStep] at htaken
      split at htaken
      · cases htaken
        exact ⟨hacc.calls, hkeep⟩
      · split at htaken
        · cases htaken
          exact ⟨hacc.calls, hkeep⟩
        · cases htaken
          refine ⟨hacc.calls, ?_⟩
          intro h hh
          rcases List.mem_append.1 hh with hold | hnew
          · exact hkeep h hold
          · rw [List.mem_singleton.1 hnew]
            refine ⟨hfresh.1, ?_⟩
            rintro r ⟨⟩
  | attest i now src attestation =>
      obtain ⟨h, hget, hstep⟩ := Option.bind_eq_some_iff.1 htaken
      split at hstep
      · cases hstep
        exact ⟨hacc.calls, fun h' hh => hkeep h' (List.mem_of_mem_eraseIdx hh)⟩
      · obtain ⟨⟨s', ses⟩, hs, heq⟩ := Option.map_eq_some_iff.1 hstep
        cases heq
        refine ⟨calls_sound_step C hacc.calls hs, ?_⟩
        intro h' hh
        rcases List.mem_or_eq_of_mem_set hh with hold | rfl
        · exact hkeep h' hold
        · exact accounted_invoked C (hacc.requests h (mem_of_slot hget)).named hs
      · cases hstep
  | respond i =>
      obtain ⟨h, hget, hstep⟩ := Option.bind_eq_some_iff.1 htaken
      split at hstep
      · cases hstep
        exact ⟨hacc.calls, fun h' hh => hkeep h' (List.mem_of_mem_eraseIdx hh)⟩
      · cases hstep
        exact ⟨hacc.calls, fun h' hh => hkeep h' (List.mem_of_mem_eraseIdx hh)⟩
      · cases hstep
  | run a =>
      obtain ⟨⟨s', ses⟩, hs, heq⟩ := Option.map_eq_some_iff.1 htaken
      cases heq
      refine ⟨calls_sound_step C hacc.calls hs, ?_⟩
      intro h' hh
      obtain ⟨h, hmem, rfl⟩ := List.mem_map.1 hh
      rcases told_cases (endedCall t.executor a ses) h with hsame | ⟨outcome, hended, -, htold⟩
      · rw [hsame]
        exact hkeep h hmem
      · rw [htold]
        refine ⟨(hacc.requests h hmem).named, ?_⟩
        rintro r ⟨⟩
        exact endedCall_ok C hacc.calls hs hended

/-! ## Where a key stands -/

/-- The executions that a request under way has asked for. -/
def Handling.asked (h : Handling) : List String :=
  match h.phase with
  | .attesting => []
  | .executing | .executed _ => [h.intent.id]

theorem told_asked (ended : Option (String × Except String ExecuteResult)) (h : Handling) :
    (h.told ended).asked = h.asked := by
  rcases told_cases ended h with hsame | ⟨outcome, -, hphase, htold⟩
  · rw [hsame]
  · rw [htold]
    simp [Handling.asked, hphase]

/-- Where a key stands in a run that tries it once. -/
inductive KeyState (key : String) (steps : List (Step (Ingress σ) IngressAction IngressEvent))
    (t : Ingress σ) : Prop
  | unused (idle : underWay key t = [])
      (unknown : remembered d key t.executor.world = none)
      (invoked : invokedIds key (events steps) = [])
      (answered : answeredIds key (events steps) = [])
      (kept : steps.filter (keptWaiting key) = [])
  | running {h : Handling} (one : underWay key t = [h])
      (unknown : remembered d key t.executor.world = none)
      (invoked : invokedIds key (events steps) = h.asked)
      (answered : answeredIds key (events steps) = [])
      (kept : (steps.filter (keptWaiting key)).length ≤ 1)
  | done {id : String} (idle : underWay key t = [])
      (known : remembered d key t.executor.world = some id) (named : id ≠ "")
      (filed : Filed C t.executor.world.store id)
      (invoked : invokedIds key (events steps) = [id])
      (answered : ∀ v ∈ answeredIds key (events steps), v = .str id)
      (kept : (steps.filter (keptWaiting key)).length ≤ 1)
  | failed (idle : underWay key t = [])
      (rejected : (events steps).any (IngressEvent.rejects key) = true)
      (invoked : (invokedIds key (events steps)).length ≤ 1)
      (answered : answeredIds key (events steps) = [])
      (kept : (steps.filter (keptWaiting key)).length ≤ 1)

theorem KeyState.executedOnce {key : String} {t : Ingress σ}
    {steps : List (Step (Ingress σ) IngressAction IngressEvent)}
    (h : KeyState C key steps t) : ExecutedOnce key steps := by
  cases h with
  | unused idle unknown invoked answered kept =>
      exact ⟨by simp [invoked], by simp [kept], by simp [answered]⟩
  | running one unknown invoked answered kept =>
      refine ⟨?_, kept, by simp [answered]⟩
      rw [invoked]
      unfold Handling.asked
      split <;> simp
  | done idle known named filed invoked answered kept =>
      exact ⟨by simp [invoked], kept, fun v hv => ⟨_, invoked, answered v hv⟩⟩
  | failed idle rejected invoked answered kept => exact ⟨invoked, kept, by simp [answered]⟩

@[simp] theorem invokedIds_append (key : String) (es es' : List IngressEvent) :
    invokedIds key (es ++ es') = invokedIds key es ++ invokedIds key es' :=
  List.filterMap_append

@[simp] theorem answeredIds_append (key : String) (es es' : List IngressEvent) :
    answeredIds key (es ++ es') = answeredIds key es ++ answeredIds key es' :=
  List.filterMap_append

theorem executeResponse_intentId (result : ExecuteResult) :
    (executeResponse result).body.get "intentId" = .str result.intentId := rfl

theorem replayIfSeen_unknown {key : String} {w : World σ} (h : remembered d key w = none) :
    replayIfSeen d w.store key = none := by
  unfold replayIfSeen
  rw [show d.store.getMeta w.store (idempotencyMetaKey key) = none from h]

include C in
/-- A remembered key answers with the intent it is remembered with. -/
theorem replayIfSeen_known {key id : String} {w : World σ} (h : remembered d key w = some id)
    (named : id ≠ "") (filed : Filed C w.store id) :
    ∃ replay, replayIfSeen d w.store key = some replay ∧
      replay.body.get "intentId" = .str id := by
  obtain ⟨x, hx⟩ := filed
  unfold replayIfSeen
  rw [show d.store.getMeta w.store (idempotencyMetaKey key) = some id from h]
  simp only
  rw [if_neg named, C.getIntent, hx, Option.map_some]
  refine ⟨_, rfl, ?_⟩
  have hid : x.id = id := Table.key_of_get hx
  rw [← hid]
  rfl

section

variable {key : String} {t t' : Ingress σ} {a : IngressAction} {es : List IngressEvent}
  {steps : List (Step (Ingress σ) IngressAction IngressEvent)}

theorem kept_snoc (steps : List (Step (Ingress σ) IngressAction IngressEvent))
    {next : Step (Ingress σ) IngressAction IngressEvent} (h : keptWaiting key next = false) :
    (steps ++ [next]).filter (keptWaiting key) = steps.filter (keptWaiting key) := by
  rw [List.filter_append, List.filter_cons_of_neg (by simp [h]), List.filter_nil,
    List.append_nil]

/-- A step that says nothing about the key, and at most ends a payment that a
request waits for. -/
theorem KeyState.apart (hstate : KeyState C key steps t)
    (hkeep : ∀ id, Filed C t.executor.world.store id → Filed C t'.executor.world.store id)
    (requests : ∃ ended, underWay key t' = (underWay key t).map (Handling.told ended))
    (entry : SameKey d key t.executor.world t'.executor.world) (silent : SilentOn key es)
    (unkept : keptWaiting key ⟨t, a, es, t'⟩ = false) :
    KeyState C key (steps ++ [⟨t, a, es, t'⟩]) t' := by
  obtain ⟨ended, hrequests⟩ := requests
  have hkept := kept_snoc steps unkept
  have hinvoked : invokedIds key (events (steps ++ [⟨t, a, es, t'⟩])) =
      invokedIds key (events steps) := by
    rw [events_snoc, invokedIds_append, silent.invoked, List.append_nil]
  have hanswered : answeredIds key (events (steps ++ [⟨t, a, es, t'⟩])) =
      answeredIds key (events steps) := by
    rw [events_snoc, answeredIds_append, silent.answered, List.append_nil]
  cases hstate with
  | unused idle unknown invoked answered kept =>
      refine .unused ?_ (entry.trans unknown) (hinvoked.trans invoked)
        (hanswered.trans answered) (hkept.trans kept)
      rw [hrequests, idle, List.map_nil]
  | @running h one unknown invoked answered kept =>
      refine .running (h := h.told ended) ?_ (entry.trans unknown) ?_
        (hanswered.trans answered) (by rw [hkept]; exact kept)
      · rw [hrequests, one, List.map_cons, List.map_nil]
      · rw [hinvoked, invoked, told_asked]
  | done idle known named filed invoked answered kept =>
      refine .done ?_ (entry.trans known) named (hkeep _ filed) (hinvoked.trans invoked)
        (by rw [hanswered]; exact answered) (by rw [hkept]; exact kept)
      rw [hrequests, idle, List.map_nil]
  | failed idle rejected invoked answered kept =>
      refine .failed ?_ ?_ (by rw [hinvoked]; exact invoked) (hanswered.trans answered)
        (by rw [hkept]; exact kept)
      · rw [hrequests, idle, List.map_nil]
      · rw [events_snoc, List.any_append, rejected, Bool.true_or]

/-- The only request under way, when one is. -/
theorem KeyState.running_of_perm {h : Handling} {rest : List Handling}
    (hstate : KeyState C key steps t) (hperm : (underWay key t).Perm (h :: rest)) :
    rest = [] ∧ remembered d key t.executor.world = none ∧
      invokedIds key (events steps) = h.asked ∧ answeredIds key (events steps) = [] ∧
      (steps.filter (keptWaiting key)).length ≤ 1 := by
  have hnone : underWay key t ≠ [] := by
    intro hidle
    rw [hidle] at hperm
    exact List.cons_ne_nil _ _ hperm.symm.eq_nil
  cases hstate with
  | unused idle unknown invoked answered kept => exact absurd idle hnone
  | done idle known named filed invoked answered kept => exact absurd idle hnone
  | failed idle rejected invoked answered kept => exact absurd idle hnone
  | running one unknown invoked answered kept =>
      rw [one] at hperm
      obtain ⟨rfl, rfl⟩ := List.cons_eq_cons.1 (List.perm_singleton.1 hperm.symm)
      exact ⟨rfl, unknown, invoked, answered, kept⟩

include C in
theorem keyState_step (hkey : key ≠ "") (hstate : KeyState C key steps t)
    (hacc : Accounted C t) (hguard : OneAttempt d key steps t a)
    (htaken : ingressStep d t a = some (t', es)) :
    KeyState C key (steps ++ [⟨t, a, es, t'⟩]) t' := by
  have hkeep : ∀ id, Filed C t.executor.world.store id → Filed C t'.executor.world.store id :=
    fun id hfiled => hfiled.ingress C htaken
  have hchange := keyChange_of_step C hkey htaken
  cases hchange with
  | apart requests entry silent unkept => exact hstate.apart C hkeep requests entry silent unkept
  | @replayed rawBody newId createdAt replay valid seen =>
      obtain ⟨hclear, hnever⟩ := hguard.2 rfl valid
      cases hstate with
      | unused idle unknown invoked answered kept =>
          rw [replayIfSeen_unknown unknown] at seen
          cases seen
      | @running h one unknown invoked answered kept =>
          have hmem : h ∈ underWay key t := by rw [one]; exact List.mem_singleton_self h
          obtain ⟨hin, hk⟩ := List.mem_filter.1 hmem
          exact absurd (by simpa using hk) (hclear h hin)
      | failed idle rejected invoked answered kept =>
          rw [hnever] at rejected
          cases rejected
      | done idle known named filed invoked answered kept =>
          obtain ⟨r, hr, hbody⟩ := replayIfSeen_known C known named filed
          rw [hr] at seen
          cases seen
          refine .done idle known named filed ?_ ?_ ?_
          · rw [events_snoc, invokedIds_append, invoked]
            rfl
          · rw [events_snoc, answeredIds_append]
            intro v hv
            rcases List.mem_append.1 hv with hold | hnew
            · exact answered v hold
            · simp only [answeredIds, List.filterMap_cons, if_pos, List.filterMap_nil,
                List.mem_singleton] at hnew
              rw [hnew, hbody]
          · rw [kept_snoc steps (by simp [keptWaiting])]
            exact kept
  | @arrived rawBody newId createdAt h _ valid unseen phase requests executor =>
      obtain ⟨hclear, hnever⟩ := hguard.2 rfl valid
      cases hstate with
      | unused idle unknown invoked answered kept =>
          refine .running (h := h) ?_ (by rw [executor]; exact unknown) ?_ ?_ ?_
          · rw [requests, idle, List.nil_append]
          · rw [events_snoc, List.append_nil, invoked]
            simp [Handling.asked, phase]
          · rw [events_snoc, List.append_nil, answered]
          · rw [List.filter_append, kept, List.nil_append]
            exact List.length_filter_le _ _
      | @running h' one unknown invoked answered kept =>
          have hmem : h' ∈ underWay key t := by rw [one]; exact List.mem_singleton_self h'
          obtain ⟨hin, hk⟩ := List.mem_filter.1 hmem
          exact absurd (by simpa using hk) (hclear h' hin)
      | failed idle rejected invoked answered kept =>
          rw [hnever] at rejected
          cases rejected
      | done idle known named filed invoked answered kept =>
          obtain ⟨r, hr, -⟩ := replayIfSeen_known C known named filed
          rw [hr] at unseen
          cases unseen
  | @invoked i now src found h next rest _ keyed waiting goes before after entry =>
      obtain ⟨rfl, unknown, hinvoked, answered, kept⟩ := hstate.running_of_perm C before
      refine .running (List.perm_singleton.1 after) (entry.trans unknown) ?_ ?_ ?_
      · rw [events_snoc, invokedIds_append, hinvoked]
        cases next with
        | attesting => exact absurd rfl goes
        | executing => simp [Handling.asked, waiting, invokedIds, keyed]
        | executed outcome => simp [Handling.asked, waiting, invokedIds, keyed]
      · rw [events_snoc, answeredIds_append, answered]
        rfl
      · rw [kept_snoc steps rfl]
        exact kept
  | @answered i h result _ phase mem before entry =>
      obtain ⟨hidle, -, hinvoked, answered, kept⟩ := hstate.running_of_perm C before
      obtain ⟨hid, hfiled⟩ := (hacc.requests h mem).reported result phase
      refine .done hidle entry ?_ ?_ ?_ ?_ ?_
      · rw [hid]
        exact (hacc.requests h mem).named
      · rw [hid]
        exact hkeep _ hfiled
      · rw [events_snoc, invokedIds_append, hinvoked, hid]
        simp [Handling.asked, phase, invokedIds]
      · rw [events_snoc, answeredIds_append, answered]
        intro v hv
        simpa [answeredIds, executeResponse_intentId] using hv
      · rw [kept_snoc steps rfl]
        exact kept
  | @rejected _ h e _ before executor unkept =>
      obtain ⟨hidle, -, hinvoked, answered, kept⟩ := hstate.running_of_perm C before
      refine .failed hidle ?_ ?_ ?_ ?_
      · rw [events_snoc, List.any_append]
        simp [IngressEvent.rejects]
      · rw [events_snoc, invokedIds_append, hinvoked]
        unfold Handling.asked
        split <;> simp [invokedIds]
      · rw [events_snoc, answeredIds_append, answered]
        rfl
      · rw [kept_snoc steps unkept]
        exact kept

end

include C in
/-- **A key that is tried once executes once**, and answers every later request
with the intent of that execution. -/
theorem key_executed_once {t₀ t : Ingress σ} {key : String}
    {steps : List (Step (Ingress σ) IngressAction IngressEvent)} (hkey : key ≠ "")
    (hidle : t₀.requests = []) (hcalls : ∀ call ∈ t₀.executor.calls, call.Sound)
    (hunused : d.store.getMeta t₀.executor.world.store (idempotencyMetaKey key) = none)
    (hrun : (ingress d).Run (OneAttempt d key) t₀ steps t) : ExecutedOnce key steps := by
  have hinv := hrun.invariant (fun steps t => KeyState C key steps t ∧ Accounted C t)
    ⟨.unused (by simp [underWay, hidle]) hunused rfl rfl rfl, hcalls, by simp [hidle]⟩ (by
      rintro steps t a t' es ⟨hstate, hacc⟩ hguard htaken
      exact ⟨keyState_step C hkey hstate hacc hguard htaken,
        accounted_step C hacc hguard.1 htaken⟩)
  exact hinv.1.executedOnce C

namespace Sample

def ingressStart : Ingress Books where
  executor := start

/-- A payment of 40 to `acme`. -/
def body : String :=
  "\x7b\"payee\":\"acme\",\"payeeClass\":\"saas\",\"amount\":40,\"currency\":\"USD\"," ++
    "\"rail\":\"card\",\"rationale\":\"monthly seats\"\x7d"

/-- A request with the key `k`, whose payment would be named `id`. -/
def posts (id : String) : IngressAction := .receive body (some "k") id noon

end Sample

open Sample in
/-- A retry that comes after the answer is answered with the same intent. -/
theorem key_executed_once_retried :
    ∃ steps t, (ingress deps).Run (OneAttempt deps "k") ingressStart steps t ∧
      ExecutedOnce "k" steps ∧ invokedIds "k" (events steps) = ["a"] ∧
      (answeredIds "k" (events steps)).map Codec.str.decode = [some "a", some "a"] := by
  obtain ⟨steps, t, hrun, hids⟩ := System.exists_run (ingress deps) (OneAttempt deps "k")
    ingressStart
    [posts "a", .attest 0 noon {} (.ok none), .run (settles 0 "a" 40), .run (.resume 0),
      .respond 0, posts "b"]
    (fun steps _ => decide (invokedIds "k" (events steps) = ["a"] ∧
      (answeredIds "k" (events steps)).map Codec.str.decode = [some "a", some "a"]))
    (by decide +kernel)
  exact ⟨steps, t, hrun,
    key_executed_once memoryContract (by decide) rfl (by simp [ingressStart, start, deploy]) rfl
      hrun, of_decide_eq_true hids⟩

open Sample in
/-- A retry that comes while the first request is under way is executed too, and
both payments settle. -/
theorem overlapping_retry_executes_twice :
    ∃ steps t, (ingress deps).Run (FreshIds deps) ingressStart steps t ∧
      invokedIds "k" (events steps) = ["a", "b"] ∧
      (answeredIds "k" (events steps)).map Codec.str.decode = [some "a", some "b"] ∧
      t.executor.world.store.receipts.values.length = 2 ∧ ¬ ExecutedOnce "k" steps := by
  obtain ⟨steps, t, hrun, hids⟩ := System.exists_run (ingress deps) (FreshIds deps) ingressStart
    [posts "a", posts "b", .attest 0 noon {} (.ok none), .attest 1 noon {} (.ok none),
      .run (settles 0 "a" 40), .run (.resume 0), .respond 0, .run (settles 0 "b" 40),
      .run (.resume 0), .respond 0]
    (fun steps t => decide (invokedIds "k" (events steps) = ["a", "b"] ∧
      (answeredIds "k" (events steps)).map Codec.str.decode = [some "a", some "b"] ∧
      t.executor.world.store.receipts.values.length = 2)) (by decide +kernel)
  obtain ⟨hinvoked, hanswered, hreceipts⟩ := of_decide_eq_true hids
  refine ⟨steps, t, hrun, hinvoked, hanswered, hreceipts, ?_⟩
  intro honce
  have hlength := honce.once
  rw [hinvoked] at hlength
  exact absurd hlength (by decide)

end AgentWorth
