import AgentWorth.Core.Growth
import AgentWorth.Core.Shield
import AgentWorth.Earn.Desk
import AgentWorth.Executor.Deployment
import AgentWorth.Executor.Writes
import AgentWorth.Lib.Histories

/-!
# One chain, many writers

The executor, the earning desk and the operator's controls append to one chain
in memory, the shield reads it, and the database under them all may be rewritten
by anybody at any time.  Payloads are values here: a caller that alters an
object it has handed over is not modelled.
-/

namespace AgentWorth

open AgentWorth.Js AgentWorth.Lib

structure House (σ : Type) where
  executor : State σ
  /-- payments whose proof is with the verifier -/
  receiving : List InboundPayment := []

inductive HouseAction (σ : Type) where
  | run (a : Action)
  | quote (service : String) (priceMinor : JsNumber) (payTo : Option String) (now : String)
  | receive (payment : InboundPayment) (now : String)
  /-- the verifier answers about the `k`th payment -/
  | verified (k : Nat) (answer : Bool) (now : String)
  | verifierThrows (k : Nat) (error : String)
  /-- somebody writes to the database -/
  | overwrite (store : σ)
  /-- the shield's watcher fires -/
  | check

inductive HouseEvent where
  | ran (e : Event)
  | quoted (q : PriceQuote)
  | asked (payment : InboundPayment)
  | answered (payment : InboundPayment) (verified : Bool)
  | verifierFailed (payment : InboundPayment) (error : String)
  | received (result : ReceiveResult)
  | threw (error : String)
  | shield (e : ShieldEvent)

variable {σ : Type} (d : ExecutorDeps σ) (desk : EarningDesk)

namespace House

/-- A segment of the desk has run. -/
def settle {α : Type} (t : House σ) (ended : α → List HouseEvent) :
    EStateM.Result String (World σ) α → House σ × List HouseEvent
  | .ok a w => ({ t with executor := { t.executor with world := w } }, ended a)
  | .error e w => ({ t with executor := { t.executor with world := w } }, [.threw e])

/-- `receive` has returned, or waits for the verifier. -/
def begun (t : House σ) (payment : InboundPayment) :
    EStateM.Result String (World σ) (Option ReceiveResult) → House σ × List HouseEvent
  | .ok (some result) w =>
      ({ t with executor := { t.executor with world := w } }, [.received result])
  | .ok none w =>
      ({ executor := { t.executor with world := w }, receiving := t.receiving ++ [payment] },
        [.asked payment])
  | .error e w => ({ t with executor := { t.executor with world := w } }, [.threw e])

end House

def houseStep (t : House σ) : HouseAction σ → Option (House σ × List HouseEvent)
  | .run a =>
      (step d t.executor a).map fun (s, es) => ({ t with executor := s }, es.map .ran)
  | .quote service priceMinor payTo now =>
      some (t.settle (fun q => [.quoted q])
        (desk.quote d service priceMinor payTo now t.executor.world))
  | .receive payment now =>
      some (t.begun payment (desk.receive d payment now t.executor.world))
  | .verified k answer now =>
      t.receiving[k]?.map fun payment =>
        let (t', es) := { t with receiving := t.receiving.eraseIdx k }.settle
          (fun result => [.received result])
          (EarningDesk.receiveVerified d payment answer now t.executor.world)
        (t', .answered payment answer :: es)
  | .verifierThrows k error =>
      t.receiving[k]?.map fun payment =>
        ({ t with receiving := t.receiving.eraseIdx k }, [.verifierFailed payment error])
  | .overwrite store =>
      some ({ t with executor :=
        { t.executor with world := { t.executor.world with store := store } } }, [])
  | .check =>
      let (w, es) := checkIntegrity d t.executor.world
      some ({ t with executor := { t.executor with world := w } }, es.map .shield)

/-- Everything that writes or reads one chain. -/
def house : System (House σ) (HouseAction σ) HouseEvent := ⟨houseStep d desk⟩

/-! ## The chain only grows -/

variable {d desk} {t t' : House σ} {a : HouseAction σ} {es : List HouseEvent}

/-- Every segment of the executor and the desk lets the log grow. -/
theorem grown_rule (d : ExecutorDeps σ) :
    StepRule d fun w w' => Grown d.crypto w.audit w'.audit where
  refl w := .refl w.audit
  trans h h' := h.trans h'
  write _ := .refl _
  record type members ts := by
    intro w
    unfold record
    split
    · exact .refl _
    · next entry log happend =>
        have hgrown : Grown d.crypto w.audit log := by
          unfold appendEntry at happend
          split at happend
          · exact grown_of_append happend
          · exact grown_of_append happend
        split
        · exact hgrown
        · exact hgrown

section Desk

variable {R : World σ → World σ → Prop} (h : StepRule d R)
include h

theorem moves_rejectInbound (payment : InboundPayment) (reasons : List String) (now : String) :
    Moves R (EarningDesk.rejectInbound d payment reasons now) :=
  .bind h.trans (h.record _ _ _) fun _ => .pure h.refl _

theorem moves_quote (service : String) (priceMinor : JsNumber) (payTo : Option String)
    (now : String) : Moves R (desk.quote d service priceMinor payTo now) :=
  .bind h.trans (h.record _ _ _) fun _ => .pure h.refl _

theorem moves_receive (payment : InboundPayment) (now : String) :
    Moves R (desk.receive d payment now) := by
  unfold EarningDesk.receive
  dsimp only
  split
  · exact .bind h.trans (moves_rejectInbound h _ _ _) fun _ => .pure h.refl _
  · split
    · exact .bind h.trans (moves_rejectInbound h _ _ _) fun _ => .pure h.refl _
    · exact .pure h.refl _

theorem moves_receiveVerified (payment : InboundPayment) (verified : Bool) (now : String) :
    Moves R (EarningDesk.receiveVerified d payment verified now) := by
  unfold EarningDesk.receiveVerified
  split
  · exact .bind h.trans (h.record _ _ _) fun _ => .pure h.refl _
  · exact moves_rejectInbound h _ _ _

end Desk

theorem House.settle_world {α : Type} (t : House σ) (ended : α → List HouseEvent)
    (r : EStateM.Result String (World σ) α) :
    (t.settle ended r).1.executor.world = stateAfter r := by
  cases r <;> rfl

theorem House.begun_world (t : House σ) (payment : InboundPayment)
    (r : EStateM.Result String (World σ) (Option ReceiveResult)) :
    (t.begun payment r).1.executor.world = stateAfter r := by
  rcases r with ⟨_ | _, _⟩ | _ <;> rfl

theorem checkIntegrity_audit (w : World σ) : (checkIntegrity d w).1.audit = w.audit := by
  unfold checkIntegrity
  dsimp only
  split
  · rfl
  · split
    · rfl
    · rfl

/-- **No writer takes an entry away**, and nobody reaches the log through the
database. -/
theorem grown_of_houseStep (htaken : houseStep d desk t a = some (t', es)) :
    Grown d.crypto t.executor.world.audit t'.executor.world.audit := by
  have hrule := grown_rule d
  cases a with
  | run a =>
      obtain ⟨⟨s, es'⟩, hstep, heq⟩ := Option.map_eq_some_iff.1 htaken
      cases heq
      exact hrule.of_step hstep
  | quote service priceMinor payTo now =>
      have hmoved : Grown d.crypto t.executor.world.audit
          (stateAfter (desk.quote d service priceMinor payTo now t.executor.world)).audit :=
        moves_quote hrule service priceMinor payTo now t.executor.world
      rw [← t.settle_world fun q => [.quoted q], Option.some.inj htaken] at hmoved
      exact hmoved
  | receive payment now =>
      have hmoved : Grown d.crypto t.executor.world.audit
          (stateAfter (desk.receive d payment now t.executor.world)).audit :=
        moves_receive hrule payment now t.executor.world
      rw [← t.begun_world payment, Option.some.inj htaken] at hmoved
      exact hmoved
  | verified k answer now =>
      obtain ⟨payment, -, heq⟩ := Option.map_eq_some_iff.1 htaken
      have hmoved := moves_receiveVerified hrule payment answer now t.executor.world
      rw [← House.settle_world { t with receiving := t.receiving.eraseIdx k }
        fun result => [.received result]] at hmoved
      cases heq
      exact hmoved
  | verifierThrows k error =>
      obtain ⟨payment, -, heq⟩ := Option.map_eq_some_iff.1 htaken
      cases heq
      exact .refl _
  | overwrite store =>
      cases htaken
      exact .refl _
  | check =>
      cases htaken
      show Grown d.crypto _ (checkIntegrity d t.executor.world).1.audit
      rw [checkIntegrity_audit]
      exact .refl _

/-! ## The shield -/

def HouseAction.isCheck : HouseAction σ → Bool
  | .check => true
  | _ => false

/-- A check finds what the log says: nothing to do, or the kill switch on. -/
theorem check_of_verdict (C : Contract d.store)
    (htaken : houseStep d desk t .check = some (t', es)) :
    if (t.executor.world.audit.verify d.crypto).valid then t' = t ∧ es = []
    else isKilled d t'.executor.world.store = true := by
  simp only [houseStep] at htaken
  unfold checkIntegrity at htaken
  dsimp only at htaken
  split
  · next hvalid =>
      rw [if_pos hvalid] at htaken
      cases htaken
      exact ⟨rfl, rfl⟩
  · next hbroken =>
      rw [if_neg hbroken] at htaken
      split at htaken
      · next hkilled =>
          cases htaken
          exact hkilled
      · cases htaken
        simp [isKilled, C.getMeta, C.setMeta, Books.setMeta]

/-- **The shield repeats its first verdict.**  In every run of the executor, the
desk and the controls over one chain, whatever is written to the database and
whenever it is checked: the verdict on the chain is the one it had when it was
loaded.  A chain that was intact then never trips the shield, and without its
checks the run is the same run; one that was not leaves every check with the kill
switch on. -/
theorem shield_repeats_verdict (C : Contract d.store) {t₀ t : House σ}
    {steps : List (Step (House σ) (HouseAction σ) HouseEvent)}
    (hsigner : t₀.executor.world.audit.signer.Lawful)
    (hrun : (house d desk).Run anyStep t₀ steps t) :
    let loaded := t₀.executor.world.audit.verify d.crypto
    t.executor.world.audit.verify d.crypto = loaded ∧
      (loaded.valid = true →
        (∀ step ∈ steps, step.action.isCheck = true → step.events = []) ∧
          (house d desk).Run anyStep t₀ (steps.filter fun step => !step.action.isCheck) t) ∧
      (loaded.valid = false → ∀ step ∈ steps, step.action.isCheck = true →
        isKilled d step.after.executor.world.store = true) := by
  intro loaded
  obtain ⟨hgrown, hchecks⟩ := hrun.invariant
    (fun steps t => Grown d.crypto t₀.executor.world.audit t.executor.world.audit ∧
      ∀ step ∈ steps, step.action.isCheck = true →
        if loaded.valid then step.after = step.before ∧ step.events = []
        else isKilled d step.after.executor.world.store = true)
    ⟨.refl _, by simp⟩ (by
      rintro steps t a t' es ⟨hgrown, hpast⟩ _ htaken
      refine ⟨hgrown.trans (grown_of_houseStep htaken), ?_⟩
      intro step hstep hcheck
      rcases List.mem_append.1 hstep with hstep | hstep
      · exact hpast step hstep hcheck
      · rw [List.mem_singleton.1 hstep] at hcheck ⊢
        cases a with
        | check =>
            have hchecked : houseStep d desk t .check = some (t', es) := htaken
            have hnow := check_of_verdict C hchecked
            rw [hgrown.verify hsigner] at hnow
            exact hnow
        | _ => cases hcheck)
  refine ⟨hgrown.verify hsigner, ?_, ?_⟩
  · intro hvalid
    have hidle : ∀ step ∈ steps, step.action.isCheck = true →
        step.after = step.before ∧ step.events = [] := by
      intro step hstep hcheck
      have h := hchecks step hstep hcheck
      rwa [if_pos hvalid] at h
    refine ⟨fun step hstep hcheck => (hidle step hstep hcheck).2, hrun.filter _ ?_⟩
    intro step hstep hkept
    rw [Bool.not_eq_false'] at hkept
    exact (hidle step hstep hkept).1
  · intro hbroken step hstep hcheck
    have h := hchecks step hstep hcheck
    rwa [if_neg (by rw [hbroken]; exact Bool.false_ne_true)] at h

namespace Sample

def servicePolicy : AcceptancePolicy where
  currency := "USDC"
  minPriceMinor := 10
  allowedServices := some ["forecast"]

def serviceDesk : EarningDesk where
  policy := servicePolicy
  hasVerifier := true

def inbound (amountMinor : JsNumber) : InboundPayment where
  service := "forecast"
  amountMinor := amountMinor
  currency := "USDC"
  payer := none
  proof := none

/-- The database is emptied while a payment and some income are under way. -/
def houseActions : List (HouseAction Books) :=
  [.check, .run (pay "a" 40), .receive (inbound 20) noon, .overwrite Books.empty, .check,
    .verified 0 true noon, .run (settles 0 "a" 40), .check]

end Sample

/-- The shield sleeps through the loss of every row. -/
theorem shield_repeats_verdict_emptied : ∃ steps t,
    (house Sample.deps Sample.serviceDesk).Run anyStep ⟨Sample.start, []⟩ steps t ∧
    t.executor.world.audit.entries.length = 4 ∧
    t.executor.world.audit.verify Sample.deps.crypto =
      Sample.start.world.audit.verify Sample.deps.crypto ∧
    ∀ step ∈ steps, step.action.isCheck = true → step.events = [] := by
  obtain ⟨steps, t, hrun, hlength⟩ := System.exists_run (house Sample.deps Sample.serviceDesk)
    anyStep ⟨Sample.start, []⟩ Sample.houseActions
    (fun _ t => t.executor.world.audit.entries.length == 4) (by decide +kernel)
  obtain ⟨hverdict, hintact, -⟩ := shield_repeats_verdict (d := Sample.deps) memoryContract
    (lawful_operatorSigner "key") hrun
  exact ⟨steps, t, hrun, eq_of_beq hlength, hverdict, (hintact (by decide +kernel)).1⟩

end AgentWorth
