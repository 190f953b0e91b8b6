import AgentWorth.Executor.AskOnce
import AgentWorth.Ingress.Server
import AgentWorth.Rails.Network

/-!
# The executor over network rails

An executor whose registry holds network rails.  A call that reaches its rail
opens the dialogue of the adapter, which asks its first question at once and the
next ones as the outside answers.  `provider.settle` returns or throws what the
dialogue ends in, and `verifyReceipt` answers what the adapter computes; of the
rest of the executor nothing is assumed.
-/

namespace AgentWorth

open AgentWorth.Js AgentWorth.Lib

/-- The providers of a registry, each protocol registered once. -/
structure RailSet where
  specs : List NetworkRailSpec
  routes : RailKind → Option String
  distinct : (specs.map NetworkRailSpec.id).Nodup

namespace RailSet

variable (R : RailSet)

def registry : RailRegistry where
  providers := R.specs.map createNetworkRail
  routes := R.routes

/-- The adapter behind a provider. -/
def specOf (p : PaymentProvider) : Option NetworkRailSpec :=
  R.specs.find? fun spec => spec.id == p.capabilities.id

variable {R}

theorem specOf_createNetworkRail {spec : NetworkRailSpec} (h : spec ∈ R.specs) :
    R.specOf (createNetworkRail spec) = some spec := by
  cases hfound : R.specOf (createNetworkRail spec) with
  | none => simpa [createNetworkRail] using List.find?_eq_none.1 hfound spec h
  | some found =>
      have hid : found.id = spec.id := by simpa [createNetworkRail] using List.find?_some hfound
      rw [List.inj_on_of_nodup_map R.distinct (List.mem_of_find?_eq_some hfound) h hid]

/-- A provider the registry serves is one of its adapters. -/
theorem mem_of_get {rail : RailKind} {p : PaymentProvider} (h : R.registry.get rail = some p) :
    ∃ spec ∈ R.specs, createNetworkRail spec = p := by
  have hbyId : ∀ {id : String}, R.registry.byId id = some p → p ∈ R.registry.providers := by
    intro id hp
    obtain ⟨q, hq, heq⟩ := List.mem_map.1 (JsMap.mem_of_get_ofEntries hp)
    cases heq
    exact hq
  have hsole : R.registry.soleOfKind rail = some p → p ∈ R.registry.providers := by
    intro hp
    unfold RailRegistry.soleOfKind at hp
    split at hp
    · next heq =>
        cases hp
        exact (List.mem_filter.1 (heq ▸ List.mem_singleton_self _)).1
    · cases hp
  have hmem : p ∈ R.registry.providers := by
    unfold RailRegistry.get at h
    split at h
    · split at h
      · exact hbyId h
      · exact hsole h
    · exact hsole h
  exact List.mem_map.1 hmem

end RailSet

/-! ## The system -/

variable {σ : Type}

structure Railed (σ : Type) where
  executor : State σ
  /-- for each suspended call, the dialogue of its rail -/
  talks : List (Option (RailDialogue Receipt)) := []

inductive RailedAction where
  /-- a step of the executor; what a rail answers is up to its dialogue -/
  | run (a : Action)
  /-- the outside answers the question of the `k`th call -/
  | hear (k : Nat) (reply : RailReply)

inductive RailedEvent where
  | executor (e : Event)
  | asked (call : Call) (q : RailQuestion)
  | heard (call : Call) (reply : RailReply)

/-- The dialogue a call that has just suspended opens. -/
def RailSet.opening (R : RailSet) (call : Call) : Option (RailDialogue Receipt) :=
  match call.stage with
  | .rail provider => (R.specOf provider).map fun spec => spec.settle call.intent call.now
  | .settled _ => none

/-- The question a dialogue asks next. -/
def asks (call : Call) (talk : Option (RailDialogue Receipt)) : List RailedEvent :=
  ((talk.bind Dialogue.pending).map (RailedEvent.asked call)).toList

namespace Railed

/-- The dialogue of the `k`th call. -/
def talk (t : Railed σ) (k : Nat) : Option (RailDialogue Receipt) := t.talks[k]?.join

/-- A rail answers what its dialogue has come to. -/
def permits (R : RailSet) (t : Railed σ) : Action → Bool
  | .railReturns k receipt verified =>
      match (t.talk k).bind Dialogue.result, atRail t.executor k with
      | some (.ok r), some (_, provider) =>
          r == receipt && match verified with
          | .ok v => (R.specOf provider).any fun spec =>
              v == spec.verifyReceipt (issuedBy provider receipt)
          | .error _ => false
      | _, _ => false
  | .railThrows k error =>
      match (t.talk k).bind Dialogue.result with
      | some (.error e) => e == error
      | _ => false
  | _ => true

/-- The dialogues of the calls that stay suspended. -/
def kept (t : Railed σ) (a : Action) (s : State σ) : List (Option (RailDialogue Receipt)) :=
  match a.slot with
  | some k => if s.calls.length < t.executor.calls.length then t.talks.eraseIdx k else t.talks
  | none => t.talks

end Railed

/-- The calls a step of the executor has suspended. -/
def newCalls (s s' : State σ) : List Call := s'.calls.drop s.calls.length

variable (d : ExecutorDeps σ) (R : RailSet)

def railedStep (t : Railed σ) : RailedAction → Option (Railed σ × List RailedEvent)
  | .run a =>
      if t.permits R a then
        (step d t.executor a).map fun (s, es) =>
          ({ executor := s
             talks := t.kept a s ++ (newCalls t.executor s).map R.opening },
            es.map .executor ++
              (newCalls t.executor s).flatMap fun call => asks call (R.opening call))
      else none
  | .hear k reply =>
      match atRail t.executor k, (t.talk k).bind fun talk => talk.hear reply with
      | some (call, _), some talk =>
          some ({ t with talks := t.talks.set k (some talk) },
            .heard call reply :: asks call (some talk))
      | _, _ => none

def railed : System (Railed σ) RailedAction RailedEvent := ⟨railedStep d R⟩

/-- `OneCallPerId` for the steps of the executor. -/
def RailedOnce : Guard (Railed σ) RailedAction RailedEvent := fun _ t a =>
  match a with
  | .run a => OneCallPerId d [] t.executor a
  | .hear .. => True

instance (steps : List (Step (Railed σ) RailedAction RailedEvent)) (t : Railed σ)
    (a : RailedAction) : Decidable (RailedOnce d steps t a) :=
  match a with
  | .run a => inferInstanceAs (Decidable (OneCallPerId d [] t.executor a))
  | .hear .. => inferInstanceAs (Decidable True)

end AgentWorth
