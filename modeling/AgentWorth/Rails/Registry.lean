import AgentWorth.Core.Types

/-!
# Rails

`src/rails/provider.ts` and `src/rails/registry.ts`.  What a provider answers
is up to the provider, so its verbs are not functions here: a call is an event,
and the answer arrives as a later step of the environment.  What the executor
reads off a provider is its capabilities and whether it has a `refund` verb.
-/

namespace AgentWorth

open AgentWorth.Js

structure ProviderCapabilities where
  id : String
  rail : RailKind
  reversibility : Reversibility
  deriving DecidableEq, Repr

structure PaymentProvider where
  capabilities : ProviderCapabilities
  /-- the optional `refund` verb is there -/
  canRefund : Bool
  deriving DecidableEq, Repr

structure RailRegistry where
  providers : List PaymentProvider
  routes : RailKind → Option String

namespace RailRegistry

variable (registry : RailRegistry)

/-- The registry's `Map` from protocol id to provider. -/
def index : JsMap PaymentProvider :=
  JsMap.ofEntries (registry.providers.map fun p => (p.capabilities.id, p))

def byId (id : String) : Option PaymentProvider := registry.index.get id

/-- The sole registered provider of a kind. -/
def soleOfKind (rail : RailKind) : Option PaymentProvider :=
  match registry.providers.filter fun p => p.capabilities.rail == rail with
  | [p] => some p
  | _ => none

/-- The provider that serves a rail kind: the routed one if it is registered,
otherwise the sole provider of the kind. -/
def get (rail : RailKind) : Option PaymentProvider :=
  match registry.routes rail with
  | some routed =>
      if routed ≠ "" ∧ (registry.byId routed).isSome then registry.byId routed
      else registry.soleOfKind rail
  | none => registry.soleOfKind rail

/-- Entries under the id of their provider keep that agreement. -/
private theorem foldl_set_keyed (ps : List PaymentProvider) (m : JsMap PaymentProvider)
    (hm : ∀ k p, m.get k = some p → p.capabilities.id = k) :
    ∀ k p, ((ps.map fun p => (p.capabilities.id, p)).foldl
      (fun m e => m.set e.1 e.2) m).get k = some p → p.capabilities.id = k := by
  induction ps generalizing m with
  | nil => exact hm
  | cons q ps ih =>
      refine ih (m.set q.capabilities.id q) ?_
      intro k p h
      rw [JsMap.get_set] at h
      split at h
      · next hk =>
          cases h
          exact hk.symm
      · exact hm k p h

/-- **A provider looked up by id has that id.** -/
theorem byId_id {registry : RailRegistry} {id : String} {p : PaymentProvider}
    (h : registry.byId id = some p) : p.capabilities.id = id :=
  foldl_set_keyed registry.providers .empty (fun _ _ h => by simp at h) id p h

end RailRegistry

end AgentWorth
