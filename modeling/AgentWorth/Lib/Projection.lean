import AgentWorth.Lib.Runs

/-!
# A system inside another

A system contains another when some of its actions are the other's, taken on a
part of its state, and all the rest leave that part alone: every run of the
whole then shows a run of the part.  Where the part determines what is possible,
a run of it can be had back.
-/

namespace AgentWorth.Lib

variable {σ τ α β ε δ : Type}

/-- The system `N` within the system `M`. -/
structure Part (M : System σ α ε) (N : System τ β δ) where
  state : σ → τ
  action : α → Option β
  event : ε → Option δ
  own : ∀ {s s' : σ} {a : α} {b : β} {es : List ε}, M.step s a = some (s', es) →
    action a = some b → N.step (state s) b = some (state s', es.filterMap event)
  other : ∀ {s s' : σ} {a : α} {es : List ε}, M.step s a = some (s', es) →
    action a = none → state s' = state s ∧ es.filterMap event = []

namespace Part

variable {M : System σ α ε} {N : System τ β δ} {G : Guard σ α ε} {s₀ s : σ}
  {steps : List (Step σ α ε)}

/-- **A run of the whole shows a run of the part.** -/
theorem run (P : Part M N) (hrun : M.Run G s₀ steps s) :
    ∃ steps', N.Run anyStep (P.state s₀) steps' (P.state s) ∧
      steps'.map Step.action = (steps.map Step.action).filterMap P.action ∧
      events steps' = (events steps).filterMap P.event := by
  induction hrun with
  | start => exact ⟨[], .start, rfl, rfl⟩
  | @step steps s s' a es prior guard taken ih =>
      obtain ⟨steps', hrun', hactions, hevents⟩ := ih
      cases haction : P.action a with
      | none =>
          obtain ⟨hsame, hquiet⟩ := P.other taken haction
          refine ⟨steps', by rwa [hsame], ?_, ?_⟩
          · rw [hactions, List.map_append, List.filterMap_append]
            simp [haction]
          · rw [hevents, events_snoc, List.filterMap_append, hquiet, List.append_nil]
      | some b =>
          refine ⟨_, .step hrun' trivial (P.own taken haction), ?_, ?_⟩
          · rw [List.map_append, hactions, List.map_append, List.filterMap_append]
            simp [haction]
          · rw [events_snoc, hevents, events_snoc, List.filterMap_append]

end Part

/-! ## Images -/

/-- The image of a state steps as the state does. -/
def System.Image (M : System σ α ε) (N : System τ α ε) (f : σ → τ) : Prop :=
  ∀ s a, N.step (f s) a = (M.step s a).map fun r => (f r.1, r.2)

namespace System.Image

variable {M : System σ α ε} {N : System τ α ε} {f : σ → τ} {s₀ : σ} {t : τ}
  {steps' : List (Step τ α ε)}

/-- A run from an image is the image of a run. -/
theorem lift (h : M.Image N f) (hrun : N.Run anyStep (f s₀) steps' t) :
    ∃ steps s, M.Run anyStep s₀ steps s ∧ f s = t ∧
      steps.map Step.action = steps'.map Step.action ∧ events steps = events steps' := by
  induction hrun with
  | start => exact ⟨[], s₀, .start, rfl, rfl, rfl⟩
  | @step steps' t t' a es prior guard taken ih =>
      obtain ⟨steps, s, hrun, rfl, hactions, hevents⟩ := ih
      rw [h s a] at taken
      obtain ⟨⟨s', es'⟩, htaken, heq⟩ := Option.map_eq_some_iff.1 taken
      cases heq
      refine ⟨_, s', .step hrun trivial htaken, rfl, ?_, ?_⟩
      · rw [List.map_append, hactions, List.map_append]
        rfl
      · rw [events_snoc, hevents, events_snoc]

end System.Image

end AgentWorth.Lib
