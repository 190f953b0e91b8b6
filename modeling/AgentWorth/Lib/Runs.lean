import Mathlib.Data.List.Basic

/-!
# Runs of a stepping system

A system steps from state to state under actions chosen by its environment and
emits events.  A run keeps every step it took, so a property can speak of the
state before a step, of the events up to it, or of the state reached.  A run
may be restricted to steps that meet a guard, which reads the steps taken so
far and the state before the step.
-/

namespace AgentWorth.Lib

/-- Deterministic once the action is chosen; `none` when the action is not
possible in the state. -/
structure System (σ α ε : Type) where
  step : σ → α → Option (σ × List ε)

/-- One step of a run. -/
structure Step (σ α ε : Type) where
  before : σ
  action : α
  events : List ε
  after : σ

variable {σ α ε : Type}

/-- A condition on the next step, given the steps taken and the state. -/
abbrev Guard (σ α ε : Type) := List (Step σ α ε) → σ → α → Prop

/-- Runs under no discipline. -/
def anyStep : Guard σ α ε := fun _ _ _ => True

instance (steps : List (Step σ α ε)) (s : σ) (a : α) : Decidable (anyStep steps s a) :=
  inferInstanceAs (Decidable True)

/-- The events of a run, in order. -/
def events (steps : List (Step σ α ε)) : List ε := steps.flatMap Step.events

@[simp] theorem events_nil : events ([] : List (Step σ α ε)) = [] := rfl

@[simp] theorem events_snoc (steps : List (Step σ α ε)) (t : Step σ α ε) :
    events (steps ++ [t]) = events steps ++ t.events := by
  simp [events]

namespace System

/-- The runs of a system from `s₀` whose steps all meet the guard. -/
inductive Run (M : System σ α ε) (G : Guard σ α ε) (s₀ : σ) :
    List (Step σ α ε) → σ → Prop
  | start : Run M G s₀ [] s₀
  | step {steps : List (Step σ α ε)} {s s' : σ} {a : α} {es : List ε}
      (prior : Run M G s₀ steps s) (guard : G steps s a)
      (taken : M.step s a = some (s', es)) :
      Run M G s₀ (steps ++ [⟨s, a, es, s'⟩]) s'

variable {M : System σ α ε} {G : Guard σ α ε} {s₀ s : σ} {steps : List (Step σ α ε)}

/-- **Invariant rule.**  What holds at the start and is kept by every guarded
step holds along every run, for the steps taken and the state reached. -/
theorem Run.invariant (I : List (Step σ α ε) → σ → Prop) (hrun : Run M G s₀ steps s)
    (hstart : I [] s₀)
    (hstep : ∀ steps s a s' es, I steps s → G steps s a → M.step s a = some (s', es) →
      I (steps ++ [⟨s, a, es, s'⟩]) s') : I steps s := by
  induction hrun with
  | start => exact hstart
  | step _ hg ht ih => exact hstep _ _ _ _ _ ih hg ht

/-- A run of one step. -/
theorem Run.first (M : System σ α ε) (G : Guard σ α ε) (s₀ : σ) (a : α) {s' : σ} {es : List ε}
    (guard : G [] s₀ a) (taken : M.step s₀ a = some (s', es)) :
    Run M G s₀ [⟨s₀, a, es, s'⟩] s' :=
  .step .start guard taken

/-- Every step of a run was possible. -/
theorem Run.taken_of_mem (hrun : Run M G s₀ steps s) {t : Step σ α ε} (ht : t ∈ steps) :
    M.step t.before t.action = some (t.after, t.events) := by
  refine hrun.invariant (fun steps _ => ∀ t ∈ steps,
    M.step t.before t.action = some (t.after, t.events)) (by simp) ?_ t ht
  intro steps s a s' es ih _ htaken t ht
  rcases List.mem_append.1 ht with h | h
  · exact ih t h
  · rw [List.mem_singleton.1 h]
    exact htaken

/-- A run under a guard is a run under every weaker one. -/
theorem Run.mono {G' : Guard σ α ε} (himp : ∀ steps s a, G steps s a → G' steps s a)
    (hrun : Run M G s₀ steps s) : Run M G' s₀ steps s := by
  induction hrun with
  | start => exact .start
  | step _ hg ht ih => exact .step ih (himp _ _ _ hg) ht

/-! ### Executing actions -/

/-- Take the listed actions in turn, as long as each meets the guard and is
possible. -/
def exec (M : System σ α ε) (G : Guard σ α ε) [∀ steps s a, Decidable (G steps s a)]
    (steps : List (Step σ α ε)) (s : σ) : List α → Option (List (Step σ α ε) × σ)
  | [] => some (steps, s)
  | a :: as =>
      if G steps s a then
        (M.step s a).bind fun r => exec M G (steps ++ [⟨s, a, r.2, r.1⟩]) r.1 as
      else none

theorem run_of_exec [∀ steps s a, Decidable (G steps s a)] :
    ∀ (as : List α) (steps : List (Step σ α ε)) (s : σ) (steps' : List (Step σ α ε)) (s' : σ),
      Run M G s₀ steps s → M.exec G steps s as = some (steps', s') →
        Run M G s₀ steps' s' := by
  intro as
  induction as with
  | nil =>
      intro steps s steps' s' hrun h
      cases h
      exact hrun
  | cons a as ih =>
      intro steps s steps' s' hrun h
      simp only [exec] at h
      split at h
      · next hg =>
          obtain ⟨⟨s₁, es⟩, hstep, hrest⟩ := Option.bind_eq_some_iff.1 h
          exact ih _ _ _ _ (.step hrun hg hstep) hrest
      · cases h

/-- What the execution of some actions shows, a run shows. -/
theorem exists_run (M : System σ α ε) (G : Guard σ α ε) (s₀ : σ)
    [∀ steps s a, Decidable (G steps s a)] (as : List α)
    (p : List (Step σ α ε) → σ → Bool)
    (h : (M.exec G [] s₀ as).any (fun r => p r.1 r.2) = true) :
    ∃ steps s, Run M G s₀ steps s ∧ p steps s = true := by
  cases hexec : M.exec G [] s₀ as with
  | none => simp [hexec] at h
  | some r =>
      obtain ⟨steps, s⟩ := r
      exact ⟨steps, s, run_of_exec as [] s₀ steps s .start hexec, by simpa [hexec] using h⟩

end System

end AgentWorth.Lib
