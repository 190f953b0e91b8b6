import Mathlib.Logic.Basic

/-!
# Computations that may throw

`Except` for pure computations and `EStateM` for stateful ones, where a throw
keeps the state written so far, as an exception does in an imperative program.
`Moves` says how far a run can take the state, whichever way it ends; its rules
take a program apart along its binds.
-/

namespace AgentWorth.Lib

section Pure

variable {ε α β γ : Type}

theorem except_map_map (x : Except ε α) (f : α → β) (g : β → γ) :
    (x.map f).map g = x.map fun a => g (f a) := by
  cases x <;> rfl

theorem except_bind_eq_ok {x : Except ε α} {f : α → Except ε β} {b : β} :
    x.bind f = .ok b ↔ ∃ a, x = .ok a ∧ f a = .ok b := by
  cases x with
  | error e => simp [Except.bind]
  | ok a => simp [Except.bind]

theorem except_map_eq_ok {x : Except ε α} {f : α → β} {b : β} :
    x.map f = .ok b ↔ ∃ a, x = .ok a ∧ f a = b := by
  cases x with
  | error e => simp [Except.map]
  | ok a => simp [Except.map]

theorem except_toOption_eq_some {x : Except ε α} {a : α} :
    x.toOption = some a ↔ x = .ok a := by
  cases x with
  | error e => simp [Except.toOption]
  | ok b => simp [Except.toOption]

end Pure

section Stateful

variable {ε σ α β : Type}

/-- The state a run leaves, whether it returned or threw. -/
def stateAfter : EStateM.Result ε σ α → σ
  | .ok _ s => s
  | .error _ s => s

/-- Every run of `x` moves the state along `R`. -/
def Moves (R : σ → σ → Prop) (x : EStateM ε σ α) : Prop := ∀ s, R s (stateAfter (x s))

theorem get_bind (f : σ → EStateM ε σ α) (s : σ) : (get >>= f) s = f s s := rfl

variable {R : σ → σ → Prop} {x y : EStateM ε σ α} {f : α → EStateM ε σ β}

theorem Moves.pure (hrefl : ∀ s, R s s) (a : α) : Moves R (pure a : EStateM ε σ α) := hrefl

theorem Moves.throw (hrefl : ∀ s, R s s) (e : ε) : Moves R (throw e : EStateM ε σ α) := hrefl

/-- **Sequencing**, for a relation that composes. -/
theorem Moves.bind (htrans : ∀ {a b c}, R a b → R b c → R a c) (hx : Moves R x)
    (hf : ∀ a, Moves R (f a)) : Moves R (x >>= f) := by
  intro s
  have hs := hx s
  show R s (stateAfter (EStateM.bind x f s))
  unfold EStateM.bind
  cases hxs : x s with
  | ok a s' =>
      rw [hxs] at hs
      exact htrans hs (hf a s')
  | error e s' =>
      rw [hxs] at hs
      exact hs

/-- A program that begins by reading the state. -/
theorem Moves.get {f : σ → EStateM ε σ β} (hf : ∀ a, Moves R (f a)) :
    Moves R (get >>= f) := fun s => hf s s

/-- What a handler does: nothing to a run that returned. -/
theorem tryCatch_apply (x : EStateM ε σ α) (handler : ε → EStateM ε σ α) (s : σ) :
    tryCatch x handler s =
      match x s with
      | .ok a s' => .ok a s'
      | .error e s' => handler e s' := by
  show EStateM.tryCatch x handler s = _
  unfold EStateM.tryCatch
  cases x s <;> rfl

/-- **Handlers** start in the state the throw left. -/
theorem Moves.tryCatch {handler : ε → EStateM ε σ α}
    (htrans : ∀ {a b c}, R a b → R b c → R a c) (hx : Moves R x)
    (hh : ∀ e, Moves R (handler e)) : Moves R (tryCatch x handler) := by
  intro s
  have hs := hx s
  rw [tryCatch_apply]
  cases hxs : x s with
  | ok a s' =>
      rw [hxs] at hs
      exact hs
  | error e s' =>
      rw [hxs] at hs
      exact htrans hs (hh e s')

end Stateful

end AgentWorth.Lib
