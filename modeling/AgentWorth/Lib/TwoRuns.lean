import AgentWorth.Lib.Effect
import AgentWorth.Lib.Runs
import Mathlib.Data.List.Forall2

/-!
# Two runs side by side

A property of pairs of runs is shown by a relation between states that both
runs keep.  For `Except`, `Ends` says that two computations fail with the same
error or succeed with related values; for `EStateM`, `Twins` says the same of
programs started in related states, and has a rule for each way a program is
put together.  For a stepping system, one step is enough.  Lists related
element by element give the same answer to questions their elements answer
alike.
-/

namespace AgentWorth.Lib

section Pure

variable {ε α β γ δ : Type} {R : α → β → Prop} {Q : γ → δ → Prop}

/-- Both succeed, with related values, or both fail with one error. -/
inductive Ends (R : α → β → Prop) : Except ε α → Except ε β → Prop
  | ok {a : α} {b : β} (related : R a b) : Ends R (.ok a) (.ok b)
  | error (e : ε) : Ends R (.error e) (.error e)

theorem Ends.self (x : Except ε α) : Ends (· = ·) x x := by
  cases x with
  | ok a => exact .ok rfl
  | error e => exact .error e

theorem Ends.map {x : Except ε α} {y : Except ε β} (h : Ends R x y) {f : α → γ} {g : β → δ}
    (hfg : ∀ {a b}, R a b → Q (f a) (g b)) : Ends Q (x.map f) (y.map g) := by
  cases h with
  | ok hab => exact .ok (hfg hab)
  | error e => exact .error e

theorem Ends.bind {x : Except ε α} {y : Except ε β} (h : Ends R x y)
    {f : α → Except ε γ} {g : β → Except ε δ}
    (hfg : ∀ {a b}, R a b → Ends Q (f a) (g b)) : Ends Q (x.bind f) (y.bind g) := by
  cases h with
  | ok hab => exact hfg hab
  | error e => exact .error e

/-- A check made in both, before the rest. -/
theorem Ends.guarded {p : Prop} [Decidable p] {e : ε} {x : Except ε α} {y : Except ε β}
    (h : Ends R x y) :
    Ends R (if p then .error e else x) (if p then .error e else y) := by
  by_cases hp : p
  · rw [if_pos hp, if_pos hp]
    exact .error e
  · rw [if_neg hp, if_neg hp]
    exact h

/-- Optional values with one image are both present or both absent. -/
theorem rel_of_map_eq {f : α → γ} {g : β → γ} {o : Option α} {o' : Option β}
    (h : o.map f = o'.map g) : Option.Rel (fun a b => f a = g b) o o' := by
  cases o with
  | none =>
      cases o' with
      | none => exact .none
      | some b => cases h
  | some a =>
      cases o' with
      | none => cases h
      | some b => exact .some (Option.some.inj h)

theorem option_rel_map {o : Option α} {o' : Option β} (h : Option.Rel R o o') {f : α → γ}
    {g : β → δ} (hfg : ∀ {a b}, R a b → Q (f a) (g b)) : Option.Rel Q (o.map f) (o'.map g) := by
  cases h with
  | none => exact .none
  | some hab => exact .some (hfg hab)

end Pure

section Stateful

variable {ε σ τ α β γ δ : Type}

/-- Both runs return, with related values, or both throw one error; either way
the states they leave are related. -/
inductive EndsIn (R : σ → τ → Prop) (Q : α → β → Prop) :
    EStateM.Result ε σ α → EStateM.Result ε τ β → Prop
  | ok {a : α} {b : β} {s : σ} {t : τ} (related : Q a b) (states : R s t) :
      EndsIn R Q (.ok a s) (.ok b t)
  | error (e : ε) {s : σ} {t : τ} (states : R s t) : EndsIn R Q (.error e s) (.error e t)

/-- Started in related states, the two programs end alike. -/
def Twins (R : σ → τ → Prop) (Q : α → β → Prop) (x : EStateM ε σ α) (y : EStateM ε τ β) : Prop :=
  ∀ s t, R s t → EndsIn R Q (x s) (y t)

variable {R : σ → τ → Prop} {Q : α → β → Prop} {P : γ → δ → Prop}
  {x : EStateM ε σ α} {y : EStateM ε τ β}

theorem Twins.pure {a : α} {b : β} (h : Q a b) :
    Twins R Q (pure a : EStateM ε σ α) (pure b) := fun _ _ hst => .ok h hst

theorem Twins.throw (e : ε) : Twins R Q (throw e : EStateM ε σ α) (throw e) :=
  fun _ _ hst => .error e hst

/-- **Sequencing.** -/
theorem Twins.bind (hxy : Twins R Q x y) {f : α → EStateM ε σ γ} {g : β → EStateM ε τ δ}
    (hfg : ∀ {a b}, Q a b → Twins R P (f a) (g b)) : Twins R P (x >>= f) (y >>= g) := by
  intro s t hst
  have hends := hxy s t hst
  show EndsIn R P (EStateM.bind x f s) (EStateM.bind y g t)
  unfold EStateM.bind
  generalize x s = r at hends ⊢
  generalize y t = r' at hends ⊢
  cases hends with
  | ok hab hstates => exact hfg hab _ _ hstates
  | error e hstates => exact .error e hstates

/-- Programs that begin by reading the state. -/
theorem Twins.get {f : σ → EStateM ε σ γ} {g : τ → EStateM ε τ δ}
    (hfg : ∀ s t, R s t → Twins R P (f s) (g t)) : Twins R P (get >>= f) (get >>= g) :=
  fun s t hst => hfg s t hst s t hst

/-- **Handlers**, for runs whose values are related alike before and after. -/
theorem Twins.tryCatch {handler : ε → EStateM ε σ α} {handler' : ε → EStateM ε τ β}
    (hxy : Twins R Q x y) (hhandler : ∀ e, Twins R Q (handler e) (handler' e)) :
    Twins R Q (tryCatch x handler) (tryCatch y handler') := by
  intro s t hst
  have hends := hxy s t hst
  rw [tryCatch_apply, tryCatch_apply]
  generalize x s = r at hends ⊢
  generalize y t = r' at hends ⊢
  cases hends with
  | ok hab hstates => exact .ok hab hstates
  | error e hstates => exact hhandler e _ _ hstates

end Stateful

section Lists

variable {β γ δ : Type} {R : β → γ → Prop} {bs : List β} {cs : List γ}

theorem forall₂_filter {p : β → Bool} {q : γ → Bool} (hpq : ∀ {b c}, R b c → p b = q c)
    (h : List.Forall₂ R bs cs) : List.Forall₂ R (bs.filter p) (cs.filter q) :=
  List.rel_filter (fun _ _ hbc => by simp only [hpq hbc]) h

theorem map_eq_of_forall₂ {f : β → δ} {g : γ → δ} (hfg : ∀ {b c}, R b c → f b = g c)
    (h : List.Forall₂ R bs cs) : bs.map f = cs.map g := by
  induction h with
  | nil => rfl
  | cons hbc _ ih => rw [List.map_cons, List.map_cons, hfg hbc, ih]

theorem any_eq_of_forall₂ {p : β → Bool} {q : γ → Bool} (hpq : ∀ {b c}, R b c → p b = q c)
    (h : List.Forall₂ R bs cs) : bs.any p = cs.any q := by
  induction h with
  | nil => rfl
  | cons hbc _ ih => rw [List.any_cons, List.any_cons, hpq hbc, ih]

theorem findSome?_eq_of_forall₂ {f : β → Option δ} {g : γ → Option δ}
    (hfg : ∀ {b c}, R b c → f b = g c) (h : List.Forall₂ R bs cs) :
    bs.findSome? f = cs.findSome? g := by
  induction h with
  | nil => rfl
  | cons hbc _ ih => rw [List.findSome?_cons, List.findSome?_cons, hfg hbc, ih]

theorem foldl_eq_of_forall₂ {f : δ → β → δ} {g : δ → γ → δ}
    (hfg : ∀ {b c}, R b c → ∀ a, f a b = g a c) (h : List.Forall₂ R bs cs) (a : δ) :
    bs.foldl f a = cs.foldl g a := by
  induction h generalizing a with
  | nil => rfl
  | cons hbc _ ih => rw [List.foldl_cons, List.foldl_cons, hfg hbc, ih]

/-! ### By position -/

theorem forall₂_getElem? (h : List.Forall₂ R bs cs) (k : Nat) : Option.Rel R bs[k]? cs[k]? := by
  induction h generalizing k with
  | nil => exact .none
  | cons hbc _ ih =>
      cases k with
      | zero => exact .some hbc
      | succ k => exact ih k

theorem forall₂_set (h : List.Forall₂ R bs cs) {b : β} {c : γ} (hbc : R b c) (k : Nat) :
    List.Forall₂ R (bs.set k b) (cs.set k c) := by
  induction h generalizing k with
  | nil => exact .nil
  | cons hhead htail ih =>
      cases k with
      | zero => exact .cons hbc htail
      | succ k => exact .cons hhead (ih k)

theorem forall₂_eraseIdx (h : List.Forall₂ R bs cs) (k : Nat) :
    List.Forall₂ R (bs.eraseIdx k) (cs.eraseIdx k) := by
  induction h generalizing k with
  | nil => exact .nil
  | cons hhead htail ih =>
      cases k with
      | zero => exact htail
      | succ k => exact .cons hhead (ih k)

theorem forall₂_snoc {b : β} {c : γ} (h : List.Forall₂ R (bs ++ [b]) (cs ++ [c])) :
    List.Forall₂ R bs cs ∧ R b c := by
  rw [← List.forall₂_reverse_iff] at h
  simp only [List.reverse_append, List.reverse_cons, List.reverse_nil, List.nil_append,
    List.singleton_append, List.forall₂_cons, List.forall₂_reverse_iff] at h
  exact ⟨h.2, h.1⟩

end Lists

section Runs

variable {σ α ε : Type}

/-- Steps of two runs of a system: what each leaves and emits is related. -/
def StepAlike (R : σ → σ → Prop) (E : ε → ε → Prop) (r r' : σ × List ε) : Prop :=
  R r.1 r'.1 ∧ List.Forall₂ E r.2 r'.2

/-- From related states, related actions are possible in both or in neither,
and lead to related states and events. -/
def System.Lockstep (M : System σ α ε) (R : σ → σ → Prop) (A : α → α → Prop)
    (E : ε → ε → Prop) : Prop :=
  ∀ {s t : σ} {a b : α}, R s t → A a b → Option.Rel (StepAlike R E) (M.step s a) (M.step t b)

/-- **Two-run rule.**  Runs of related actions from related states emit related
events and reach related states. -/
theorem System.Run.alike {M : System σ α ε} {R : σ → σ → Prop} {A : α → α → Prop}
    {E : ε → ε → Prop} (hlock : M.Lockstep R A E) {G G' : Guard σ α ε} {s₀ t₀ s t : σ}
    {steps steps' : List (Step σ α ε)} (hstart : R s₀ t₀)
    (hrun : M.Run G s₀ steps s) (hrun' : M.Run G' t₀ steps' t)
    (hactions : List.Forall₂ A (steps.map Step.action) (steps'.map Step.action)) :
    R s t ∧ List.Forall₂ E (events steps) (events steps') := by
  induction hrun generalizing steps' t with
  | start =>
      cases hrun' with
      | start => exact ⟨hstart, .nil⟩
      | step _ _ _ => simp at hactions
  | step _ _ htaken ih =>
      cases hrun' with
      | start => simp at hactions
      | step prior' _ htaken' =>
          simp only [List.map_append, List.map_cons, List.map_nil] at hactions
          obtain ⟨hpast, hlast⟩ := forall₂_snoc hactions
          obtain ⟨hstates, hevents⟩ := ih prior' hpast
          have hrel := hlock hstates hlast
          rw [htaken, htaken'] at hrel
          cases hrel with
          | some halike =>
              rw [events_snoc, events_snoc]
              exact ⟨halike.1, List.rel_append hevents halike.2⟩

/-- The steps an execution takes are those of the listed actions. -/
theorem System.actions_of_exec {M : System σ α ε} {G : Guard σ α ε}
    [∀ steps s a, Decidable (G steps s a)] {as : List α} {steps steps' : List (Step σ α ε)}
    {s s' : σ} (h : M.exec G steps s as = some (steps', s')) :
    steps'.map Step.action = steps.map Step.action ++ as := by
  induction as generalizing steps s with
  | nil =>
      cases h
      rw [List.append_nil]
  | cons a as ih =>
      simp only [System.exec] at h
      split at h
      · obtain ⟨r, -, hrest⟩ := Option.bind_eq_some_iff.1 h
        rw [ih hrest, List.map_append, List.append_assoc]
        rfl
      · cases h

/-- A run of the listed actions, with what its execution shows. -/
theorem System.exists_run_of (M : System σ α ε) (s₀ : σ) (as : List α)
    (p : List (Step σ α ε) → Bool)
    (h : (M.exec anyStep [] s₀ as).any (fun r => p r.1) = true) :
    ∃ steps s, M.Run anyStep s₀ steps s ∧ steps.map Step.action = as ∧ p steps = true := by
  cases hexec : M.exec anyStep [] s₀ as with
  | none => simp [hexec] at h
  | some r =>
      obtain ⟨steps, s⟩ := r
      exact ⟨steps, s, run_of_exec as [] s₀ steps s .start hexec, actions_of_exec hexec,
        by simpa [hexec] using h⟩

end Runs

end AgentWorth.Lib
