import AgentWorth.Lib.Logs
import AgentWorth.Lib.Runs

/-!
# Steps and what came before them

A property of a step may speak of the steps before it: a reply after its
request, an effect after its cause.  It holds throughout a run when each step,
as it is taken, has it.
-/

namespace AgentWorth.Lib

variable {α : Type}

/-- Every entry has the property with the entries before it. -/
def Throughout (P : List α → α → Prop) (log : List α) : Prop :=
  ∀ before x after, log = before ++ x :: after → P before x

theorem throughout_iff {P : List α → α → Prop} {log : List α} :
    Throughout P log ↔ ¬ Occurs (fun before x => ¬ P before x) log := by
  constructor
  · rintro h ⟨before, x, after, hsplit, hx⟩
    exact hx (h before x after hsplit)
  · intro h before x after hsplit
    by_contra hx
    exact h ⟨before, x, after, hsplit, hx⟩

theorem throughout_nil {P : List α → α → Prop} : Throughout P [] :=
  throughout_iff.2 not_occurs_nil

/-- One more entry. -/
theorem throughout_snoc {P : List α → α → Prop} {log : List α} {x : α} :
    Throughout P (log ++ [x]) ↔ Throughout P log ∧ P log x := by
  rw [throughout_iff, throughout_iff, occurs_snoc, not_or, not_not]

namespace System

variable {σ α ε : Type} {M : System σ α ε} {G : Guard σ α ε} {s₀ s : σ}
  {steps : List (Step σ α ε)}

/-- **History rule.**  A property that an invariant gives to each step as it is
taken holds throughout the run. -/
theorem Run.throughout (I : List (Step σ α ε) → σ → Prop)
    (P : List (Step σ α ε) → Step σ α ε → Prop) (hrun : Run M G s₀ steps s)
    (hstart : I [] s₀)
    (hstep : ∀ steps s a s' es, I steps s → G steps s a → M.step s a = some (s', es) →
      I (steps ++ [⟨s, a, es, s'⟩]) s' ∧ P steps ⟨s, a, es, s'⟩) :
    I steps s ∧ Throughout P steps := by
  refine hrun.invariant (fun steps s => I steps s ∧ Throughout P steps)
    ⟨hstart, throughout_nil⟩ ?_
  rintro steps s a s' es ⟨hinv, hpast⟩ hguard htaken
  obtain ⟨hinv', hnow⟩ := hstep steps s a s' es hinv hguard htaken
  exact ⟨hinv', throughout_snoc.2 ⟨hpast, hnow⟩⟩

/-- Steps that change nothing may be left out of a run. -/
theorem Run.filter (hrun : Run M anyStep s₀ steps s) (p : Step σ α ε → Bool)
    (hidle : ∀ t ∈ steps, p t = false → t.after = t.before) :
    Run M anyStep s₀ (steps.filter p) s := by
  induction hrun with
  | start => exact .start
  | @step steps s s' a es prior guard taken ih =>
      have hprior := ih fun t ht => hidle t (List.mem_append_left _ ht)
      rw [List.filter_append]
      by_cases hp : p ⟨s, a, es, s'⟩ = true
      · rw [List.filter_cons_of_pos hp, List.filter_nil]
        exact .step hprior trivial taken
      · have hsame : s' = s := hidle ⟨s, a, es, s'⟩
          (List.mem_append_right _ List.mem_cons_self) (Bool.eq_false_iff.2 hp)
        rw [List.filter_cons_of_neg hp, List.filter_nil, List.append_nil, hsame]
        exact hprior

end System

end AgentWorth.Lib
