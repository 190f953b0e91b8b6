import AgentWorth.Executor.Deployment
import AgentWorth.Executor.InFlight
import AgentWorth.Executor.Rows

/-!
# The end of an intent's life

An intent is filed as pending, blocked, settled or failed.  Only `approve` moves
it on, and only from pending; it checks the status before it awaits and writes
the outcome after, so an approval under way may still write over a row that
another one has closed.  Once none is under way, a closed row is final: later
calls change nothing of it but the amount refunded.
-/

namespace AgentWorth

open AgentWorth.Js AgentWorth.Lib

variable {σ : Type} {d : ExecutorDeps σ} (C : Contract d.store)

/-- No suspended call is an approval of the intent. -/
def NoApproval (id : String) (s : State σ) : Prop :=
  ∀ call ∈ s.calls, call.entry = .approve → call.intentId ≠ id

/-- The row of `x` is stored, with any amount refunded. -/
def Holds (s : State σ) (x : StoredIntent) : Prop :=
  ∃ x', (s.books C).intents.get x.id = some x' ∧ { x' with refundedMinor := x.refundedMinor } = x

theorem status_of_same {x x' : StoredIntent}
    (h : { x' with refundedMinor := x.refundedMinor } = x) : x'.status = x.status :=
  (congrArg StoredIntent.status h :)

/-- What an approval of an intent that is no longer pending throws. -/
def notPending (x : StoredIntent) : Event :=
  .threw ("intent " ++ x.id ++ " is " ++ x.status.text ++ ", not pending")

variable {C} {s s' : State σ} {a : Action} {es : List Event} {x : StoredIntent}

/-- Approvals are only started on pending rows. -/
theorem NoApproval.step (hnone : NoApproval x.id s) (hheld : Holds C s x)
    (hclosed : x.status ≠ .pending) (heffect : Effect C s a s' es) : NoApproval x.id s' := by
  obtain ⟨x', hx', hsame⟩ := hheld
  have hstatus := status_of_same hsame
  intro call hcall hentry
  cases heffect.mem_calls C hcall with
  | old mem => exact hnone call mem hentry
  | executed decides automatic => cases hentry
  | @answered _ _ call _ _ waiting returned =>
      exact hnone call (List.mem_of_getElem? (atRail_iff.1 waiting).1) hentry
  | @approved _ _ intentId _ _ y _ present pending decides passes =>
      show intentId ≠ x.id
      intro hid
      rw [C.getIntent, hid] at present
      have hrow : x' = y := Option.some.inj (hx'.symm.trans present)
      rw [← hrow, hstatus] at pending
      exact hclosed pending

/-- No step rewrites a closed row that no approval is waiting to write. -/
theorem Holds.step (hheld : Holds C s x) (hnone : NoApproval x.id s)
    (hclosed : x.status ≠ .pending) (heffect : Effect C s a s' es) : Holds C s' x := by
  obtain ⟨x₁, hx₁, hsame⟩ := hheld
  obtain ⟨x₂, hx₂, hchange⟩ := heffect.row C hx₁
  have hstatus := status_of_same hsame
  cases hchange with
  | kept unrefunded => exact ⟨x₁, hx₂, hsame⟩
  | refundLost waiting named nan => exact ⟨x₁, hx₂, hsame⟩
  | refunded waiting named quiet => exact ⟨_, hx₂, hsame⟩
  | refused pending unrefunded =>
      rw [hstatus] at pending
      exact absurd pending hclosed
  | approved waiting entry named =>
      have hcall := List.mem_of_getElem? (atResume_iff.1 waiting).1
      exact absurd named (hnone _ hcall entry)

/-- An approval of a closed row throws before it does anything. -/
theorem Holds.approve (hheld : Holds C s x) (hclosed : x.status ≠ .pending) {now : String}
    {src : Sources} {rationale : String} {acknowledged : Bool}
    (htaken : AgentWorth.step d s (.approve now src x.id rationale acknowledged) = some (s', es)) :
    s' = s ∧ es = [notPending x] := by
  obtain ⟨x', hx', hsame⟩ := hheld
  have hstatus := status_of_same hsame
  have hstored : d.store.getIntent s.world.store x.id = some x' := by
    rw [C.getIntent]
    exact hx'
  have hthrows : AgentWorth.approve d src now x.id rationale acknowledged s.world =
      .error ("intent " ++ x.id ++ " is " ++ x.status.text ++ ", not pending") s.world := by
    unfold AgentWorth.approve
    rw [get_bind, hstored]
    simp only [hstatus]
    rw [if_pos hclosed]
    rfl
  simp only [AgentWorth.step, hthrows, State.started] at htaken
  cases htaken
  exact ⟨rfl, rfl⟩

variable (C)

/-- **A closed row is final.**  In every run of one executor, from any state in
which a row is not pending and no approval of it is under way: whatever calls are
made and however they interleave, the row keeps its payment, mandate, status,
reasons, settlement time and receipt, and every approval of it throws and leaves
the executor as it was. -/
theorem closed_row_is_final {s₀ s : State σ} {steps : List (Step (State σ) Action Event)}
    (hrun : (executor d).Run anyStep s₀ steps s) {x : StoredIntent}
    (hheld : (s₀.books C).intents.get x.id = some x) (hclosed : x.status ≠ .pending)
    (hnone : NoApproval x.id s₀) :
    Holds C s x ∧ ∀ t ∈ steps, ∀ now src rationale acknowledged,
      t.action = .approve now src x.id rationale acknowledged →
        t.after = t.before ∧ t.events = [notPending x] := by
  have hinv := hrun.invariant (fun steps s => Holds C s x ∧ NoApproval x.id s ∧
    ∀ t ∈ steps, ∀ now src rationale acknowledged,
      t.action = .approve now src x.id rationale acknowledged →
        t.after = t.before ∧ t.events = [notPending x])
    ⟨⟨x, hheld, rfl⟩, hnone, by simp⟩ ?_
  · exact ⟨hinv.1, hinv.2.2⟩
  rintro steps s a s' es ⟨hholds, hfree, hpast⟩ _ htaken
  obtain ⟨heffect, -⟩ := step_effect C htaken
  refine ⟨hholds.step hfree hclosed heffect, hfree.step hholds hclosed heffect, ?_⟩
  intro t ht now src rationale acknowledged haction
  rcases List.mem_append.1 ht with h | h
  · exact hpast t h now src rationale acknowledged haction
  · rw [List.mem_singleton.1 h] at haction ⊢
    subst haction
    exact hholds.approve hclosed htaken

namespace Sample

/-- Two approvals of a payment that settled long ago, around a new payment. -/
def lateApprovals : List Action :=
  [.approve noon {} "earlier" "again" true, pay "p" 40, settles 0 "p" 40, .resume 0,
    .approve noon {} "earlier" "and again" false]

end Sample

theorem closed_row_is_final_late : ∃ steps s,
    (executor Sample.deps).Run anyStep Sample.start steps s ∧ steps.length = 5 ∧
    Holds (d := Sample.deps) memoryContract s Sample.history ∧
    ∀ t ∈ steps, ∀ now src rationale acknowledged,
      t.action = .approve now src Sample.history.id rationale acknowledged →
        t.after = t.before ∧ t.events = [notPending Sample.history] := by
  obtain ⟨steps, s, hrun, hlength⟩ := System.exists_run (executor Sample.deps) anyStep
    Sample.start Sample.lateApprovals (fun steps _ => steps.length == 5) (by decide +kernel)
  have hfinal := closed_row_is_final (d := Sample.deps) memoryContract hrun
    (x := Sample.history) (by decide +kernel) (by decide)
    (by simp [NoApproval, Sample.start, deploy])
  exact ⟨steps, s, hrun, eq_of_beq hlength, hfinal⟩

end AgentWorth
