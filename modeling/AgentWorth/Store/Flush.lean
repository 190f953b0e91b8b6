import AgentWorth.Lib.Runs

/-!
# The flush barrier

`enqueue` and `flush` of `src/store/postgresStore.ts`, one step for each turn of
the event loop.  Callers share the promise of the flush under way; the loop that
drains the queue ends in one turn, and `flushing` is cleared in a later one.
-/

namespace AgentWorth

open AgentWorth.Lib

/-- Where the promise in `flushing` stands. -/
inductive FlushPhase where
  /-- `flushing` is undefined -/
  | idle
  /-- the loop awaits `queue[0]()` -/
  | awaiting
  /-- that promise has settled, and the loop will resume -/
  | settled (fulfilled : Bool)
  /-- the loop has ended, and the `finally` callback will run -/
  | ended (fulfilled : Bool)
  deriving DecidableEq, Repr

/-- The queue of writes and the calls of `flush` that have not returned.  Each
call keeps the writes that were enqueued before it. -/
structure FlushState (ω : Type) where
  queue : List ω
  phase : FlushPhase
  /-- calls that await the promise in `flushing` -/
  joined : List (List ω)
  /-- calls whose promise has settled, and how -/
  released : List (Bool × List ω)
  /-- every write enqueued so far -/
  enqueued : List ω
  /-- every write whose promise was fulfilled, in the order of fulfilment -/
  executed : List ω

inductive FlushAction (ω : Type) where
  | enqueue (w : ω)
  /-- a call of `flush()`, up to its `await` -/
  | flush
  /-- the client settles the promise of `queue[0]()` -/
  | settle (fulfilled : Bool)
  /-- the loop resumes after its `await` -/
  | resume
  /-- the `finally` callback -/
  | reset
  /-- a call of `flush()` resumes and returns -/
  | answer (caller : Nat)

inductive FlushEvent (ω : Type) where
  /-- a call resolved that was made after the given writes -/
  | resolved (before : List ω)
  | rejected (before : List ω)

namespace FlushState

variable {ω : Type}

def start : FlushState ω where
  queue := []
  phase := .idle
  joined := []
  released := []
  enqueued := []
  executed := []

/-- The head of the loop: the phase that `while (queue.length > 0)` leads to. -/
def loop (queue : List ω) : FlushPhase := if queue.isEmpty then .ended true else .awaiting

end FlushState

open FlushState in
def flushing (ω : Type) : System (FlushState ω) (FlushAction ω) (FlushEvent ω) where
  step s
    | .enqueue w =>
        some ({ s with queue := s.queue ++ [w], enqueued := s.enqueued ++ [w] }, [])
    | .flush =>
        let joined := s.joined ++ [s.enqueued]
        match s.phase with
        | .idle => some ({ s with phase := loop s.queue, joined := joined }, [])
        | _ => some ({ s with joined := joined }, [])
    | .settle fulfilled =>
        match s.phase, s.queue with
        | .awaiting, w :: _ =>
            some ({ s with
              phase := .settled fulfilled
              executed := if fulfilled then s.executed ++ [w] else s.executed }, [])
        | _, _ => none
    | .resume =>
        match s.phase with
        | .settled true =>
            some ({ s with queue := s.queue.tail, phase := loop s.queue.tail }, [])
        | .settled false => some ({ s with phase := .ended false }, [])
        | _ => none
    | .reset =>
        match s.phase with
        | .ended fulfilled =>
            some ({ s with
              phase := .idle
              joined := []
              released := s.released ++ s.joined.map fun before => (fulfilled, before) }, [])
        | _ => none
    | .answer caller =>
        match s.released[caller]? with
        | none => none
        | some (fulfilled, before) =>
            some ({ s with released := s.released.eraseIdx caller },
              [if fulfilled then .resolved before else .rejected before])

section Barrier

variable {ω : Type}

/-- No call joins a flush whose loop found the queue empty while writes have
been enqueued since. -/
def noLateJoin : Guard (FlushState ω) (FlushAction ω) (FlushEvent ω)
  | _, s, .flush => s.phase = .ended true → s.queue = []
  | _, _, _ => True

/-- The writes that are still to be executed: a fulfilled write stays at the
head of the queue until the loop resumes. -/
def FlushState.left (s : FlushState ω) : List ω :=
  if s.phase = .settled true then s.queue.tail else s.queue

structure FlushInv (s : FlushState ω) : Prop where
  pending : s.executed ++ s.left = s.enqueued
  head : s.phase = .settled true → s.queue ≠ []
  idle : s.phase = .idle → s.joined = []
  joined : ∀ before ∈ s.joined, before <+: s.enqueued
  ended : s.phase = .ended true → ∀ before ∈ s.joined, before <+: s.executed
  released : ∀ before, (true, before) ∈ s.released → before <+: s.executed

theorem flushInv_start : FlushInv (FlushState.start : FlushState ω) where
  pending := rfl
  head h := by cases h
  idle _ := rfl
  joined _ h := by cases h
  ended h := by cases h
  released _ h := by cases h

/-- The head of the loop: the queue is what is left, and when it is empty
everything was executed. -/
theorem flushInv_loop {s : FlushState ω} {queue : List ω} {joined : List (List ω)}
    (hpending : s.executed ++ queue = s.enqueued)
    (hjoined : ∀ before ∈ joined, before <+: s.enqueued)
    (hreleased : ∀ before, (true, before) ∈ s.released → before <+: s.executed) :
    FlushInv { s with queue := queue, phase := FlushState.loop queue, joined := joined } := by
  unfold FlushState.loop
  cases queue with
  | nil =>
      rw [List.append_nil] at hpending
      constructor
      case pending =>
        show s.executed ++ [] = s.enqueued
        rw [List.append_nil, hpending]
      case ended =>
        intro _ before hbefore
        show before <+: s.executed
        rw [hpending]
        exact hjoined before hbefore
      case joined => exact hjoined
      case released => exact hreleased
      all_goals
        intro hphase
        cases hphase
  | cons w rest =>
      constructor
      case pending => exact hpending
      case joined => exact hjoined
      case released => exact hreleased
      all_goals
        intro hphase
        cases hphase

/-- Outside the turn before the loop resumes, the whole queue is left. -/
theorem FlushState.left_eq {s : FlushState ω} (h : s.phase ≠ .settled true) :
    s.left = s.queue := if_neg h

theorem flushInv_enqueue {s : FlushState ω} (h : FlushInv s) (w : ω) :
    FlushInv { s with queue := s.queue ++ [w], enqueued := s.enqueued ++ [w] } where
  pending := by
    show s.executed ++ (if s.phase = .settled true then (s.queue ++ [w]).tail
      else s.queue ++ [w]) = s.enqueued ++ [w]
    have hpending := h.pending
    unfold FlushState.left at hpending
    split at hpending
    · next hphase =>
        rw [if_pos hphase, List.tail_append_of_ne_nil (h.head hphase), ← List.append_assoc,
          hpending]
    · next hphase => rw [if_neg hphase, ← List.append_assoc, hpending]
  head _ := by simp
  idle := h.idle
  joined before hbefore := (h.joined before hbefore).trans (List.prefix_append _ _)
  ended := h.ended
  released := h.released

/-- A call that joins the flush under way. -/
theorem flushInv_join {s : FlushState ω} (h : FlushInv s) (hphase : s.phase ≠ .idle)
    (hlate : s.phase = .ended true → s.queue = []) :
    FlushInv { s with joined := s.joined ++ [s.enqueued] } where
  pending := h.pending
  head := h.head
  idle hidle := absurd hidle hphase
  joined before hbefore := by
    rcases List.mem_append.1 hbefore with hold | hnew
    · exact h.joined before hold
    · obtain rfl := List.mem_singleton.1 hnew
      exact List.prefix_refl _
  ended hended before hbefore := by
    rcases List.mem_append.1 hbefore with hold | hnew
    · exact h.ended hended before hold
    · have hpending := h.pending
      have hne : s.phase ≠ .settled true := by
        rw [hended]
        decide
      rw [FlushState.left_eq hne, hlate hended, List.append_nil] at hpending
      obtain rfl := List.mem_singleton.1 hnew
      exact ⟨[], by rw [List.append_nil, hpending]⟩
  released := h.released

theorem flushInv_step {steps : List (Step (FlushState ω) (FlushAction ω) (FlushEvent ω))}
    {s s' : FlushState ω} {a : FlushAction ω} {es : List (FlushEvent ω)} (h : FlushInv s)
    (hguard : noLateJoin steps s a) (htaken : (flushing ω).step s a = some (s', es)) :
    FlushInv s' := by
  cases a with
  | enqueue w =>
      cases htaken
      exact flushInv_enqueue h w
  | flush =>
      simp only [flushing] at htaken
      split at htaken
      · next hidle =>
          cases htaken
          have hpending := h.pending
          rw [FlushState.left_eq (by rw [hidle]; decide)] at hpending
          refine flushInv_loop hpending ?_ h.released
          intro before hbefore
          rw [h.idle hidle, List.nil_append, List.mem_singleton] at hbefore
          obtain rfl := hbefore
          exact List.prefix_refl _
      · next hbusy =>
          cases htaken
          exact flushInv_join h hbusy hguard
  | settle fulfilled =>
      simp only [flushing] at htaken
      split at htaken
      · next w rest hphase hqueue =>
          cases htaken
          have hpending := h.pending
          rw [FlushState.left_eq (by rw [hphase]; decide), hqueue] at hpending
          cases fulfilled with
          | true =>
              constructor
              case pending =>
                show (s.executed ++ [w]) ++ s.queue.tail = s.enqueued
                rw [hqueue, List.append_assoc]
                exact hpending
              case head =>
                intro _ hnil
                rw [show s.queue = [] from hnil] at hqueue
                cases hqueue
              case joined => exact h.joined
              case released =>
                intro before hbefore
                exact (h.released before hbefore).trans (List.prefix_append _ _)
              all_goals
                intro hphase
                cases hphase
          | false =>
              constructor
              case pending =>
                show s.executed ++ s.queue = s.enqueued
                rw [hqueue]
                exact hpending
              case joined => exact h.joined
              case released => exact h.released
              all_goals
                intro hphase
                cases hphase
      · cases htaken
  | resume =>
      simp only [flushing] at htaken
      split at htaken
      · next hphase =>
          cases htaken
          have hpending := h.pending
          rw [FlushState.left, if_pos hphase] at hpending
          exact flushInv_loop hpending h.joined h.released
      · next hphase =>
          cases htaken
          have hpending := h.pending
          rw [FlushState.left_eq (by rw [hphase]; decide)] at hpending
          constructor
          case pending => exact hpending
          case joined => exact h.joined
          case released => exact h.released
          all_goals
            intro hphase
            cases hphase
      · cases htaken
  | reset =>
      simp only [flushing] at htaken
      split at htaken
      · next fulfilled hphase =>
          cases htaken
          have hpending := h.pending
          rw [FlushState.left_eq (by rw [hphase]; simp)] at hpending
          constructor
          case pending => exact hpending
          case head =>
            intro hphase
            cases hphase
          case ended =>
            intro hphase
            cases hphase
          case idle => exact fun _ => rfl
          case joined => simp
          case released =>
            intro before hbefore
            rcases List.mem_append.1 hbefore with hold | hnew
            · exact h.released before hold
            · obtain ⟨before', hjoined, heq⟩ := List.mem_map.1 hnew
              cases heq
              exact h.ended hphase before hjoined
      · cases htaken
  | answer caller =>
      simp only [flushing] at htaken
      split at htaken
      · cases htaken
      · cases htaken
        exact { h with
          pending := h.pending
          released := fun before hbefore =>
            h.released before (List.mem_of_mem_eraseIdx hbefore) }

/-- A call that resolves is among the released ones, and returning executes
nothing. -/
theorem released_of_resolved {s s' : FlushState ω} {a : FlushAction ω} {es : List (FlushEvent ω)}
    (htaken : (flushing ω).step s a = some (s', es)) {before : List ω}
    (hresolved : .resolved before ∈ es) :
    (true, before) ∈ s.released ∧ s'.executed = s.executed := by
  cases a with
  | answer caller =>
      simp only [flushing] at htaken
      split at htaken
      · cases htaken
      · next fulfilled before' hcaller =>
          cases htaken
          cases fulfilled with
          | true =>
              rw [if_pos rfl, List.mem_singleton] at hresolved
              cases hresolved
              exact ⟨List.mem_of_getElem? hcaller, rfl⟩
          | false =>
              rw [if_neg Bool.false_ne_true, List.mem_singleton] at hresolved
              cases hresolved
  | _ =>
      simp only [flushing] at htaken
      repeat' split at htaken
      all_goals
        cases htaken
        try cases hresolved

/-- **Flush is a durability barrier.**  In every schedule without a late join,
what was fulfilled is, at every time, a prefix of what was enqueued; and when a
call of `flush` resolves, it holds all that was enqueued before the call. -/
theorem flush_is_a_barrier
    {steps : List (Step (FlushState ω) (FlushAction ω) (FlushEvent ω))} {s : FlushState ω}
    (hrun : (flushing ω).Run noLateJoin FlushState.start steps s) :
    ∀ t ∈ steps, t.after.executed <+: t.after.enqueued ∧
      ∀ before, .resolved before ∈ t.events → before <+: t.after.executed := by
  have hinv : FlushInv s ∧ ∀ t ∈ steps, t.after.executed <+: t.after.enqueued ∧
      ∀ before, .resolved before ∈ t.events → before <+: t.after.executed := by
    refine hrun.invariant (fun steps s => FlushInv s ∧
      ∀ t ∈ steps, t.after.executed <+: t.after.enqueued ∧
        ∀ before, .resolved before ∈ t.events → before <+: t.after.executed)
      ⟨flushInv_start, by simp⟩ ?_
    rintro steps s a s' es ⟨h, hsteps⟩ hguard htaken
    have h' := flushInv_step h hguard htaken
    refine ⟨h', fun t ht => ?_⟩
    rcases List.mem_append.1 ht with hold | hnew
    · exact hsteps t hold
    · rw [List.mem_singleton.1 hnew]
      refine ⟨⟨s'.left, h'.pending⟩, fun before hresolved => ?_⟩
      obtain ⟨hreleased, hexecuted⟩ := released_of_resolved htaken hresolved
      show before <+: s'.executed
      rw [hexecuted]
      exact h.released before hreleased
  exact hinv.2

end Barrier

instance (steps : List (Step (FlushState String) (FlushAction String) (FlushEvent String)))
    (s : FlushState String) (a : FlushAction String) : Decidable (noLateJoin steps s a) := by
  cases a <;> unfold noLateJoin <;> infer_instance

/-- A write, a flush whose query is rejected once, and a second flush. -/
theorem retried_flush_is_a_barrier : ∃ steps s,
    (flushing String).Run noLateJoin FlushState.start steps s ∧ s.executed = ["grant"] ∧
      ∀ t ∈ steps, ∀ before, .resolved before ∈ t.events → before <+: t.after.executed := by
  obtain ⟨steps, s, hrun, hexecuted⟩ := System.exists_run (flushing String) noLateJoin
    FlushState.start [.enqueue "grant", .flush, .settle false, .resume, .reset, .answer 0, .flush,
      .settle true, .resume, .reset, .answer 0] (fun _ s => s.executed == ["grant"])
    (by decide +kernel)
  exact ⟨steps, s, hrun, by simpa using hexecuted,
    fun t ht => (flush_is_a_barrier hrun t ht).2⟩

/-- A flush of an empty queue has ended, but is still in `flushing`, when a write
is enqueued: the flush called for that write joins it and resolves with nothing
executed. -/
theorem late_flush_misses_write : ∃ steps s,
    (flushing String).Run anyStep FlushState.start steps s ∧
      ∃ t ∈ steps, .resolved ["grant"] ∈ t.events ∧ t.after.executed = [] := by
  have hfirst := System.Run.first (flushing String) anyStep FlushState.start
    .flush trivial rfl
  have hwrite := hfirst.step (a := FlushAction.enqueue "grant") trivial rfl
  have hlate := hwrite.step (a := FlushAction.flush) trivial rfl
  have hreset := hlate.step (a := FlushAction.reset) trivial rfl
  have hanswer := hreset.step (a := FlushAction.answer 1) trivial rfl
  exact ⟨_, _, hanswer, _, List.mem_append_right _ (List.mem_singleton_self _),
    List.mem_singleton_self _, rfl⟩

end AgentWorth
