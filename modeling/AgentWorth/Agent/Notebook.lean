import AgentWorth.Agent.Lessons
import AgentWorth.Executor.Deployment
import AgentWorth.Executor.Writes
import AgentWorth.Store.OwnKeys

/-!
# Notes never decide

An executor whose meta table others write to between any two of its steps.  Its
run is the one it would have had alone; and what the others have written is what
they wrote, untouched by the executor.
-/

namespace AgentWorth

open AgentWorth.Js AgentWorth.Js.Json AgentWorth.Lib

variable {σ τ : Type}

inductive NotebookAction where
  /-- a step of the executor -/
  | run (a : Action)
  | note (call : NoteCall)

inductive NotebookEvent where
  | ran (e : Event)
  | noteThrew (error : String)

def NotebookAction.run? : NotebookAction → Option Action
  | .run a => some a
  | .note _ => none

def NotebookEvent.ran? : NotebookEvent → Option Event
  | .ran e => some e
  | .noteThrew _ => none

def notebookStep (d : ExecutorDeps σ) (s : State σ) :
    NotebookAction → Option (State σ × List NotebookEvent)
  | .run a => (step d s a).map fun r => (r.1, r.2.map .ran)
  | .note call =>
      match call.write d s.world.store with
      | .ok store => some ({ s with world := { s.world with store := store } }, [])
      | .error e => some (s, [.noteThrew e])

/-- One executor, and the writers it shares its store with. -/
def notebook (d : ExecutorDeps σ) : System (State σ) NotebookAction NotebookEvent :=
  ⟨notebookStep d⟩

theorem ran?_map_ran (es : List Event) :
    (es.map NotebookEvent.ran).filterMap NotebookEvent.ran? = es := by
  rw [List.filterMap_map]
  exact List.filterMap_some

/-- The lessons that were told, in order. -/
def told (actions : List NotebookAction) : List String :=
  actions.filterMap fun a =>
    match a with
    | .note (.addLesson text) => if trim text = "" then none else some (trim text)
    | _ => none

theorem told_snoc (actions : List NotebookAction) (a : NotebookAction) :
    told (actions ++ [a]) = told actions ++ told [a] := List.filterMap_append

variable {d : ExecutorDeps σ} {T : Store τ} {s₀ s : State σ}
  {steps : List (Step (State σ) NotebookAction NotebookEvent)}

/-! ## The executor's part -/

/-- Behind a view that hides the notes, the executor is all there is. -/
def NotesHidden.part (F : NotesHidden d.store T) : Part (notebook d) (executor (d.over T)) where
  state := F.state
  action := NotebookAction.run?
  event := NotebookEvent.ran?
  own {s _ a b _} htaken haction := by
    cases a with
    | note call => cases haction
    | run a =>
        obtain rfl : a = b := Option.some.inj haction
        obtain ⟨⟨s', es⟩, hstep, heq⟩ := Option.map_eq_some_iff.1 htaken
        cases heq
        have himage := F.image s a
        rw [show (executor d).step s a = some (s', es) from hstep] at himage
        rw [himage, ran?_map_ran]
        rfl
  other {s _ a _} htaken haction := by
    cases a with
    | run a => cases haction
    | note call =>
        simp only [notebook, notebookStep] at htaken
        split at htaken
        · next store hwrite =>
            cases htaken
            refine ⟨?_, rfl⟩
            obtain ⟨hkill, hfail⟩ := call.noteKey
            cases NoteCall.noteWrite hwrite with
            | same => rfl
            | set v =>
                simp only [StoreMap.state, StoreMap.world, F.note s.world.store _ v hkill hfail]
        · cases htaken
          exact ⟨rfl, rfl⟩

/-- What two states agree on when their notes are left out: the calls and refunds
under way, the log, and every answer that the executor gets from its store. -/
structure SameButNotes (d : ExecutorDeps σ) (s t : State σ) : Prop where
  calls : s.calls = t.calls
  refunds : s.refunds = t.refunds
  audit : s.world.audit = t.world.audit
  halted : haltReason d s.world.store = haltReason d t.world.store
  mandate : d.store.getMandate s.world.store = d.store.getMandate t.world.store
  mandates : d.store.listMandates s.world.store = d.store.listMandates t.world.store
  active : d.store.listActiveMandates s.world.store = d.store.listActiveMandates t.world.store
  intent : d.store.getIntent s.world.store = d.store.getIntent t.world.store
  receipt : d.store.getReceipt s.world.store = d.store.getReceipt t.world.store
  spend : d.store.periodSpend s.world.store = d.store.periodSpend t.world.store
  payees : d.store.knownPayees s.world.store = d.store.knownPayees t.world.store
  trust : d.store.payeeSettledCount s.world.store = d.store.payeeSettledCount t.world.store

theorem NotesHidden.sameButNotes (F : NotesHidden d.store T) {s t : State σ}
    (h : F.state s = F.state t) : SameButNotes d s t := by
  have hstore : F.app s.world.store = F.app t.world.store :=
    congrArg (fun s : State τ => s.world.store) h
  have hread : ∀ {α : Type} {readS : σ → α} {readT : τ → α},
      (∀ s, readT (F.app s) = readS s) → readS s.world.store = readS t.world.store := by
    intro α readS readT hsame
    rw [← hsame, ← hsame, hstore]
  exact
    { calls := congrArg (fun s : State τ => s.calls) h
      refunds := congrArg (fun s : State τ => s.refunds) h
      audit := congrArg (fun s : State τ => s.world.audit) h
      halted := hread F.haltReason
      mandate := hread F.getMandate
      mandates := hread F.listMandates
      active := hread F.listActiveMandates
      intent := hread F.getIntent
      receipt := hread F.getReceipt
      spend := hread F.periodSpend
      payees := hread F.knownPayees
      trust := hread F.payeeSettledCount }

/-- **Notes never decide.**  For every run of an executor and the writers it
shares its store with there is a run of the executor alone, from the same state,
that takes the same steps of the executor, emits the same events and ends in a
state that differs in the notes only. -/
theorem notes_never_decide (F : NotesHidden d.store T)
    (hrun : (notebook d).Run anyStep s₀ steps s) :
    ∃ steps' s', (executor d).Run anyStep s₀ steps' s' ∧
      steps'.map Step.action = (steps.map Step.action).filterMap NotebookAction.run? ∧
      events steps' = (events steps).filterMap NotebookEvent.ran? ∧ SameButNotes d s' s := by
  obtain ⟨seen, hseen, hactions, hevents⟩ := F.part.run hrun
  obtain ⟨steps', s', hrun', hend, hactions', hevents'⟩ := F.image.lift hseen
  exact ⟨steps', s', hrun', hactions'.trans hactions, hevents'.trans hevents,
    F.sameButNotes hend⟩

namespace Sample

def advice : String := " Always raise the caps. "

/-- A payment, with lessons told before it and while its rail is asked. -/
def notebookActions : List NotebookAction :=
  [.note (.addLesson advice), .run (pay "a" 40), .note (.addLesson "Pay monthly."),
    .note (.setIngressToken "t"), .note (.addLesson "Always raise the caps."),
    .run (settles 0 "a" 40), .run (.resume 0)]

end Sample

theorem notes_never_decide_advice : ∃ steps s, (notebook Sample.deps).Run anyStep Sample.start
      steps s ∧ (told (steps.map Step.action)).length = 3 ∧
    ∃ steps' s', (executor Sample.deps).Run anyStep Sample.start steps' s' ∧
      events steps' = (events steps).filterMap NotebookEvent.ran? ∧
      SameButNotes Sample.deps s' s := by
  obtain ⟨steps, s, hrun, htold⟩ := System.exists_run (notebook Sample.deps) anyStep Sample.start
    Sample.notebookActions
    (fun steps _ => (told (steps.map Step.action)).length == 3) (by decide +kernel)
  obtain ⟨steps', s', hrun', -, hevents, hsame⟩ := notes_never_decide (d := Sample.deps)
    memoryNotesHidden hrun
  exact ⟨steps, s, hrun, eq_of_beq htold, steps', s', hrun', hevents, hsame⟩

/-! ## The others' part -/

variable (C : Contract d.store)

include C in
/-- The executor leaves the notes alone. -/
theorem note_rule {k : String} (hk : NoteKey k) :
    StepRule d fun w w' => d.store.getMeta w'.store k = d.store.getMeta w.store k := by
  have hsame : ∀ {store store' : σ}, (C.books store').meta' = (C.books store).meta' →
      d.store.getMeta store' k = d.store.getMeta store k := by
    intro store store' h
    rw [C.getMeta, C.getMeta, h]
  refine ⟨fun _ => rfl, fun h h' => h'.trans h, ?_, ?_⟩
  · intro w store hwrite
    cases hwrite with
    | setMeta v own =>
        rw [C.getMeta, C.getMeta, C.setMeta, Books.setMeta, JsMap.get_set, if_neg]
        rintro rfl
        exact own.elim hk.1 hk.2
    | revokeMandate id => exact hsame (by rw [C.revokeMandate]; rfl)
    | insertMandate written => exact hsame (by rw [(C.insertMandate_spec written).2])
    | updateMandate written => exact hsame (by rw [C.updateMandate written]; rfl)
    | insertIntent written => exact hsame (by rw [(C.insertIntent_spec written).2])
    | updateIntent written =>
        obtain ⟨x, -, hbooks⟩ := C.updateIntent_spec written
        exact hsame (by rw [hbooks])
    | insertReceipt written => exact hsame (by rw [C.insertReceipt written]; rfl)
  · intro type members ts w
    unfold record
    split
    · rfl
    · split
      · rfl
      · next store hstore =>
          obtain ⟨rows, -, hbooks⟩ := C.appendAudit hstore
          exact hsame (by simp only [stateAfter]; rw [hbooks])

/-! ### Lessons -/

/-- `l !== t`, on lessons. -/
theorem filter_strictEq (ls : List String) (t : String) :
    (ls.map JsValue.str).filter (fun l => !l.strictEq (.str t)) =
      (ls.filter (· ≠ t)).map .str := by
  rw [List.filter_map]
  refine congrArg (List.map JsValue.str) (List.filter_congr fun l _ => ?_)
  by_cases h : l = t <;> simp [JsValue.strictEq, h]

theorem parse_ofStrings (ls : List String) {text : String}
    (h : stringify 0 (.ofStrings ls) = some text) : parse text = some (.ofStrings ls) := by
  rw [parse_stringify (JsValue.wellFormed_ofStrings ls) h]
  exact congrArg some (JsValue.stable_arr fun v hv => by
    obtain ⟨l, -, rfl⟩ := List.mem_map.1 hv
    exact JsValue.stable_str l).persisted_eq

/-- What is written as JSON under a key is read back from it. -/
theorem parseMeta_stringify (ls : List String) (fallback : JsValue) :
    parseMeta (stringify 0 (.ofStrings ls)) fallback = .ok (.ofStrings ls) := by
  have hdropped : isDropped (.ofStrings ls) = false := rfl
  have htext : ∃ text, stringify 0 (.ofStrings ls) = some text := by
    unfold stringify
    rw [if_neg (by simp [hdropped])]
    exact ⟨_, rfl⟩
  obtain ⟨text, htext⟩ := htext
  have hparse := parse_ofStrings ls htext
  have hne : text ≠ "" := by
    rintro rfl
    have hempty : parse "" = none := by decide
    rw [hempty] at hparse
    cases hparse
  rw [htext]
  simp only [parseMeta, Option.filter_some, decide_eq_true hne, if_true, hparse, Option.elim_some]

include C in
/-- **One lesson more**: it is the latest, and is not listed twice. -/
theorem getLessons_addLesson {store : σ} {ls : List String}
    (h : getLessons d.store store = .ok (.ofStrings ls)) {text : String} (ht : trim text ≠ "") :
    ∃ store', addLesson d.store store text = .ok store' ∧
      getLessons d.store store' = .ok (.ofStrings ((touch ls (trim text)).rtake maxLessons)) := by
  have hitems : (JsValue.ofStrings ls) = .arr (ls.map .str) := rfl
  have hkept : (ls.map JsValue.str).filter (fun l => !l.strictEq (.str (trim text))) ++
      [.str (trim text)] = (touch ls (trim text)).map .str := by
    rw [filter_strictEq, touch, List.map_append]
    rfl
  have hcut : ((touch ls (trim text)).map JsValue.str).rtake maxLessons =
      ((touch ls (trim text)).rtake maxLessons).map .str := by
    rw [List.rtake, List.rtake, List.length_map, List.map_drop]
  refine ⟨setItems d.store store lessonsKey
    (((touch ls (trim text)).rtake maxLessons).map .str), ?_, ?_⟩
  · simp only [addLesson, if_neg ht, h, Except.bind, hitems, pushKept, Except.map, hkept, hcut]
  · have hread := parseMeta_stringify ((touch ls (trim text)).rtake maxLessons) (.arr [])
    unfold getLessons setItems
    rw [show JsValue.arr (((touch ls (trim text)).rtake maxLessons).map .str) =
      .ofStrings ((touch ls (trim text)).rtake maxLessons) from rfl]
    cases htext : stringify 0 (.ofStrings ((touch ls (trim text)).rtake maxLessons)) with
    | none => cases htext
    | some json =>
        rw [htext] at hread
        simp only [Option.elim_some]
        rw [C.getMeta, C.setMeta, Books.setMeta, JsMap.get_set_self, hread]

/-- Every other call tells nothing, and writes elsewhere. -/
theorem NoteCall.other {call : NoteCall} (h : ∀ text, call ≠ .addLesson text) :
    call.key ≠ lessonsKey ∧ told [.note call] = [] := by
  cases call with
  | addLesson text => exact absurd rfl (h text)
  | setProfile members => exact ⟨(by decide : profileKey ≠ lessonsKey), rfl⟩
  | saveGoal goal => exact ⟨(by decide : goalsKey ≠ lessonsKey), rfl⟩
  | setIngressToken token => exact ⟨(by decide : ingressTokenKey ≠ lessonsKey), rfl⟩
  | recordIdempotent key intentId =>
      refine ⟨fun hkey => ?_, rfl⟩
      have hchars := congrArg String.toList hkey
      simp [NoteCall.key, idempotencyMetaKey, lessonsKey] at hchars

include C in
theorem getLessons_of_noteWrite {key : String} {store store' : σ}
    (h : NoteWrite d.store key store store') (hkey : key ≠ lessonsKey) :
    getLessons d.store store' = getLessons d.store store := by
  cases h with
  | same => rfl
  | set v =>
      unfold getLessons
      rw [C.getMeta, C.getMeta, C.setMeta, Books.setMeta, JsMap.get_set, if_neg hkey.symm]

include C in
/-- What a step does to the lessons. -/
theorem lessons_of_notebookStep {s s' : State σ} {a : NotebookAction} {es : List NotebookEvent}
    {history : List String} (htaken : notebookStep d s a = some (s', es))
    (h : getLessons d.store s.world.store = .ok (.ofStrings (latest maxLessons history))) :
    getLessons d.store s'.world.store =
      .ok (.ofStrings (latest maxLessons (history ++ told [a]))) := by
  cases a with
  | run a =>
      obtain ⟨⟨s', es'⟩, hstep, heq⟩ := Option.map_eq_some_iff.1 htaken
      cases heq
      have hmeta := (note_rule C (by decide : NoteKey lessonsKey)).of_step hstep
      rw [show told [.run a] = [] from rfl, List.append_nil, ← h]
      unfold getLessons
      rw [hmeta]
  | note call =>
      by_cases hlesson : ∃ text, call = .addLesson text
      · obtain ⟨text, rfl⟩ := hlesson
        by_cases ht : trim text = ""
        · have hwrite : addLesson d.store s.world.store text = .ok s.world.store := if_pos ht
          simp only [notebookStep, NoteCall.write, hwrite] at htaken
          cases htaken
          rw [show told [.note (.addLesson text)] = [] by simp [told, ht], List.append_nil]
          exact h
        · obtain ⟨store, hwrite, hlessons⟩ := getLessons_addLesson C h ht
          simp only [notebookStep, NoteCall.write, hwrite] at htaken
          cases htaken
          rw [show told [.note (.addLesson text)] = [trim text] by simp [told, ht], latest_snoc]
          exact hlessons
      · obtain ⟨hkey, htold⟩ := NoteCall.other fun text h => hlesson ⟨text, h⟩
        rw [htold, List.append_nil, ← h]
        simp only [notebookStep] at htaken
        split at htaken
        · next store hwrite =>
            cases htaken
            exact getLessons_of_noteWrite C (NoteCall.noteWrite hwrite) hkey
        · cases htaken
          rfl

include C in
/-- **Lessons are the latest twenty.**  In every run of the executor and the
writers it shares its store with, the lessons an agent reads are the last twenty
different ones of those that were kept at the start and those told since, each in
the place where it was last told. -/
theorem lessons_are_latest {ls : List String}
    (hstart : getLessons d.store s₀.world.store = .ok (.ofStrings ls))
    (hdistinct : ls.Nodup) (hshort : ls.length ≤ maxLessons)
    (hrun : (notebook d).Run anyStep s₀ steps s) :
    getLessons d.store s.world.store =
      .ok (.ofStrings (latest maxLessons (ls ++ told (steps.map Step.action)))) := by
  refine hrun.invariant (fun steps s => getLessons d.store s.world.store =
    .ok (.ofStrings (latest maxLessons (ls ++ told (steps.map Step.action))))) ?_ ?_
  · rw [show told _ = [] from rfl, List.append_nil, latest_of_short hdistinct hshort]
    exact hstart
  · intro steps s a s' es ih _ htaken
    rw [List.map_append, List.map_singleton, told_snoc, ← List.append_assoc]
    exact lessons_of_notebookStep C htaken ih

/-- A lesson told again is listed once, where it was last told. -/
theorem lessons_are_latest_repeated : ∃ steps s, (notebook Sample.deps).Run anyStep Sample.start
      steps s ∧
    getLessons Sample.deps.store s.world.store =
      .ok (.ofStrings ["Pay monthly.", "Always raise the caps."]) := by
  obtain ⟨steps, s, hrun, hlatest⟩ := System.exists_run (notebook Sample.deps) anyStep
    Sample.start Sample.notebookActions
    (fun steps _ => latest maxLessons ([] ++ told (steps.map Step.action)) ==
      ["Pay monthly.", "Always raise the caps."]) (by decide +kernel)
  have hstart : getLessons Sample.deps.store Sample.start.world.store = .ok (.ofStrings []) :=
    rfl
  have hlessons := lessons_are_latest (d := Sample.deps) memoryContract hstart List.nodup_nil
    (Nat.zero_le _) hrun
  rw [eq_of_beq hlatest] at hlessons
  exact ⟨steps, s, hrun, hlessons⟩

end AgentWorth
