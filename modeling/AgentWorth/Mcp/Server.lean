import AgentWorth.Executor.Confinement
import AgentWorth.Executor.Deployment
import AgentWorth.Ingress.Server

/-!
# The MCP server

`src/mcp/server.ts`: the tools an external agent is given.  `pay` proposes a
payment and awaits twice, for the attestation of its transport and for
`executor.execute`; the other tools read.  Any number of calls may be under way
at once.
-/

namespace AgentWorth

open AgentWorth.Js AgentWorth.Lib

/-! ## The tools -/

/-- `z.string().min(10)`. -/
def longString (v : JsValue) : Option String :=
  (Codec.str.decode v).filter fun s => decide (10 ≤ strLength s)

/-- The input schema of `pay`; members it does not name are dropped. -/
def parsePayArgs (args : JsValue) : Option PaymentIntentDraft := do
  let payee ← Codec.str.decode (args.get "payee")
  let payeeClass ← Codec.str.decode (args.get "payeeClass")
  let amount ← positiveInteger (args.get "amount")
  let currency ← Codec.str.decode (args.get "currency")
  let rail ← railCodec.decode (args.get "rail")
  let rationale ← longString (args.get "rationale")
  return { payee, payeeClass, amount, currency, rail, rationale }

/-- What `pay` answers. -/
def payText (r : ExecuteResult) : String :=
  r.status.text ++ ": " ++ "; ".intercalate r.decision.reasons ++
    (match r.receipt with
      | some receipt => " (receipt " ++ receipt.id ++ ")"
      | none => "")

def mandateLine (m : Mandate) : String :=
  m.id ++ " \"" ++ m.label ++ "\" " ++ m.currency ++ " per-tx " ++ toString m.perTxCap ++
    " per-" ++ m.period.text ++ " " ++ toString m.perPeriodCap

def pendingLine (s : StoredIntent) : String :=
  s.intent.id ++ " " ++ toString s.intent.amount ++ " " ++ s.intent.currency ++ " → " ++
    s.intent.payee

/-- One line for each item, or a text that there is none. -/
def linesOr {α : Type} (none : String) (line : α → String) : List α → String
  | [] => none
  | items => "\n".intercalate (items.map line)

inductive ReadTool where
  | listMandates (now : String)
  | pending
  | status
  | auditVerify

variable {σ : Type} (d : ExecutorDeps σ)

def ReadTool.answer (w : World σ) : ReadTool → String
  | .listMandates now =>
      linesOr "no active mandates" mandateLine (d.store.listActiveMandates w.store now)
  | .pending => linesOr "none pending" pendingLine (d.store.listPendingIntents w.store)
  | .status =>
      "kill switch: " ++ (if isKilled d w.store then "ENGAGED" else "off") ++
        "; circuit breaker: " ++ (if breakerOpen d w.store then "OPEN" else "closed")
  | .auditVerify =>
      let v := w.audit.verify d.crypto
      if v.valid then
        "audit chain OK — " ++ toString w.audit.entries.length ++ " entries"
      else
        "audit chain INVALID at seq " ++ ((v.brokenAt.map toString).getD "undefined") ++ ": " ++
          v.reason.getD "undefined"

/-! ## Calls under way -/

structure PayCall where
  intent : PaymentIntent
  phase : Phase

structure McpServer (σ : Type) where
  executor : State σ
  calls : List PayCall := []

/-- Calls of `pay` are named by their position. -/
inductive McpAction where
  /-- the tool is called and runs to its first `await`; `newId` and `createdAt`
  are what the injected sources answer -/
  | pay (args : JsValue) (newId createdAt : String)
  /-- the attestation lookup returns and `executor.execute` is called -/
  | attest (i : Nat) (now : String) (src : Sources)
      (attestation : Except String (Option Attestation))
  /-- `executor.execute` has returned or thrown and the call resumes -/
  | respond (i : Nat)
  | read (tool : ReadTool)
  /-- a rail answers the `k`th call of the executor -/
  | railReturns (k : Nat) (receipt : Receipt) (verified : Except String Bool)
  | railThrows (k : Nat) (error : String)
  /-- the `k`th call of the executor resumes from `settle` -/
  | resume (k : Nat)

inductive McpEvent where
  /-- what the executor does -/
  | ran (e : Event)
  /-- a tool answers with a text -/
  | answered (text : String)
  /-- the arguments do not match the schema -/
  | invalid
  /-- a tool throws -/
  | failed (error : String)

/-- The call whose payment has ended knows how. -/
def PayCall.told (ended : Option (String × Except String ExecuteResult)) (c : PayCall) :
    PayCall :=
  match ended, c.phase with
  | some (id, outcome), .executing =>
      if c.intent.id = id then { c with phase := .executed outcome } else c
  | _, _ => c

/-- A step of the executor that no tool call makes. -/
def mcpRun (t : McpServer σ) (a : Action) : Option (McpServer σ × List McpEvent) :=
  (step d t.executor a).map fun (s, es) =>
    ({ executor := s, calls := t.calls.map (PayCall.told (endedCall t.executor a es)) },
      es.map .ran)

def mcpStep (t : McpServer σ) : McpAction → Option (McpServer σ × List McpEvent)
  | .pay args newId createdAt =>
      match parsePayArgs args with
      | none => some (t, [.invalid])
      | some draft =>
          some ({ t with calls := t.calls ++
            [{ intent := draft.intent newId createdAt, phase := .attesting }] }, [])
  | .attest i now src attestation =>
      t.calls[i]?.bind fun c =>
        match c.phase, attestation with
        | .attesting, .error e => some ({ t with calls := t.calls.eraseIdx i }, [.failed e])
        | .attesting, .ok found =>
            (step d t.executor (.execute now src c.intent (some (found.getD .none)))).map
              fun (s, es) =>
                ({ executor := s, calls := t.calls.set i { c with phase := phaseAfter es } },
                  es.map .ran)
        | _, _ => none
  | .respond i =>
      t.calls[i]?.bind fun c =>
        match c.phase with
        | .executed (.ok result) =>
            some ({ t with calls := t.calls.eraseIdx i }, [.answered (payText result)])
        | .executed (.error e) => some ({ t with calls := t.calls.eraseIdx i }, [.failed e])
        | _ => none
  | .read tool => some (t, [.answered (tool.answer d t.executor.world)])
  | .railReturns k receipt verified => mcpRun d t (.railReturns k receipt verified)
  | .railThrows k error => mcpRun d t (.railThrows k error)
  | .resume k => mcpRun d t (.resume k)

/-- The MCP server over one executor. -/
def mcpServer : System (McpServer σ) McpAction McpEvent := ⟨mcpStep d⟩

/-! ## What a step does to the executor -/

variable {d} (C : Contract d.store)

/-- A `pay` call has proposed the intent: its arguments passed the schema, and
the server chose its id and its time. -/
def Proposed (steps : List (Step (McpServer σ) McpAction McpEvent)) (intent : PaymentIntent) :
    Prop :=
  ∃ t ∈ steps, ∃ args newId createdAt draft, t.action = .pay args newId createdAt ∧
    parsePayArgs args = some draft ∧ intent = draft.intent newId createdAt

theorem Proposed.snoc {steps : List (Step (McpServer σ) McpAction McpEvent)}
    {intent : PaymentIntent} (h : Proposed steps intent)
    (t : Step (McpServer σ) McpAction McpEvent) : Proposed (steps ++ [t]) intent := by
  obtain ⟨t', ht', h⟩ := h
  exact ⟨t', List.mem_append_left _ ht', h⟩

/-- Where the calls under way after a step come from. -/
inductive PayOrigin (t : McpServer σ) : McpAction → PayCall → Prop
  | old {a : McpAction} {c c' : PayCall} (mem : c ∈ t.calls) (same : c'.intent = c.intent) :
      PayOrigin t a c'
  | proposed {args : JsValue} {newId createdAt : String} {draft : PaymentIntentDraft}
      (valid : parsePayArgs args = some draft) :
      PayOrigin t (.pay args newId createdAt)
        { intent := draft.intent newId createdAt, phase := .attesting }

/-- How a step of the server drives the executor. -/
inductive McpEffect (d : ExecutorDeps σ) (t t' : McpServer σ) :
    McpAction → List McpEvent → Prop
  /-- the executor is left alone -/
  | idle {a : McpAction} {es : List McpEvent} (executor : t'.executor = t.executor)
      (silent : ∀ e, .ran e ∉ es) : McpEffect d t t' a es
  /-- `executor.execute` is called for a proposal, with the attestation of its
  transport -/
  | executes {i : Nat} {now : String} {src : Sources} {found : Option Attestation}
      {c : PayCall} {es : List Event} (mem : c ∈ t.calls)
      (taken : step d t.executor (.execute now src c.intent (some (found.getD .none))) =
        some (t'.executor, es)) :
      McpEffect d t t' (.attest i now src (.ok found)) (es.map .ran)
  /-- a rail answers or a call resumes -/
  | settles {a : McpAction} {a' : Action} {es : List Event} (agent : a'.isAgent = true)
      (bare : ∀ now src intent attestation, a' ≠ .execute now src intent attestation)
      (taken : step d t.executor a' = some (t'.executor, es)) :
      McpEffect d t t' a (es.map .ran)

theorem PayCall.told_intent (ended : Option (String × Except String ExecuteResult))
    (c : PayCall) : (c.told ended).intent = c.intent := by
  unfold PayCall.told
  split
  · split <;> rfl
  · rfl

variable {t t' : McpServer σ} {a : McpAction} {es : List McpEvent}

private theorem mcpRun_effect {a' : Action} (h : mcpRun d t a' = some (t', es))
    (hagent : a'.isAgent = true)
    (hbare : ∀ now src intent attestation, a' ≠ .execute now src intent attestation) :
    McpEffect d t t' a es ∧ ∀ c ∈ t'.calls, PayOrigin t a c := by
  obtain ⟨⟨s, es'⟩, htaken, heq⟩ := Option.map_eq_some_iff.1 h
  cases heq
  refine ⟨.settles hagent hbare htaken, ?_⟩
  intro c hc
  obtain ⟨c₀, hc₀, rfl⟩ := List.mem_map.1 hc
  exact .old hc₀ (PayCall.told_intent _ _)

/-- **One step of the server.** -/
theorem mcpStep_effect (h : mcpStep d t a = some (t', es)) :
    McpEffect d t t' a es ∧ ∀ c ∈ t'.calls, PayOrigin t a c := by
  cases a with
  | pay args newId createdAt =>
      simp only [mcpStep] at h
      split at h
      · cases h
        exact ⟨.idle rfl (by simp), fun c hc => .old hc rfl⟩
      · next draft hvalid =>
          cases h
          refine ⟨.idle rfl (by simp), ?_⟩
          intro c hc
          rcases List.mem_append.1 hc with hold | hnew
          · exact .old hold rfl
          · rw [List.mem_singleton.1 hnew]
            exact .proposed hvalid
  | attest i now src attestation =>
      obtain ⟨c, hc, h⟩ := Option.bind_eq_some_iff.1 h
      have hmem := List.mem_of_getElem? hc
      split at h
      · cases h
        exact ⟨.idle rfl (by simp), fun c' hc' => .old (List.mem_of_mem_eraseIdx hc') rfl⟩
      · next found _ =>
          obtain ⟨⟨s, es'⟩, htaken, heq⟩ := Option.map_eq_some_iff.1 h
          cases heq
          refine ⟨.executes hmem htaken, ?_⟩
          intro c' hc'
          rcases List.mem_or_eq_of_mem_set hc' with hold | rfl
          · exact .old hold rfl
          · exact .old hmem rfl
      · cases h
  | respond i =>
      obtain ⟨c, hc, h⟩ := Option.bind_eq_some_iff.1 h
      split at h
      · cases h
        exact ⟨.idle rfl (by simp), fun c' hc' => .old (List.mem_of_mem_eraseIdx hc') rfl⟩
      · cases h
        exact ⟨.idle rfl (by simp), fun c' hc' => .old (List.mem_of_mem_eraseIdx hc') rfl⟩
      · cases h
  | read tool =>
      cases h
      exact ⟨.idle rfl (by simp), fun c hc => .old hc rfl⟩
  | railReturns k receipt verified => exact mcpRun_effect h rfl (by simp)
  | railThrows k error => exact mcpRun_effect h rfl (by simp)
  | resume k => exact mcpRun_effect h rfl (by simp)

end AgentWorth
