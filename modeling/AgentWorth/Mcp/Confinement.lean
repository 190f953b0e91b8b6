import AgentWorth.Mcp.Server

/-!
# The MCP server adds no authority

Whatever tools are called with whatever arguments, and however the calls and
their rails interleave, the operator's side of the state stays as it was: an
agent can not approve what it parked, touch a mandate or lift the kill switch.
It can add rows for what it proposed, and pay what the gate lets through on its
own at the attestation its transport earned.
-/

namespace AgentWorth

open AgentWorth.Js AgentWorth.Lib

variable {σ : Type} {d : ExecutorDeps σ} {C : Contract d.store}

/-- A payment that was under way before, or that a `pay` call has proposed. -/
def Known (s₀ : State σ) (steps : List (Step (McpServer σ) McpAction McpEvent))
    (intent : PaymentIntent) : Prop :=
  (∃ call ∈ s₀.calls, intent = call.intent) ∨ Proposed steps intent

theorem Known.snoc {s₀ : State σ} {steps : List (Step (McpServer σ) McpAction McpEvent)}
    {intent : PaymentIntent} (h : Known s₀ steps intent)
    (t : Step (McpServer σ) McpAction McpEvent) : Known s₀ (steps ++ [t]) intent :=
  h.imp_right fun hproposed => hproposed.snoc t

/-- The gate let a proposal through in this step, at the attestation that its
transport was found to have. -/
def Earned (d : ExecutorDeps σ) (steps : List (Step (McpServer σ) McpAction McpEvent))
    (t : Step (McpServer σ) McpAction McpEvent) (call : Call) (provider : PaymentProvider) :
    Prop :=
  Proposed steps call.intent ∧ ∃ i now src found, t.action = .attest i now src (.ok found) ∧
    Released d t.before.executor
      (.execute now src call.intent (some (found.getD .none))) call provider

/-- The invariant of a server that starts from `s₀`. -/
structure McpInv (C : Contract d.store) (s₀ : State σ)
    (steps : List (Step (McpServer σ) McpAction McpEvent)) (t : McpServer σ) : Prop where
  confined : Confined C s₀ t.executor
  proposals : ∀ c ∈ t.calls, Proposed steps c.intent
  calls : ∀ call ∈ t.executor.calls, Known s₀ steps call.intent
  rows : ∀ id x, (t.executor.books C).intents.get id = some x →
    (s₀.books C).intents.get id = some x ∨ Known s₀ steps x.intent
  paid : ∀ t' ∈ steps, ∀ call provider, .ran (.railInvoked call provider) ∈ t'.events →
    Earned d steps t' call provider

section Step

variable {s₀ : State σ} {steps : List (Step (McpServer σ) McpAction McpEvent)}
  {t t' : McpServer σ} {a : McpAction} {es : List McpEvent}

/-- What one step of the executor adds is known, if what it executes is. -/
theorem McpInv.drive (hinv : McpInv C s₀ steps t) {a' : Action} {es' : List Event}
    (hagent : a'.isAgent = true) (htaken : step d t.executor a' = some (t'.executor, es'))
    (hknown : ∀ now src intent attestation, a' = .execute now src intent attestation →
      Proposed steps intent) :
    Confined C s₀ t'.executor ∧ (∀ call ∈ t'.executor.calls, Known s₀ steps call.intent) ∧
      ∀ id x, (t'.executor.books C).intents.get id = some x →
        (s₀.books C).intents.get id = some x ∨ Known s₀ steps x.intent := by
  obtain ⟨heffect, -⟩ := step_effect C htaken
  refine ⟨hinv.confined.step hagent htaken, ?_, ?_⟩
  · intro call hcall
    rcases heffect.call_intent hagent hcall with ⟨c, hc, heq⟩ | ⟨now, src, att, heq⟩
    · rw [heq]
      exact hinv.calls c hc
    · exact Or.inr (hknown now src call.intent att heq)
  · intro id x hx
    rcases heffect.row_intent hx with ⟨y, hy, heq⟩ | ⟨now, src, att, heq⟩ | ⟨call, hcall, heq⟩
    · rcases hinv.rows id y hy with hold | hknown
      · have hkept := heffect.row_of_agent hagent hinv.confined.calls hinv.confined.refunds hy
        have hrow : y = x := Option.some.inj (hkept.symm.trans hx)
        rw [← hrow]
        exact Or.inl hold
      · rw [heq]
        exact Or.inr hknown
    · exact Or.inr (Or.inr (hknown now src x.intent att heq))
    · rw [heq]
      exact Or.inr (hinv.calls call hcall)

theorem McpInv.step (hinv : McpInv C s₀ steps t) (htaken : mcpStep d t a = some (t', es)) :
    McpInv C s₀ (steps ++ [⟨t, a, es, t'⟩]) t' := by
  obtain ⟨heffect, horigin⟩ := mcpStep_effect htaken
  have hproposals : ∀ c ∈ t'.calls, Proposed (steps ++ [⟨t, a, es, t'⟩]) c.intent := by
    intro c hc
    cases horigin c hc with
    | old mem same =>
        rw [same]
        exact (hinv.proposals _ mem).snoc _
    | proposed valid => exact ⟨_, List.mem_append_right _ List.mem_cons_self, _, _, _, _, rfl,
        valid, rfl⟩
  -- a rail is asked in this step, or was in an earlier one
  have hpaid : (∀ call provider, .ran (.railInvoked call provider) ∈ es →
      Earned d steps ⟨t, a, es, t'⟩ call provider) → ∀ t₁ ∈ steps ++ [⟨t, a, es, t'⟩],
      ∀ call provider, .ran (.railInvoked call provider) ∈ t₁.events →
        Earned d (steps ++ [⟨t, a, es, t'⟩]) t₁ call provider := by
    intro hnow t₁ ht₁ call provider hinvoked
    have hearned : Earned d steps t₁ call provider := by
      rcases List.mem_append.1 ht₁ with hold | hlast
      · exact hinv.paid t₁ hold call provider hinvoked
      · rw [List.mem_singleton.1 hlast] at hinvoked ⊢
        exact hnow call provider hinvoked
    exact ⟨hearned.1.snoc _, hearned.2⟩
  cases heffect with
  | idle executor silent =>
      refine ⟨by rw [executor]; exact hinv.confined, hproposals, ?_, ?_, ?_⟩
      · rw [executor]
        exact fun call hcall => (hinv.calls call hcall).snoc _
      · rw [executor]
        exact fun id x hx => (hinv.rows id x hx).imp_right fun h => h.snoc _
      · exact hpaid fun call provider h => absurd h (silent _)
  | @executes i now src found c es' mem taken =>
      obtain ⟨hconfined, hcalls, hrows⟩ := hinv.drive rfl taken (by
        rintro now' src' intent' att' ⟨⟩
        exact hinv.proposals c mem)
      refine ⟨hconfined, hproposals, fun call hcall => (hcalls call hcall).snoc _,
        fun id x hx => (hrows id x hx).imp_right fun h => h.snoc _, hpaid ?_⟩
      intro call provider hinvoked
      obtain ⟨e, he, heq⟩ := List.mem_map.1 hinvoked
      cases heq
      have hreleased := released_of_railInvoked C rfl taken he
      obtain ⟨now', src', att', decision, haction, -⟩ := hreleased.decided
      have hintent : c.intent = call.intent := (Action.execute.inj haction).2.2.1
      refine ⟨hintent ▸ hinv.proposals c mem, i, now, src, found, rfl, ?_⟩
      rw [← hintent]
      exact hreleased
  | @settles _ a' es' agent bare taken =>
      obtain ⟨hconfined, hcalls, hrows⟩ := hinv.drive agent taken
        fun now src intent att h => absurd h (bare now src intent att)
      refine ⟨hconfined, hproposals, fun call hcall => (hcalls call hcall).snoc _,
        fun id x hx => (hrows id x hx).imp_right fun h => h.snoc _, hpaid ?_⟩
      intro call provider hinvoked
      obtain ⟨e, he, heq⟩ := List.mem_map.1 hinvoked
      cases heq
      obtain ⟨now', src', att', decision, haction, -⟩ :=
        (released_of_railInvoked C agent taken he).decided
      exact absurd haction (bare now' src' _ att')

end Step

variable (C)

/-- **The MCP server adds no authority.**  In every run of the server, started
while no approval and no refund is under way: the mandates, the kill switch and
every row filed before are as they were, every new row is for a payment that was
under way or that a `pay` call proposed, and a rail is asked only in the step in
which the gate let a proposal through at the attestation of its transport. -/
theorem mcp_adds_no_authority {t₀ t : McpServer σ}
    {steps : List (Step (McpServer σ) McpAction McpEvent)}
    (hrun : (mcpServer d).Run anyStep t₀ steps t) (hidle : t₀.calls = [])
    (hcalls : ∀ call ∈ t₀.executor.calls, call.entry = .execute)
    (hrefunds : t₀.executor.refunds = []) :
    Confined C t₀.executor t.executor ∧
      (∀ id x, (t.executor.books C).intents.get id = some x →
        (t₀.executor.books C).intents.get id = some x ∨ Known t₀.executor steps x.intent) ∧
      ∀ t' ∈ steps, ∀ call provider, .ran (.railInvoked call provider) ∈ t'.events →
        Earned d steps t' call provider := by
  have hinv := hrun.invariant (fun steps t => McpInv C t₀.executor steps t)
    { confined := .start C hcalls hrefunds
      proposals := by simp [hidle]
      calls := fun call hcall => Or.inl ⟨call, hcall, rfl⟩
      rows := fun id x hx => Or.inl hx
      paid := by simp }
    fun steps t a t' es hinv _ htaken => hinv.step htaken
  exact ⟨hinv.confined, hinv.rows, hinv.paid⟩

namespace Sample

/-- The arguments of a `pay` call. -/
def payArgs (amount : JsNumber) : JsValue :=
  .obj [("payee", .str "acme"), ("payeeClass", .str "saas"), ("amount", .num amount),
    ("currency", .str "USD"), ("rail", .str "card"), ("rationale", .str "monthly seats")]

/-- A payment that settles and one that is too large, side by side, with a look
at what is pending between them. -/
def mcpCalls : List McpAction :=
  [.pay (payArgs 40) "p" noon, .pay (payArgs 70) "q" noon, .attest 0 noon {} (.ok (some .signed)),
    .attest 1 noon {} (.ok none), .read .pending, .railReturns 0 (receipt "p" 40) (.ok true),
    .resume 0, .respond 0, .respond 0]

end Sample

theorem mcp_adds_no_authority_sample : ∃ steps t,
    (mcpServer Sample.deps).Run anyStep ⟨Sample.start, []⟩ steps t ∧ steps.length = 9 ∧
    Confined (d := Sample.deps) memoryContract Sample.start t.executor ∧
    (∀ id x, (t.executor.books (d := Sample.deps) memoryContract).intents.get id = some x →
      (Sample.start.books (d := Sample.deps) memoryContract).intents.get id = some x ∨
        Known Sample.start steps x.intent) ∧
    ∀ t' ∈ steps, ∀ call provider, .ran (.railInvoked call provider) ∈ t'.events →
      Earned Sample.deps steps t' call provider := by
  obtain ⟨steps, t, hrun, hlength⟩ := System.exists_run (mcpServer Sample.deps) anyStep
    ⟨Sample.start, []⟩ Sample.mcpCalls (fun steps _ => steps.length == 9) (by decide +kernel)
  exact ⟨steps, t, hrun, eq_of_beq hlength, mcp_adds_no_authority (d := Sample.deps)
    memoryContract hrun rfl (by simp [Sample.start, deploy]) rfl⟩

end AgentWorth
