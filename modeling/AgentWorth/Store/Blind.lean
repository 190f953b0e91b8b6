import AgentWorth.Core.Masking
import AgentWorth.Store.Postgres
import AgentWorth.Store.Sqlite

/-!
# Stores blind to what an agent writes

A store keeps an intent whole, its rationale and its timestamp included.  It is
blind to them when two of its states that differ there only, and in the hashes
and payloads of the audit rows, give the same answers and keep differing there
only.  Each of the three stores is.
-/

namespace AgentWorth

open AgentWorth.Js AgentWorth.Js.Json AgentWorth.Lib

def StoredIntent.masked (x : StoredIntent) : StoredIntent := { x with intent := x.intent.masked }

/-- What the rules see of a stored intent. -/
def visibleRow (config : GateConfig) (x : StoredIntent) : StoredIntent × Bool :=
  (x.masked, shortRationale x.intent config)

def visibleKey (v : StoredIntent × Bool) : String := v.1.id

/-- What the rules see of the stored intents. -/
def visibleRows (config : GateConfig) (t : Table StoredIntent.id) : Table visibleKey :=
  t.image (visibleRow config) fun _ => rfl

theorem get_visibleRows (config : GateConfig) (t : Table StoredIntent.id) (id : String) :
    (visibleRows config t).get id = (t.get id).map (visibleRow config) :=
  Table.get_image t id

theorem values_visibleRows (config : GateConfig) (t : Table StoredIntent.id) :
    (visibleRows config t).values = t.values.map (visibleRow config) :=
  Table.values_image t

theorem visibleRows_put (config : GateConfig) (t : Table StoredIntent.id) (x : StoredIntent) :
    visibleRows config (t.put x) = (visibleRows config t).put (visibleRow config x) :=
  Table.image_put t x

/-- A relation between states of a store that every operation keeps and no read
tells apart, but for what is masked. -/
structure Blind (config : GateConfig) {σ : Type} (S : Store σ) where
  alike : σ → σ → Prop
  refl : ∀ s, alike s s
  /- reads -/
  getMeta : ∀ {s t}, alike s t → S.getMeta s = S.getMeta t
  getMandate : ∀ {s t}, alike s t → S.getMandate s = S.getMandate t
  listMandates : ∀ {s t}, alike s t → S.listMandates s = S.listMandates t
  listActiveMandates : ∀ {s t}, alike s t → S.listActiveMandates s = S.listActiveMandates t
  getIntent : ∀ {s t}, alike s t → ∀ id,
    (S.getIntent s id).map (visibleRow config) = (S.getIntent t id).map (visibleRow config)
  listPendingIntents : ∀ {s t}, alike s t →
    (S.listPendingIntents s).map (visibleRow config) =
      (S.listPendingIntents t).map (visibleRow config)
  getReceipt : ∀ {s t}, alike s t → S.getReceipt s = S.getReceipt t
  periodSpend : ∀ {s t}, alike s t → S.periodSpend s = S.periodSpend t
  knownPayees : ∀ {s t}, alike s t → S.knownPayees s = S.knownPayees t
  payeeSettledCount : ∀ {s t}, alike s t → S.payeeSettledCount s = S.payeeSettledCount t
  /- writes -/
  setMeta : ∀ {s t}, alike s t → ∀ k v, alike (S.setMeta s k v) (S.setMeta t k v)
  revokeMandate : ∀ {s t}, alike s t → ∀ id, alike (S.revokeMandate s id) (S.revokeMandate t id)
  insertMandate : ∀ {s t}, alike s t → ∀ m,
    Ends alike (S.insertMandate s m) (S.insertMandate t m)
  updateMandate : ∀ {s t}, alike s t → ∀ id patch,
    Ends alike (S.updateMandate s id patch) (S.updateMandate t id patch)
  insertIntent : ∀ {s t}, alike s t → ∀ {x y}, visibleRow config x = visibleRow config y →
    Ends alike (S.insertIntent s x) (S.insertIntent t y)
  updateIntent : ∀ {s t}, alike s t → ∀ id update,
    Ends alike (S.updateIntent s id update) (S.updateIntent t id update)
  insertReceipt : ∀ {s t}, alike s t → ∀ r,
    Ends alike (S.insertReceipt s r) (S.insertReceipt t r)
  appendAudit : ∀ {s t}, alike s t → ∀ {e f}, EntryAlike e f →
    Ends alike (S.appendAudit s e) (S.appendAudit t f)

/-! ## Rows -/

section Rows

variable {config : GateConfig} {x y : StoredIntent} {xs ys : List StoredIntent}

/-- Rows that look alike are the same but for their intents. -/
theorem row_of_visible (h : visibleRow config x = visibleRow config y) :
    visible config x.intent = visible config y.intent ∧ y = { x with intent := y.intent } := by
  have hrow := congrArg Prod.fst h
  have hshort := congrArg Prod.snd h
  cases x
  cases y
  simp only [visibleRow, StoredIntent.masked, StoredIntent.mk.injEq] at hrow
  simp only [visibleRow] at hshort
  obtain ⟨hintent, hstatus, hmandate, hreasons, hsettled, hreceipt, hrefunded⟩ := hrow
  refine ⟨Prod.ext hintent hshort, ?_⟩
  simp only [hstatus, hmandate, hreasons, hsettled, hreceipt, hrefunded]

/-- A selection that reads no masked field. -/
theorem select_visible {p : StoredIntent → Bool}
    (hp : ∀ x, p (visibleRow config x).1 = p x)
    (h : xs.map (visibleRow config) = ys.map (visibleRow config)) :
    (xs.filter p).map (visibleRow config) = (ys.filter p).map (visibleRow config) := by
  have hp' : p = (fun v : StoredIntent × Bool => p v.1) ∘ visibleRow config :=
    funext fun x => (hp x).symm
  rw [hp', ← List.filter_map, ← List.filter_map, h]

/-- What is read of rows that look alike. -/
theorem read_visible {α : Type} {f : StoredIntent → α}
    (hf : ∀ x, f (visibleRow config x).1 = f x)
    (h : xs.map (visibleRow config) = ys.map (visibleRow config)) : xs.map f = ys.map f := by
  have hf' : f = (fun v : StoredIntent × Bool => f v.1) ∘ visibleRow config :=
    funext fun x => (hf x).symm
  rw [hf', ← List.map_map, ← List.map_map, h]

/-- An update reads nothing of the intent it is for. -/
theorem visibleRow_apply (update : IntentUpdate)
    (h : visibleRow config x = visibleRow config y) :
    visibleRow config (update.apply x) = visibleRow config (update.apply y) := by
  have happly : ∀ z, visibleRow config (update.apply z) =
      (update.apply (visibleRow config z).1, (visibleRow config z).2) := fun _ => rfl
  rw [happly, happly, h]

/-- Entries with the same numbers. -/
abbrev SameSeqs : List AuditEntry → List AuditEntry → Prop :=
  List.Forall₂ fun e f => e.seq = f.seq

theorem insertRow_sameSeqs {e f : AuditEntry} (hseq : e.seq = f.seq) {es fs : List AuditEntry}
    (h : SameSeqs es fs) : SameSeqs (Sqlite.insertRow e es) (Sqlite.insertRow f fs) := by
  induction h with
  | nil => exact .cons hseq .nil
  | @cons r r' rs rs' hrow hrest ih =>
      unfold Sqlite.insertRow
      by_cases hlt : f.seq < r'.seq
      · rw [if_pos hlt, if_pos (by rwa [hseq, hrow])]
        exact .cons hseq (.cons hrow hrest)
      · rw [if_neg hlt, if_neg (by rwa [hseq, hrow])]
        exact .cons hrow ih

end Rows

/-! ## The books -/

/-- Books that differ at most in what is masked and in what the audit rows hold
besides their numbers. -/
structure BooksAlike (config : GateConfig) (b c : Books) : Prop where
  mandates : b.mandates = c.mandates
  intents : visibleRows config b.intents = visibleRows config c.intents
  receipts : b.receipts = c.receipts
  meta' : b.meta' = c.meta'
  audit : SameSeqs b.audit c.audit

namespace BooksAlike

variable {config : GateConfig} {b c : Books} (h : BooksAlike config b c)

theorem refl (b : Books) : BooksAlike config b b where
  mandates := rfl
  intents := rfl
  receipts := rfl
  meta' := rfl
  audit := List.forall₂_same.2 fun _ _ => rfl

include h

theorem getIntent (id : String) :
    (b.intents.get id).map (visibleRow config) = (c.intents.get id).map (visibleRow config) := by
  rw [← get_visibleRows, ← get_visibleRows, h.intents]

theorem rows : b.intents.values.map (visibleRow config) =
    c.intents.values.map (visibleRow config) := by
  rw [← values_visibleRows, ← values_visibleRows, h.intents]

theorem listPendingIntents : b.listPendingIntents.map (visibleRow config) =
    c.listPendingIntents.map (visibleRow config) :=
  select_visible (fun _ => rfl) h.rows

theorem listActiveMandates : b.listActiveMandates = c.listActiveMandates := by
  funext now
  rw [Books.listActiveMandates, Books.listActiveMandates, h.mandates]

theorem periodSpend : b.periodSpend = c.periodSpend := by
  funext id now
  have hspend : ∀ start, (b.spendRows id start).map priorSpend =
      (c.spendRows id start).map priorSpend := fun start =>
    read_visible (fun _ => rfl) (select_visible (fun _ => rfl) h.rows)
  unfold Books.periodSpend
  rw [h.mandates]
  simp only [hspend]

theorem settledPayees : b.settledPayees = c.settledPayees :=
  read_visible (fun _ => rfl) (select_visible (fun _ => rfl) h.rows)

theorem payeeSettledCount : b.payeeSettledCount = c.payeeSettledCount := by
  funext payee
  have hsettled := select_visible
    (p := fun s => s.status == .settled && s.intent.payee == payee) (fun _ => rfl) h.rows
  have hlength := congrArg List.length hsettled
  rwa [List.length_map, List.length_map] at hlength

theorem setMeta (k v : String) : BooksAlike config (b.setMeta k v) (c.setMeta k v) :=
  { h with meta' := by rw [Books.setMeta, Books.setMeta, h.meta'] }

/-- A change of the mandates. -/
theorem withMandates (t : Table Mandate.id) :
    BooksAlike config { b with mandates := t } { c with mandates := t } :=
  { h with mandates := rfl }

theorem withReceipts (t : Table Receipt.id) :
    BooksAlike config { b with receipts := t } { c with receipts := t } :=
  { h with receipts := rfl }

/-- A row written in both. -/
theorem putIntent {x y : StoredIntent} (hrow : visibleRow config x = visibleRow config y) :
    BooksAlike config { b with intents := b.intents.put x } { c with intents := c.intents.put y } :=
  { h with intents := by rw [visibleRows_put, visibleRows_put, h.intents, hrow] }

theorem present {x y : StoredIntent} (hrow : visibleRow config x = visibleRow config y) :
    (b.intents.get x.id).isSome = (c.intents.get y.id).isSome := by
  have hid : x.id = y.id := congrArg (fun v : StoredIntent × Bool => v.1.id) hrow
  have hget := congrArg Option.isSome (h.getIntent x.id)
  rw [Option.isSome_map, Option.isSome_map] at hget
  rw [hget, hid]

theorem insertIntent {x y : StoredIntent} (hrow : visibleRow config x = visibleRow config y) :
    Ends (BooksAlike config) (b.insertIntent x) (c.insertIntent y) := by
  have hid : x.id = y.id := congrArg (fun v : StoredIntent × Bool => v.1.id) hrow
  unfold Books.insertIntent
  rw [h.present hrow, hid]
  exact .guarded (.ok (h.putIntent hrow))

theorem updateIntent (id : String) (update : IntentUpdate) :
    Ends (BooksAlike config) (b.updateIntent id update) (c.updateIntent id update) := by
  unfold Books.updateIntent
  have hfound := rel_of_map_eq (h.getIntent id)
  generalize b.intents.get id = o at hfound ⊢
  generalize c.intents.get id = o' at hfound ⊢
  cases hfound with
  | none => exact .error _
  | some hrow => exact .ok (h.putIntent (visibleRow_apply update hrow))

end BooksAlike

/-! ## The three stores -/

def memoryBlind (config : GateConfig) : Blind config memoryStore where
  alike := BooksAlike config
  refl := .refl
  getMeta h := by simp only [memoryStore, h.meta']
  getMandate h := by simp only [memoryStore, h.mandates]
  listMandates h := by simp only [memoryStore, h.mandates]
  listActiveMandates h := h.listActiveMandates
  getIntent h := h.getIntent
  listPendingIntents h := h.listPendingIntents
  getReceipt h := by simp only [memoryStore, h.receipts]
  periodSpend h := h.periodSpend
  knownPayees h := by simp only [memoryStore, h.settledPayees]
  payeeSettledCount h := h.payeeSettledCount
  setMeta h := h.setMeta
  revokeMandate h id := by
    simp only [memoryStore, Books.revokeMandate, h.mandates]
    exact h.withMandates _
  insertMandate h m := by
    simp only [memoryStore, Books.insertMandate, h.mandates]
    exact .guarded (.ok (h.withMandates _))
  updateMandate h id patch := by
    simp only [memoryStore, Books.updateMandate, h.mandates]
    exact .ok (h.withMandates _)
  insertIntent h _ _ hrow := h.insertIntent hrow
  updateIntent h := h.updateIntent
  insertReceipt h r := by
    simp only [memoryStore, Books.insertReceipt, h.receipts]
    exact .ok (h.withReceipts _)
  appendAudit h e f hef := .ok { h with audit := List.rel_append h.audit (.cons hef.seq .nil) }

open Sqlite in
/-- What SQLite refuses, it refuses for a number or a key. -/
def sqliteBlind (config : GateConfig) : Blind config sqliteStore where
  alike := BooksAlike config
  refl := .refl
  getMeta := (memoryBlind config).getMeta
  getMandate := (memoryBlind config).getMandate
  listMandates := (memoryBlind config).listMandates
  listActiveMandates := (memoryBlind config).listActiveMandates
  getIntent := (memoryBlind config).getIntent
  listPendingIntents := (memoryBlind config).listPendingIntents
  getReceipt := (memoryBlind config).getReceipt
  periodSpend := (memoryBlind config).periodSpend
  knownPayees h := by simp only [sqliteStore, h.settledPayees]
  payeeSettledCount := (memoryBlind config).payeeSettledCount
  setMeta := (memoryBlind config).setMeta
  revokeMandate := (memoryBlind config).revokeMandate
  insertMandate h m := by
    simp only [sqliteStore, Sqlite.insertMandate, h.mandates]
    exact (Ends.self _).bind fun _ => .guarded (.ok (h.withMandates _))
  updateMandate {s t} h id patch := by
    simp only [sqliteStore, Sqlite.updateMandate, h.mandates]
    cases t.mandates.get id with
    | none => exact .ok h
    | some current =>
        refine (Ends.self _).map fun _ => ?_
        simp only [Books.updateMandate, h.mandates]
        exact h.withMandates _
  insertIntent {s t} h x y hrow := by
    have hamount : x.intent.amount = y.intent.amount :=
      congrArg (fun v : StoredIntent × Bool => v.1.intent.amount) hrow
    have hrefunded : x.refundedMinor = y.refundedMinor :=
      congrArg (fun v : StoredIntent × Bool => v.1.refundedMinor) hrow
    have hsaved : visibleRow config (intentRow x) = visibleRow config (intentRow y) := by
      have hrow' : ∀ z, visibleRow config (intentRow z) =
          (intentRow (visibleRow config z).1, (visibleRow config z).2) := fun _ => rfl
      rw [hrow', hrow', hrow]
    simp only [sqliteStore, Sqlite.insertIntent, hamount, hrefunded, h.present hrow]
    exact (Ends.self _).bind fun _ => (Ends.self _).bind fun _ =>
      .guarded (.ok (h.putIntent hsaved))
  updateIntent {s t} h id update := by
    simp only [sqliteStore, Sqlite.updateIntent]
    have hfound := rel_of_map_eq (h.getIntent id)
    generalize s.intents.get id = o at hfound ⊢
    generalize t.intents.get id = o' at hfound ⊢
    cases hfound with
    | none => exact .error _
    | some hrow =>
        exact (Ends.self _).map fun _ => h.putIntent (visibleRow_apply update hrow)
  insertReceipt h r := by
    simp only [sqliteStore, Sqlite.insertReceipt, Books.insertReceipt, h.receipts]
    exact (Ends.self _).bind fun _ => .guarded (.guarded (.ok (h.withReceipts _)))
  appendAudit {s t} h e f hef := by
    have hrow : (auditRow e).seq = (auditRow f).seq := hef.seq
    have htaken : s.audit.any (fun r => r.seq == e.seq) = t.audit.any fun r => r.seq == f.seq :=
      any_eq_of_forall₂ (fun hseq => by rw [hseq, hef.seq]) h.audit
    simp only [sqliteStore, Sqlite.appendAudit, hef.payload.dropped, htaken]
    exact .guarded (.guarded (.ok { h with audit := insertRow_sameSeqs hrow h.audit }))

/-- The mirror answers; the queue is not read. -/
def postgresBlind (config : GateConfig) : Blind config postgresStore where
  alike s t := BooksAlike config s.mirror t.mirror
  refl s := .refl s.mirror
  getMeta h := (memoryBlind config).getMeta h
  getMandate h := (memoryBlind config).getMandate h
  listMandates h := (memoryBlind config).listMandates h
  listActiveMandates h := (memoryBlind config).listActiveMandates h
  getIntent h := (memoryBlind config).getIntent h
  listPendingIntents h := (memoryBlind config).listPendingIntents h
  getReceipt h := (memoryBlind config).getReceipt h
  periodSpend h := (memoryBlind config).periodSpend h
  knownPayees h := (memoryBlind config).knownPayees h
  payeeSettledCount h := (memoryBlind config).payeeSettledCount h
  setMeta h := (memoryBlind config).setMeta h
  revokeMandate h := (memoryBlind config).revokeMandate h
  insertMandate h m := ((memoryBlind config).insertMandate h m).map id
  updateMandate h i patch := by
    cases (memoryBlind config).updateMandate h i patch with
    | ok hmirror => exact .ok hmirror
  insertIntent h _ _ hrow := ((memoryBlind config).insertIntent h hrow).map id
  updateIntent h i update := ((memoryBlind config).updateIntent h i update).map id
  insertReceipt h r := by
    cases (memoryBlind config).insertReceipt h r with
    | ok hmirror => exact .ok hmirror
  appendAudit h _ _ hef := by
    cases (memoryBlind config).appendAudit h hef with
    | ok hmirror => exact .ok hmirror

end AgentWorth
