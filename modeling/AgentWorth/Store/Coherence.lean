import AgentWorth.Store.Notify
import AgentWorth.Store.Rehydrate

/-!
# Self-notifications

A reload updates the mirror with a row that was read earlier, and local writes
reach the mirror before the database.  So a reload is harmless when its row says
what the last local write of the entity wrote: the condition `rowsAreCurrent`.
-/

namespace AgentWorth

open AgentWorth.Js AgentWorth.Lib AgentWorth.Postgres

/-! ## Payloads -/

theorem splitPayload_append {kind : String} (id : String) (h : ∀ c ∈ kind.toList, c ≠ ':') :
    splitPayload (kind ++ ":" ++ id) = some (kind, id) := by
  have hchars : (kind ++ ":" ++ id).toList = kind.toList ++ ':' :: id.toList := by
    simp
  have hspan : (kind.toList ++ ':' :: id.toList).span (· != ':') =
      (kind.toList, ':' :: id.toList) := by
    have hall : ∀ c ∈ kind.toList, (c != ':') = true := fun c hc => bne_iff_ne.2 (h c hc)
    rw [List.span_eq_takeWhile_dropWhile, List.takeWhile_append_of_pos hall,
      List.dropWhile_append_of_pos hall]
    simp
  unfold splitPayload
  rw [hchars, hspan]
  simp

/-- A payload names the entity it was published for. -/
theorem entityOf_payload (e : Entity) : entityOf (payload e) = some e := by
  obtain ⟨kind, id⟩ := e
  have hplain : ∀ c ∈ kind.text.toList, c ≠ ':' := by
    cases kind <;> simp [EntityKind.text]
  unfold entityOf payload
  rw [splitPayload_append id hplain]
  cases kind <;> rfl

/-! ## The row of the last local write -/

/-- The row a write leaves, if it names the entity. -/
def Write.sets (e : Entity) (w : Write) : Option (Option JsValue) :=
  if announces w = some e then
    some (match w with
      | .meta' _ v => some (.str v)
      | .mandate _ data => (jsonb (data.map mandateCodec.encode)).toOption
      | .intent _ data => (jsonb (data.map storedIntentCodec.encode)).toOption
      | .receipt data => (jsonb (some (receiptCodec.encode data))).toOption
      | .audit _ => none)
  else none

def Job.sets (e : Entity) : Job → Option (Option JsValue)
  | .write w => w.sets e
  | .notify _ => none

/-- The row of an entity once some closures are made. -/
def rowAfter (e : Entity) (row : Option JsValue) (queue : List Job) : Option JsValue :=
  queue.foldl (fun row job => (job.sets e).getD row) row

/-- The row that the last local write of an entity leaves, written or not. -/
def lastRow (w : NotifyingSession) (e : Entity) : Option JsValue :=
  rowAfter e (rowOf w.tables e) w.queue

/-- The row of the record that the mirror holds. -/
def recordRow (b : Books) (e : Entity) : Option JsValue :=
  match e.kind with
  | .mandate => (jsonb ((b.mandates.get e.id).map mandateCodec.encode)).toOption
  | .intent => (jsonb ((b.intents.get e.id).map storedIntentCodec.encode)).toOption
  | .receipt => (jsonb ((b.receipts.get e.id).map receiptCodec.encode)).toOption
  | .meta' => (b.meta'.get e.id).map JsValue.str

theorem rowAfter_append (e : Entity) (row : Option JsValue) (queue queue' : List Job) :
    rowAfter e row (queue ++ queue') = rowAfter e (rowAfter e row queue) queue' :=
  List.foldl_append

/-- Closures that name the entity decide its row; others leave it. -/
theorem rowAfter_cases (e : Entity) (queue : List Job) :
    (∀ row, rowAfter e row queue = row) ∨ ∃ last, ∀ row, rowAfter e row queue = last := by
  induction queue with
  | nil => exact Or.inl fun row => rfl
  | cons job rest ih =>
      cases hsets : job.sets e with
      | some row' =>
          refine Or.inr ⟨rowAfter e row' rest, fun row => ?_⟩
          show rowAfter e ((job.sets e).getD row) rest = _
          rw [hsets, Option.getD_some]
      | none =>
          have hskip : ∀ row, rowAfter e row (job :: rest) = rowAfter e row rest := by
            intro row
            show rowAfter e ((job.sets e).getD row) rest = _
            rw [hsets, Option.getD_none]
          rcases ih with hsame | ⟨last, hlast⟩
          · exact Or.inl fun row => (hskip row).trans (hsame row)
          · exact Or.inr ⟨last, fun row => (hskip row).trans (hlast row)⟩

theorem rowAfter_jobs (e : Entity) (row : Option JsValue) (w : Write) :
    rowAfter e row (jobs w) = (w.sets e).getD row := by
  unfold jobs
  cases announces w <;> rfl

/-- A write that the database takes leaves its row. -/
theorem rowOf_execute {t t' : Tables} {w : Write} (h : Postgres.execute t w = .ok t')
    (e : Entity) : rowOf t' e = (w.sets e).getD (rowOf t e) := by
  obtain ⟨kind, id⟩ := e
  have hupsert : ∀ {rows rows' : JsMap JsValue} {k : String} {data : Option JsValue},
      upsert rows k data = .ok rows' →
      rows'.get id = if k = id then (jsonb data).toOption else rows.get id := by
    intro rows rows' k data hrows
    obtain ⟨v, hv, rfl⟩ := except_map_eq_ok.1 hrows
    rw [JsMap.get_set, hv]
    simp only [eq_comm, Except.toOption]
  cases w with
  | meta' k v =>
      cases h
      cases kind <;> simp [rowOf, Write.sets, announces]
      by_cases hid : id = k
      · simp [hid]
      · simp [hid, Ne.symm hid]
  | mandate k data =>
      obtain ⟨rows, hrows, rfl⟩ := except_map_eq_ok.1 h
      cases kind <;> simp [rowOf, Write.sets, announces]
      rw [hupsert hrows]
      split <;> rfl
  | intent k data =>
      obtain ⟨rows, hrows, rfl⟩ := except_map_eq_ok.1 h
      cases kind <;> simp [rowOf, Write.sets, announces]
      rw [hupsert hrows]
      split <;> rfl
  | receipt data =>
      obtain ⟨rows, hrows, rfl⟩ := except_map_eq_ok.1 h
      cases kind <;> simp [rowOf, Write.sets, announces]
      rw [hupsert hrows]
      split <;> rfl
  | audit entry =>
      simp only [Postgres.execute] at h
      obtain ⟨rows, -, rfl⟩ := except_map_eq_ok.1 h
      cases kind <;> simp [rowOf, Write.sets, announces]

/-! ## Calls -/

/-- What a call does to the mirror is what the in-memory store does. -/
theorem call_memory (s : PostgresStore) (c : StoreCall) :
    (postgresStore.call s c).1 = (memoryStore.call s.mirror c).1 ∧
      (postgresStore.call s c).2.mirror = (memoryStore.call s.mirror c).2 := by
  have hwrote : ∀ (r : Except String Books) (f : Books → PostgresStore),
      (∀ b, (f b).mirror = b) →
      (wrote s (r.map f)).1 = (wrote s.mirror r).1 ∧
        (wrote s (r.map f)).2.mirror = (wrote s.mirror r).2 := by
    intro r f hf
    cases r with
    | error e => exact ⟨rfl, rfl⟩
    | ok b => exact ⟨rfl, hf b⟩
  cases c with
  | insertMandate m => exact hwrote _ (fun b => persistMandate s b m.id) fun _ => rfl
  | insertIntent x => exact hwrote _ (fun b => persistIntent s b x.intent.id) fun _ => rfl
  | updateIntent id update => exact hwrote _ (fun b => persistIntent s b id) fun _ => rfl
  | _ => exact ⟨rfl, rfl⟩

/-- A write that sets the row of the one record that changes. -/
theorem recordRow_of_write {b b' : Books} {w : Write} {e : Entity}
    (hset : announces w = some e → w.sets e = some (recordRow b' e))
    (hother : announces w ≠ some e → recordRow b' e = recordRow b e) :
    recordRow b' e = rowAfter e (recordRow b e) ([w].flatMap jobs) := by
  rw [List.flatMap_singleton, rowAfter_jobs]
  by_cases h : announces w = some e
  · rw [hset h, Option.getD_some]
  · have hnone : w.sets e = none := if_neg h
    rw [hnone, Option.getD_none, hother h]

section Records

variable {b : Books} (e : Entity)

theorem recordRow_mandates {ms : Table Mandate.id} {id : String}
    (h : ∀ id', id' ≠ id → ms.get id' = b.mandates.get id') :
    recordRow { b with mandates := ms } e =
      rowAfter e (recordRow b e) ([Write.mandate id (ms.get id)].flatMap jobs) := by
  obtain ⟨kind, id'⟩ := e
  refine recordRow_of_write ?_ ?_
  · intro hannounces
    cases hannounces
    simp [Write.sets, announces, recordRow]
  · intro hannounces
    cases kind with
    | mandate =>
        have hne : id' ≠ id := by
          rintro rfl
          exact hannounces rfl
        simp only [recordRow, h id' hne]
    | intent | receipt | meta' => rfl

theorem recordRow_intents {xs : Table StoredIntent.id} {id : String}
    (h : ∀ id', id' ≠ id → xs.get id' = b.intents.get id') :
    recordRow { b with intents := xs } e =
      rowAfter e (recordRow b e) ([Write.intent id (xs.get id)].flatMap jobs) := by
  obtain ⟨kind, id'⟩ := e
  refine recordRow_of_write ?_ ?_
  · intro hannounces
    cases hannounces
    simp [Write.sets, announces, recordRow]
  · intro hannounces
    cases kind with
    | intent =>
        have hne : id' ≠ id := by
          rintro rfl
          exact hannounces rfl
        simp only [recordRow, h id' hne]
    | mandate | receipt | meta' => rfl

theorem recordRow_insertReceipt (r : Receipt) :
    recordRow (b.insertReceipt r) e =
      rowAfter e (recordRow b e) ([Write.receipt r].flatMap jobs) := by
  obtain ⟨kind, id⟩ := e
  refine recordRow_of_write ?_ ?_
  · intro hannounces
    cases hannounces
    simp [Write.sets, announces, recordRow, Books.insertReceipt]
  · intro hannounces
    cases kind with
    | receipt =>
        have hne : id ≠ r.id := by
          rintro rfl
          exact hannounces rfl
        simp only [recordRow, Books.insertReceipt, Table.get_put_of_ne hne]
    | mandate | intent | meta' => rfl

theorem recordRow_setMeta (k v : String) :
    recordRow (b.setMeta k v) e =
      rowAfter e (recordRow b e) ([Write.meta' k v].flatMap jobs) := by
  obtain ⟨kind, id⟩ := e
  refine recordRow_of_write ?_ ?_
  · intro hannounces
    cases hannounces
    simp [Write.sets, announces, recordRow, Books.setMeta]
  · intro hannounces
    cases kind with
    | meta' =>
        have hne : id ≠ k := by
          rintro rfl
          exact hannounces rfl
        simp only [recordRow, Books.setMeta, JsMap.get_set, if_neg hne]
    | mandate | intent | receipt => rfl

end Records

/-- **The closures a call enqueues set the rows of the records it changes.** -/
theorem recordRow_call (key : String) (b : Books) (c : StoreCall) (e : Entity) :
    recordRow (postgresStore.call ⟨key, b, []⟩ c).2.mirror e =
      rowAfter e (recordRow b e)
        ((postgresStore.call ⟨key, b, []⟩ c).2.queue.flatMap jobs) := by
  cases c with
  | setMeta k v => exact recordRow_setMeta e k v
  | insertMandate m =>
      cases hget : b.mandates.get m.id with
      | some m' =>
          simp [Store.call, postgresStore, memoryStore, Books.insertMandate, hget, Except.map,
            wrote, rowAfter]
      | none =>
          have hput : ∀ id', id' ≠ m.id → (b.mandates.put m).get id' = b.mandates.get id' :=
            fun id' hne => Table.get_put_of_ne hne
          have h := recordRow_mandates e hput
          simpa [Store.call, postgresStore, memoryStore, Books.insertMandate, hget, Except.map,
            wrote, persistMandate, enqueue] using h
  | revokeMandate id =>
      refine recordRow_mandates e fun id' hne => ?_
      have hrevoke : ∀ m : Mandate, Mandate.id { m with status := .revoked } = m.id := fun _ => rfl
      have h := Table.get_modify (t := b.mandates) (k := id) hrevoke id'
      rw [if_neg hne] at h
      exact h
  | updateMandate id patch =>
      exact recordRow_mandates e fun id' hne => by
        rw [Table.get_modify (MandatePatch.apply_id patch), if_neg hne]
  | insertIntent x =>
      cases hget : b.intents.get x.id with
      | some x' =>
          simp [Store.call, postgresStore, memoryStore, Books.insertIntent, hget, Except.map,
            wrote, rowAfter]
      | none =>
          have hput : ∀ id', id' ≠ x.intent.id →
              (b.intents.put x).get id' = b.intents.get id' :=
            fun id' hne => Table.get_put_of_ne hne
          have h := recordRow_intents e hput
          simpa [Store.call, postgresStore, memoryStore, Books.insertIntent, hget, Except.map,
            wrote, persistIntent, enqueue] using h
  | updateIntent id update =>
      cases hget : b.intents.get id with
      | none =>
          simp [Store.call, postgresStore, memoryStore, Books.updateIntent, hget, Except.map,
            wrote, rowAfter]
      | some x =>
          obtain rfl := Table.key_of_get hget
          have hput : ∀ id', id' ≠ x.id →
              (b.intents.put (update.apply x)).get id' = b.intents.get id' :=
            fun id' hne => Table.get_put_of_ne hne
          have h := recordRow_intents e hput
          simpa [Store.call, postgresStore, memoryStore, Books.updateIntent, hget, Except.map,
            wrote, persistIntent, enqueue] using h
  | insertReceipt r => exact recordRow_insertReceipt e r
  | appendAudit entry =>
      have h : recordRow (b.appendAudit entry) e =
          rowAfter e (recordRow b e) ([Write.audit entry].flatMap jobs) := by
        refine recordRow_of_write ?_ fun _ => rfl
        intro hannounces
        cases hannounces
      exact h
  | _ => rfl

/-! ## Sessions in step -/

/-- The store's own row of `os_meta`, which the mirror does not hold. -/
def operatorEntity : Entity := { kind := .meta', id := operatorKeyRow }

def Job.names : Job → Option Entity
  | .write _ => none
  | .notify payload => entityOf payload

/-- The entities that are announced, or being reloaded. -/
def mentioned (w : NotifyingSession) : List Entity :=
  w.queue.filterMap Job.names ++ w.notices.filterMap entityOf ++ w.reloads.map Reload.entity

/-- The last local write of every record that the mirror holds left its row,
written or not; and the store's own row is announced only if it was written as a
record. -/
structure InStep (w : NotifyingSession) : Prop where
  rows : ∀ e, e ≠ operatorEntity ∨ recordRow w.mirror e ≠ none →
    lastRow w e = recordRow w.mirror e
  own : operatorEntity ∈ mentioned w → recordRow w.mirror operatorEntity ≠ none

/-- A ready store: nothing is queued, announced or being reloaded, and the rows
are those of the records. -/
structure Ready (w : NotifyingSession) : Prop where
  queue : w.queue = []
  notices : w.notices = []
  reloads : w.reloads = []
  rows : ∀ e, e ≠ operatorEntity → rowOf w.tables e = recordRow w.mirror e
  own : recordRow w.mirror operatorEntity = none

theorem Ready.inStep {w : NotifyingSession} (h : Ready w) : InStep w := by
  constructor
  · intro e he
    have hne : e ≠ operatorEntity := by
      rintro rfl
      rcases he with he | he
      · exact he rfl
      · exact he h.own
    unfold lastRow rowAfter
    rw [h.queue, List.foldl_nil, h.rows e hne]
  · intro hmem
    simp [mentioned, h.queue, h.notices, h.reloads] at hmem

/-- A store that is opened on tables which hold its records is ready. -/
theorem ready_of_mirrors {t : Tables} {key : String} {b : Books} (h : Mirrors t key b)
    (hintents : ∀ id x, b.intents.get id = some x → x.Finite)
    (hreceipts : ∀ id r, b.receipts.get id = some r → r.Finite) :
    Ready { tables := t, operatorKey := key, mirror := b, queue := [] } := by
  have hrow : ∀ {α : Type} {c : Codec α} {record : Option α},
      (∀ x, record = some x → (c.encode x).Stable) →
      record.map c.encode = (jsonb (record.map c.encode)).toOption := by
    intro α c record hstable
    cases record with
    | none => rfl
    | some x => rw [Option.map_some, jsonb_stable (hstable x rfl)]; rfl
  refine ⟨rfl, rfl, rfl, ?_, ?_⟩
  · rintro ⟨kind, id⟩ hne
    cases kind with
    | mandate =>
        exact (h.mandates id).trans (hrow fun m hm => stable_mandate (h.finite id m hm))
    | intent =>
        exact (h.intents id).trans (hrow fun x hx => stable_storedIntent (hintents id x hx))
    | receipt =>
        exact (h.receipts id).trans (hrow fun r hr => stable_receipt (hreceipts id r hr))
    | meta' =>
        have hid : id ≠ operatorKeyRow := by
          rintro rfl
          exact hne rfl
        simp only [rowOf, recordRow, h.meta' id hid]
  · simp only [operatorEntity, recordRow, h.reserved, Option.map_none]

theorem mem_mentioned {w : NotifyingSession} {e : Entity} :
    e ∈ mentioned w ↔ (∃ job ∈ w.queue, job.names = some e) ∨
      (∃ payload ∈ w.notices, entityOf payload = some e) ∨
        ∃ reload ∈ w.reloads, reload.entity = e := by
  simp [mentioned]

/-- Only a write of the entity announces it. -/
theorem announces_of_names {ws : List Write} {e : Entity}
    (h : ∃ job ∈ ws.flatMap jobs, job.names = some e) : ∃ w ∈ ws, announces w = some e := by
  obtain ⟨job, hjob, hnames⟩ := h
  obtain ⟨w, hw, hmem⟩ := List.mem_flatMap.1 hjob
  refine ⟨w, hw, ?_⟩
  unfold jobs at hmem
  rcases List.mem_cons.1 hmem with rfl | hmem
  · cases hnames
  · cases hannounced : announces w with
    | none => simp [hannounced] at hmem
    | some e' =>
        rw [hannounced] at hmem
        obtain rfl := List.mem_singleton.1 hmem
        rw [Job.names, entityOf_payload] at hnames
        exact hnames

/-- A write of the store's own row leaves one. -/
theorem sets_own {w : Write} (h : announces w = some operatorEntity) :
    ∃ v, w.sets operatorEntity = some (some v) := by
  cases w with
  | meta' k v => exact ⟨.str v, if_pos h⟩
  | mandate | intent | receipt | audit => simp [announces, operatorEntity] at h

theorem rowAfter_own {ws : List Write} {row : Option JsValue}
    (h : row ≠ none ∨ ∃ w ∈ ws, announces w = some operatorEntity) :
    rowAfter operatorEntity row (ws.flatMap jobs) ≠ none := by
  induction ws generalizing row with
  | nil =>
      rcases h with h | ⟨w, hw, -⟩
      · exact h
      · cases hw
  | cons w ws ih =>
      rw [List.flatMap_cons, rowAfter_append, rowAfter_jobs]
      refine ih ?_
      by_cases hw : announces w = some operatorEntity
      · obtain ⟨v, hv⟩ := sets_own hw
        rw [hv]
        exact Or.inl (Option.some_ne_none v)
      · have hnone : w.sets operatorEntity = none := if_neg hw
        rw [hnone, Option.getD_none]
        rcases h with h | ⟨w', hw', hannounces⟩
        · exact Or.inl h
        · rcases List.mem_cons.1 hw' with rfl | hmem
          · exact absurd hannounces hw
          · exact Or.inr ⟨w', hmem, hannounces⟩

/-! ## What a step keeps -/

theorem inStep_call {w : NotifyingSession} (h : InStep w) (c : StoreCall) :
    InStep (w.call c).2 := by
  have hrecord := recordRow_call w.operatorKey w.mirror c
  have hqueue : ∀ e, lastRow (w.call c).2 e = rowAfter e (lastRow w e)
      ((postgresStore.call ⟨w.operatorKey, w.mirror, []⟩ c).2.queue.flatMap jobs) :=
    fun e => rowAfter_append e _ _ _
  constructor
  · intro e he
    have hmirror : recordRow (w.call c).2.mirror e = _ := hrecord e
    rw [hqueue, hmirror]
    rcases rowAfter_cases e
      ((postgresStore.call ⟨w.operatorKey, w.mirror, []⟩ c).2.queue.flatMap jobs) with
      hsame | ⟨last, hlast⟩
    · rw [hsame, hsame]
      refine h.rows e ?_
      rw [hmirror, hsame] at he
      exact he
    · rw [hlast, hlast]
  · intro hmem
    have hmirror : recordRow (w.call c).2.mirror operatorEntity = _ := hrecord operatorEntity
    rw [hmirror]
    refine rowAfter_own ?_
    rcases mem_mentioned.1 hmem with ⟨job, hjob, hnames⟩ | hrest
    · rcases List.mem_append.1 hjob with hold | hnew
      · exact Or.inl (h.own (mem_mentioned.2 (Or.inl ⟨job, hold, hnames⟩)))
      · exact Or.inr (announces_of_names ⟨job, hnew, hnames⟩)
    · exact Or.inl (h.own (mem_mentioned.2 (Or.inr hrest)))

/-- Steps that leave the mirror and the last rows. -/
theorem InStep.same {w w' : NotifyingSession} (h : InStep w) (hmirror : w'.mirror = w.mirror)
    (hrows : ∀ e, lastRow w' e = lastRow w e)
    (hmentioned : ∀ e ∈ mentioned w', e ∈ mentioned w) : InStep w' := by
  constructor
  · intro e he
    rw [hmirror] at he ⊢
    rw [hrows e]
    exact h.rows e he
  · intro hmem
    rw [hmirror]
    exact h.own (hmentioned _ hmem)

/-- A closure that the database has taken may stay in the queue. -/
theorem rowAfter_taken {t t' : Tables} {write : Write} {rest : List Job}
    (h : Postgres.execute t write = .ok t') (e : Entity) (answered : Bool) :
    rowAfter e (rowOf t' e) (if answered then rest else .write write :: rest) =
      rowAfter e (rowOf t e) (.write write :: rest) := by
  have hcons : ∀ row, rowAfter e row (.write write :: rest) =
      rowAfter e ((write.sets e).getD row) rest := fun row => rfl
  rw [hcons (rowOf t e), ← rowOf_execute h e]
  cases answered with
  | true => rfl
  | false =>
      rw [if_neg Bool.false_ne_true, hcons]
      have hrow := rowOf_execute h e
      cases hsets : write.sets e with
      | none => rfl
      | some row =>
          rw [hsets] at hrow
          rw [hrow]
          rfl

theorem inStep_query {w w' : NotifyingSession} (h : InStep w) {answered : Bool}
    {es : List (Except String Answer)}
    (htaken : notifying.step w (.query answered) = some (w', es)) :
    InStep w' ∧ w'.mirror = w.mirror ∧ es = [] := by
  simp only [notifying] at htaken
  split at htaken
  · cases htaken
  · next job rest hqueue =>
      have hsub : ∀ j ∈ (if answered then rest else w.queue), j ∈ w.queue := by
        intro j hj
        cases answered with
        | true =>
            rw [hqueue]
            exact List.mem_cons_of_mem _ hj
        | false => exact hj
      split at htaken
      · next payload =>
          cases htaken
          refine ⟨h.same rfl ?_ ?_, rfl, rfl⟩
          · intro e
            unfold lastRow
            rw [hqueue]
            cases answered <;> rfl
          · intro e he
            rcases mem_mentioned.1 he with ⟨j, hj, hnames⟩ | ⟨p, hp, hentity⟩ | hreload
            · exact mem_mentioned.2 (Or.inl ⟨j, hsub j hj, hnames⟩)
            · rcases List.mem_append.1 hp with hold | hnew
              · exact mem_mentioned.2 (Or.inr (Or.inl ⟨p, hold, hentity⟩))
              · obtain rfl := List.mem_singleton.1 hnew
                refine mem_mentioned.2 (Or.inl ⟨.notify p, ?_, hentity⟩)
                rw [hqueue]
                exact List.mem_cons_self
            · exact mem_mentioned.2 (Or.inr (Or.inr hreload))
      · next write =>
          split at htaken
          · cases htaken
            exact ⟨h, rfl, rfl⟩
          · next tables hexec =>
              cases htaken
              refine ⟨h.same rfl ?_ ?_, rfl, rfl⟩
              · intro e
                unfold lastRow
                simp only [hqueue]
                exact rowAfter_taken hexec e answered
              · intro e he
                rcases mem_mentioned.1 he with ⟨j, hj, hnames⟩ | hrest
                · exact mem_mentioned.2 (Or.inl ⟨j, hsub j hj, hnames⟩)
                · exact mem_mentioned.2 (Or.inr hrest)

theorem inStep_deliver {w w' : NotifyingSession} (h : InStep w) {i : Nat}
    {es : List (Except String Answer)}
    (htaken : notifying.step w (.deliver i) = some (w', es)) :
    InStep w' ∧ w'.mirror = w.mirror ∧ es = [] := by
  obtain ⟨payload, hget, heq⟩ := Option.map_eq_some_iff.1 htaken
  cases heq
  refine ⟨h.same rfl (fun e => rfl) ?_, rfl, rfl⟩
  intro e he
  rcases mem_mentioned.1 he with hqueue | ⟨p, hp, hentity⟩ | ⟨reload, hreload, hentity⟩
  · exact mem_mentioned.2 (Or.inl hqueue)
  · exact mem_mentioned.2 (Or.inr (Or.inl ⟨p, List.mem_of_mem_eraseIdx hp, hentity⟩))
  · rcases List.mem_append.1 hreload with hold | hnew
    · exact mem_mentioned.2 (Or.inr (Or.inr ⟨reload, hold, hentity⟩))
    · refine mem_mentioned.2 (Or.inr (Or.inl ⟨payload, List.mem_of_getElem? hget, ?_⟩))
      cases hnamed : entityOf payload with
      | none =>
          rw [hnamed] at hnew
          cases hnew
      | some e' =>
          rw [hnamed] at hnew
          rw [List.mem_singleton.1 hnew] at hentity
          exact congrArg some hentity

theorem inStep_read {w w' : NotifyingSession} (h : InStep w) {i : Nat}
    {es : List (Except String Answer)}
    (htaken : notifying.step w (.read i) = some (w', es)) :
    InStep w' ∧ w'.mirror = w.mirror ∧ es = [] := by
  simp only [notifying] at htaken
  split at htaken
  · next e hget =>
      cases htaken
      refine ⟨h.same rfl (fun e => rfl) ?_, rfl, rfl⟩
      intro e' he
      rcases mem_mentioned.1 he with hqueue | hnotice | ⟨reload, hreload, hentity⟩
      · exact mem_mentioned.2 (Or.inl hqueue)
      · exact mem_mentioned.2 (Or.inr (Or.inl hnotice))
      · rcases List.mem_or_eq_of_mem_set hreload with hold | rfl
        · exact mem_mentioned.2 (Or.inr (Or.inr ⟨reload, hold, hentity⟩))
        · exact mem_mentioned.2 (Or.inr (Or.inr ⟨.asked e, List.mem_of_getElem? hget, hentity⟩))
  · cases htaken

/-! ## Rows that are current -/

/-- A row was read, and the last local write left one; both are records, and
they agree. -/
def Says {α : Type} (c : Codec α) (agrees : α → α → Prop) (row : JsValue)
    (last : Option JsValue) : Prop :=
  ∃ y ∈ c.decode row, ∃ x ∈ last.bind c.decode, agrees y x

/-- What a reload copies from `y` is in `x`; an absent member is not copied. -/
structure StoredIntent.AgreesWith (y x : StoredIntent) : Prop where
  status : y.status = x.status
  reasons : y.reasons = x.reasons
  settledAt : y.settledAt = none ∨ y.settledAt = x.settledAt
  receiptId : y.receiptId = none ∨ y.receiptId = x.receiptId
  refundedMinor : y.refundedMinor = none ∨ y.refundedMinor = x.refundedMinor

/-- A row that was read says what the last local write of the entity wrote, and
the numbers of the record are finite, as JSON has no others. -/
def RowIsCurrent (w : NotifyingSession) (e : Entity) (row : JsValue) : Prop :=
  match e.kind with
  | .mandate => Says mandateCodec Eq row (lastRow w e) ∧
      ∀ m ∈ w.mirror.mandates.get e.id, m.Finite
  | .intent => Says storedIntentCodec StoredIntent.AgreesWith row (lastRow w e) ∧
      ∀ x ∈ w.mirror.intents.get e.id, x.Finite
  | .receipt => Says receiptCodec Eq row (lastRow w e) ∧
      ∀ r ∈ w.mirror.receipts.get e.id, r.Finite
  | .meta' => Says Codec.str Eq row (lastRow w e)

instance {α : Type} [DecidableEq α] (c : Codec α) (agrees : α → α → Prop)
    [DecidableRel agrees] (row : JsValue) (last : Option JsValue) :
    Decidable (Says c agrees row last) := by
  unfold Says
  infer_instance

instance (y x : StoredIntent) : Decidable (y.AgreesWith x) :=
  decidable_of_iff (y.status = x.status ∧ y.reasons = x.reasons ∧
      (y.settledAt = none ∨ y.settledAt = x.settledAt) ∧
      (y.receiptId = none ∨ y.receiptId = x.receiptId) ∧
      (y.refundedMinor = none ∨ y.refundedMinor = x.refundedMinor))
    ⟨fun ⟨h₁, h₂, h₃, h₄, h₅⟩ => ⟨h₁, h₂, h₃, h₄, h₅⟩,
      fun h => ⟨h.status, h.reasons, h.settledAt, h.receiptId, h.refundedMinor⟩⟩

instance (w : NotifyingSession) (e : Entity) (row : JsValue) :
    Decidable (RowIsCurrent w e row) :=
  match e with
  | ⟨.mandate, id⟩ => inferInstanceAs (Decidable (_ ∧ ∀ m ∈ w.mirror.mandates.get id, _ ∧ _))
  | ⟨.intent, id⟩ => inferInstanceAs
      (Decidable (_ ∧ ∀ x ∈ w.mirror.intents.get id, _ ∧ ∀ y ∈ x.refundedMinor, _))
  | ⟨.receipt, id⟩ => inferInstanceAs
      (Decidable (_ ∧ ∀ r ∈ w.mirror.receipts.get id, IsFinite r.amount))
  | ⟨.meta', _⟩ => inferInstanceAs (Decidable (Says _ _ _ _))

/-- The row that a reload has read, if it has read one, is current. -/
def ReloadIsCurrent (w : NotifyingSession) : Option Reload → Prop
  | some (.read e (some row)) => RowIsCurrent w e row
  | _ => True

instance (w : NotifyingSession) (reload : Option Reload) : Decidable (ReloadIsCurrent w reload) :=
  match reload with
  | some (.read e (some row)) => inferInstanceAs (Decidable (RowIsCurrent w e row))
  | none | some (.asked _) | some (.read _ none) => inferInstanceAs (Decidable True)

/-- A reload updates the mirror only with a row that is current. -/
def rowsAreCurrent : Guard NotifyingSession NotifyAction (Except String Answer) := fun _ w a =>
  match a with
  | .update i => ReloadIsCurrent w w.reloads[i]?
  | _ => True

instance (steps : List (Step NotifyingSession NotifyAction (Except String Answer)))
    (w : NotifyingSession) (a : NotifyAction) : Decidable (rowsAreCurrent steps w a) :=
  match a with
  | .update i => inferInstanceAs (Decidable (ReloadIsCurrent w w.reloads[i]?))
  | .call _ | .query _ | .deliver _ | .read _ => inferInstanceAs (Decidable True)

theorem eq_of_says {α : Type} {c : Codec α} {agrees : α → α → Prop} {row : JsValue}
    {record : Option α} (hfinite : ∀ x ∈ record, (c.encode x).Stable)
    (h : Says c agrees row (jsonb (record.map c.encode)).toOption) :
    ∃ y x, c.decode row = some y ∧ record = some x ∧ agrees y x := by
  obtain ⟨y, hy, x, hx, hagrees⟩ := h
  refine ⟨y, x, hy, ?_, hagrees⟩
  cases record with
  | none => cases hx
  | some x' =>
      rw [Option.map_some, jsonb_stable (hfinite x' rfl)] at hx
      have hdecode : c.decode (c.encode x') = some x := hx
      rw [c.decode_encode] at hdecode
      exact hdecode

theorem reloadedIntent_apply {y x : StoredIntent} (h : y.AgreesWith x) :
    (reloadedIntent y).apply x = x := by
  have hor : ∀ {α : Type} {a b : Option α}, a = none ∨ a = b → a.or b = b := by
    rintro α a b (rfl | rfl)
    · rfl
    · exact Option.or_self
  simp only [reloadedIntent, IntentUpdate.apply, Option.getD_some, h.status, h.reasons,
    hor h.settledAt, hor h.receiptId, hor h.refundedMinor]

/-- **A current row changes nothing.** -/
theorem applyRow_current {w : NotifyingSession} (h : InStep w) {e : Entity} {row : JsValue}
    {b : Books} (hmem : e ∈ mentioned w) (hcurrent : RowIsCurrent w e row)
    (happly : applyRow w.mirror e row = .ok b) : b = w.mirror := by
  have hlast : lastRow w e = recordRow w.mirror e := by
    refine h.rows e ?_
    by_cases hown : e = operatorEntity
    · exact Or.inr (hown ▸ h.own (hown ▸ hmem))
    · exact Or.inl hown
  obtain ⟨kind, id⟩ := e
  unfold RowIsCurrent at hcurrent
  rw [hlast] at hcurrent
  cases kind with
  | mandate =>
      obtain ⟨hread, hfinite⟩ := hcurrent
      obtain ⟨y, x, hy, hx, rfl⟩ := eq_of_says (fun m hm => stable_mandate (hfinite m hm)) hread
      have hkey : y.id = id := Table.key_of_get hx
      simp only [applyRow, hy, memoryStore, hx, Option.isSome_some, if_true,
        Books.updateMandate, Table.modify] at happly
      cases happly
      have hput : w.mirror.mandates.put y = w.mirror.mandates :=
        Table.put_of_get (by rw [hkey]; exact hx)
      exact congrArg (fun ms => { w.mirror with mandates := ms }) hput
  | intent =>
      obtain ⟨hread, hfinite⟩ := hcurrent
      obtain ⟨y, x, hy, hx, hagrees⟩ :=
        eq_of_says (fun x hx => stable_storedIntent (hfinite x hx)) hread
      have hkey : x.id = id := Table.key_of_get hx
      simp only [applyRow, hy, memoryStore, hx, Option.isSome_some, if_true,
        Books.updateIntent, reloadedIntent_apply hagrees] at happly
      cases happly
      have hput : w.mirror.intents.put x = w.mirror.intents :=
        Table.put_of_get (by rw [hkey]; exact hx)
      exact congrArg (fun xs => { w.mirror with intents := xs }) hput
  | receipt =>
      obtain ⟨hread, hfinite⟩ := hcurrent
      obtain ⟨y, x, hy, hx, rfl⟩ := eq_of_says (fun r hr => stable_receipt (hfinite r hr)) hread
      have hkey : y.id = id := Table.key_of_get hx
      simp only [applyRow, hy, memoryStore, Books.insertReceipt] at happly
      cases happly
      have hput : w.mirror.receipts.put y = w.mirror.receipts :=
        Table.put_of_get (by rw [hkey]; exact hx)
      exact congrArg (fun rs => { w.mirror with receipts := rs }) hput
  | meta' =>
      obtain ⟨y, hy, x, hx, rfl⟩ := hcurrent
      simp only [applyRow, show Codec.str.decode row = some y from hy] at happly
      cases happly
      have hget : w.mirror.meta'.get id = some y := by
        cases hm : w.mirror.meta'.get id with
        | none => simp [recordRow, hm] at hx
        | some v => simpa [recordRow, hm] using hx
      exact congrArg (fun m => { w.mirror with meta' := m }) (JsMap.set_of_get hget)

theorem inStep_update {w w' : NotifyingSession} (h : InStep w) {i : Nat}
    {steps : List (Step NotifyingSession NotifyAction (Except String Answer))}
    {es : List (Except String Answer)} (hguard : rowsAreCurrent steps w (.update i))
    (htaken : notifying.step w (.update i) = some (w', es)) :
    InStep w' ∧ w'.mirror = w.mirror ∧ es = [] := by
  simp only [notifying] at htaken
  simp only [rowsAreCurrent] at hguard
  split at htaken
  · next e row hget =>
      have hread : Reload.read e row ∈ w.reloads := List.mem_of_getElem? hget
      have hdropped : InStep { w with reloads := w.reloads.eraseIdx i } := by
        refine h.same rfl (fun e => rfl) ?_
        intro e' he
        rcases mem_mentioned.1 he with hqueue | hnotice | ⟨reload, hreload, hentity⟩
        · exact mem_mentioned.2 (Or.inl hqueue)
        · exact mem_mentioned.2 (Or.inr (Or.inl hnotice))
        · exact mem_mentioned.2
            (Or.inr (Or.inr ⟨reload, List.mem_of_mem_eraseIdx hreload, hentity⟩))
      cases row with
      | none =>
          cases htaken
          exact ⟨hdropped, rfl, rfl⟩
      | some row =>
          rw [hget] at hguard
          cases happly : applyRow w.mirror e row with
          | error error =>
              simp only [Option.map_some, happly] at htaken
              cases htaken
              exact ⟨hdropped, rfl, rfl⟩
          | ok mirror =>
              simp only [Option.map_some, happly] at htaken
              cases htaken
              have hmem : e ∈ mentioned w := mem_mentioned.2 (Or.inr (Or.inr ⟨_, hread, rfl⟩))
              obtain rfl := applyRow_current h hmem hguard happly
              exact ⟨hdropped, rfl, rfl⟩
  · cases htaken

/-! ## Runs -/

/-- The calls of a run, in order. -/
def callsOf (steps : List (Step NotifyingSession NotifyAction (Except String Answer))) :
    List StoreCall :=
  steps.filterMap fun t =>
    match t.action with
    | .call c => some c
    | _ => none

/-- What calls return or throw, one after another, and the store they leave. -/
def callAll {σ : Type} (S : Store σ) (s : σ) : List StoreCall → List (Except String Answer) × σ
  | [] => ([], s)
  | c :: cs =>
      let r := S.call s c
      let rest := callAll S r.2 cs
      (r.1 :: rest.1, rest.2)

theorem callAll_snoc {σ : Type} (S : Store σ) (s : σ) (cs : List StoreCall) (c : StoreCall) :
    callAll S s (cs ++ [c]) =
      ((callAll S s cs).1 ++ [(S.call (callAll S s cs).2 c).1],
        (S.call (callAll S s cs).2 c).2) := by
  induction cs generalizing s with
  | nil => rfl
  | cons c' cs ih => simp only [List.cons_append, callAll, ih]

/-- **Self-notifications are harmless while the rows are current.**  The calls of
a run, reads included, return what the in-memory store returns to the same
calls. -/
theorem self_notifications_harmless {w₀ w : NotifyingSession} (hready : Ready w₀)
    {steps : List (Step NotifyingSession NotifyAction (Except String Answer))}
    (hrun : notifying.Run rowsAreCurrent w₀ steps w) :
    events steps = (callAll memoryStore w₀.mirror (callsOf steps)).1 ∧
      w.mirror = (callAll memoryStore w₀.mirror (callsOf steps)).2 := by
  have hinv := hrun.invariant (fun steps w => InStep w ∧
    events steps = (callAll memoryStore w₀.mirror (callsOf steps)).1 ∧
      w.mirror = (callAll memoryStore w₀.mirror (callsOf steps)).2)
    ⟨hready.inStep, rfl, rfl⟩ ?_
  · exact hinv.2
  rintro steps w a w' es ⟨h, hevents, hmirror⟩ hguard htaken
  have hquiet : InStep w' ∧ w'.mirror = w.mirror ∧ es = [] → callsOf [⟨w, a, es, w'⟩] = [] →
      InStep w' ∧ events (steps ++ [⟨w, a, es, w'⟩]) =
        (callAll memoryStore w₀.mirror (callsOf (steps ++ [⟨w, a, es, w'⟩]))).1 ∧
        w'.mirror =
          (callAll memoryStore w₀.mirror (callsOf (steps ++ [⟨w, a, es, w'⟩]))).2 := by
    rintro ⟨hstep, hsame, rfl⟩ hcalls
    have hcallsOf : callsOf (steps ++ [⟨w, a, [], w'⟩]) = callsOf steps := by
      rw [callsOf, List.filterMap_append]
      exact (congrArg (callsOf steps ++ ·) hcalls).trans (List.append_nil _)
    rw [hcallsOf, events_snoc, List.append_nil]
    exact ⟨hstep, hevents, hsame.trans hmirror⟩
  cases a with
  | call c =>
      cases htaken
      have hcallsOf : ∀ es w', callsOf (steps ++ [⟨w, .call c, es, w'⟩]) = callsOf steps ++ [c] :=
        fun es w' => List.filterMap_append
      obtain ⟨hanswer, hleft⟩ := call_memory
        { operatorKey := w.operatorKey, mirror := w.mirror, queue := [] } c
      refine ⟨inStep_call h c, ?_, ?_⟩
      · rw [events_snoc, hcallsOf, callAll_snoc, hevents, ← hmirror]
        exact congrArg (fun r => _ ++ [r]) hanswer
      · rw [hcallsOf, callAll_snoc, ← hmirror]
        exact hleft
  | query answered => exact hquiet (inStep_query h htaken) rfl
  | deliver i => exact hquiet (inStep_deliver h htaken) rfl
  | read i => exact hquiet (inStep_read h htaken) rfl
  | update i => exact hquiet (inStep_update h hguard htaken) rfl

namespace Sample

/-- A store made ready on a database that was empty. -/
def notifyingStart : NotifyingSession where
  tables := (freshSession "key").tables
  operatorKey := "key"
  mirror := Books.empty
  queue := []

theorem ready_notifyingStart : Ready notifyingStart :=
  ready_of_mirrors (mirrors_freshSession (by decide)) (fun _ _ h => nomatch h)
    fun _ _ h => nomatch h

/-- A payment that awaits the operator. -/
def awaiting : StoredIntent where
  intent :=
    { id := "i"
      payee := "acme"
      payeeClass := "saas"
      amount := 40
      currency := "USD"
      rail := .card
      rationale := "seats"
      createdAt := "2026-03-01" }
  status := .pending
  mandateId := none
  reasons := []
  settledAt := none
  receiptId := none
  refundedMinor := none

def files : NotifyAction := .call (.insertIntent awaiting)

def settlesIntent : NotifyAction :=
  .call (.updateIntent "i"
    { status := some .settled, settledAt := some "2026-03-05" })

def statusOf (b : Books) : Option IntentStatus := (b.intents.get "i").map StoredIntent.status

end Sample

open Sample in
/-- The kill switch is engaged, and its announcement comes back. -/
theorem self_notification_after_drain : ∃ steps w,
    notifying.Run rowsAreCurrent notifyingStart steps w ∧
      events steps = (callAll memoryStore Books.empty (callsOf steps)).1 ∧
      w.mirror.meta'.get "kill_switch" = some "1" ∧ w.reloads = [] := by
  obtain ⟨steps, w, hrun, hleft⟩ := System.exists_run notifying rowsAreCurrent notifyingStart
    [.call (.setMeta "kill_switch" "1"), .query true, .query true, .deliver 0, .read 0, .update 0]
    (fun _ w => decide (w.mirror.meta'.get "kill_switch" = some "1") && w.reloads.isEmpty)
    (by decide +kernel)
  obtain ⟨hmeta, hreloads⟩ := Bool.and_eq_true_iff.1 hleft
  exact ⟨steps, w, hrun, (self_notifications_harmless ready_notifyingStart hrun).1,
    of_decide_eq_true hmeta, List.isEmpty_iff.1 hreloads⟩

open Sample in
/-- The row of a pending payment is read, the payment settles, and the reload
makes it pending again. -/
theorem stale_reload_unsettles : ∃ steps w,
    notifying.Run anyStep notifyingStart steps w ∧
      statusOf (callAll memoryStore notifyingStart.mirror (callsOf steps)).2 = some .settled ∧
      statusOf w.mirror = some .pending := by
  obtain ⟨steps, w, hrun, hstatus⟩ := System.exists_run notifying anyStep notifyingStart
    [files, .query true, .query true, .deliver 0, .read 0, settlesIntent, .update 0]
    (fun steps w => decide
      (statusOf (callAll memoryStore notifyingStart.mirror (callsOf steps)).2 = some .settled ∧
        statusOf w.mirror = some .pending)) (by decide +kernel)
  exact ⟨steps, w, hrun, of_decide_eq_true hstatus⟩

end AgentWorth
