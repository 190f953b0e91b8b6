import AgentWorth.Lib.Runs
import AgentWorth.Store.Calls
import AgentWorth.Store.Postgres

/-!
# Reopening a Postgres store

A store writes to its mirror at once and to the database later.  The tables that
draining its queue leaves hold what the mirror holds, so a store opened on them
answers as the first one does, except for the order of lists.
-/

namespace AgentWorth

open AgentWorth.Js AgentWorth.Js.Json AgentWorth.Lib

namespace Postgres

/-! ## Statements -/

theorem drain_append (t : Tables) (ws ws' : List Write) :
    drain t (ws ++ ws') = (drain t ws).bind fun t => drain t ws' := by
  induction ws generalizing t with
  | nil => rfl
  | cons w ws ih =>
      rw [List.cons_append, drain, drain]
      cases execute t w with
      | error e => rfl
      | ok t' => exact ih t'

theorem jsonb_eq {v : JsValue} (hkept : isDropped v = false) (hv : v.WellFormed) :
    jsonb (some v) = .ok v.persisted := by
  have htext : stringify 0 v = some (String.ofList (render (List.replicate 0 ' ') [] v)) := by
    unfold stringify
    rw [hkept]
    rfl
  have hparse := parse_stringify hv htext
  simp only [jsonb, Option.bind_some, htext, hparse]

theorem jsonb_stable {v : JsValue} (h : v.Stable) : jsonb (some v) = .ok v := by
  rw [jsonb_eq h.kept h.wellFormed, h.persisted_eq]

/-- A value of type `INTEGER`. -/
def IsInt32 (x : JsNumber) : Prop := ∃ n : Int, x = n ∧ -2147483648 ≤ n ∧ n ≤ 2147483647

theorem IsInt32.isFinite {x : JsNumber} (h : IsInt32 x) : IsFinite x := by
  obtain ⟨n, rfl, -⟩ := h
  exact isFinite_intCast n

theorem intCast_lt_intCast {m n : Int} : (m : JsNumber) < n ↔ m < n := by
  show JsNumber.fin (m : ℚ) < .fin (n : ℚ) ↔ m < n
  rw [JsNumber.fin_lt_fin, Int.cast_lt]

theorem bindInteger_eq_ok_iff {x : JsNumber} : bindInteger x = .ok () ↔ IsInt32 x := by
  unfold bindInteger IsInt32
  by_cases hint : x.isInteger = true
  · obtain ⟨n, hn⟩ := JsNumber.isInteger_iff.1 hint
    obtain rfl : x = (n : JsNumber) := hn
    rw [if_neg (by simp [hint])]
    simp only [intCast_lt_intCast]
    by_cases hrange : n < -2147483648 ∨ 2147483647 < n
    · rw [if_pos hrange]
      constructor
      · intro h
        cases h
      · rintro ⟨m, hm, hlo, hhi⟩
        have heq : (n : ℚ) = m := JsNumber.fin.inj hm
        rw [Int.cast_inj] at heq
        omega
    · rw [if_neg hrange]
      exact ⟨fun _ => ⟨n, rfl, by omega, by omega⟩, fun _ => rfl⟩
  · rw [if_pos (by simpa using hint)]
    constructor
    · intro h
      cases h
    · rintro ⟨n, rfl, -⟩
      exact absurd (JsNumber.isInteger_iff.2 ⟨n, rfl⟩) hint

theorem insertBySeq_of_forall_lt {row : JsNumber × JsValue} {rows : List (JsNumber × JsValue)}
    (h : ∀ r ∈ rows, r.1 < row.1) : insertBySeq row rows = rows ++ [row] := by
  induction rows with
  | nil => rfl
  | cons r rows ih =>
      have hr := JsNumber.not_lt_of_lt (h r (List.mem_cons_self ..))
      rw [insertBySeq, if_neg hr, ih fun r' hr' => h r' (List.mem_cons_of_mem _ hr')]
      rfl

theorem lookup_insertBySeq_self {seq : JsNumber} {data : JsValue}
    {rows : List (JsNumber × JsValue)} (h : rows.lookup seq = none) :
    (insertBySeq (seq, data) rows).lookup seq = some data := by
  induction rows with
  | nil => simp [insertBySeq]
  | cons r rows ih =>
      rw [List.lookup_cons] at h
      split at h
      · cases h
      · next hne =>
          unfold insertBySeq
          split
          · rw [List.lookup_cons_self]
          · rw [List.lookup_cons, hne]
            exact ih h

theorem upsert_twice {rows rows' : JsMap JsValue} {id : String} {data : Option JsValue}
    (h : upsert rows id data = .ok rows') : upsert rows' id data = .ok rows' := by
  unfold upsert at h ⊢
  cases hdata : jsonb data with
  | error e =>
      rw [hdata] at h
      cases h
  | ok v =>
      rw [hdata] at h
      obtain rfl : rows.set id v = rows' := Except.ok.inj h
      exact congrArg Except.ok (JsMap.set_set rows id v)

theorem appendAuditRow_twice {rows rows' : List (JsNumber × JsValue)} {e : AuditEntry}
    (h : appendAuditRow rows e = .ok rows') : appendAuditRow rows' e = .ok rows' := by
  obtain ⟨data, hdata, h⟩ := except_bind_eq_ok.1 h
  obtain ⟨_, hseq, h⟩ := except_bind_eq_ok.1 h
  unfold appendAuditRow
  rw [hdata, hseq]
  dsimp only [Except.bind]
  cases hlookup : rows.lookup e.seq with
  | none =>
      rw [hlookup] at h
      obtain rfl : insertBySeq (e.seq, data) rows = rows' := Except.ok.inj h
      rw [lookup_insertBySeq_self hlookup]
      exact if_pos rfl
  | some durable =>
      rw [hlookup] at h
      dsimp only at h
      split at h
      · next hsame =>
          obtain rfl : rows = rows' := Except.ok.inj h
          rw [hlookup]
          exact if_pos hsame
      · cases h

/-- A write that is made again, because its answer was lost, changes nothing. -/
theorem execute_twice {t t' : Tables} {w : Write} (h : execute t w = .ok t') :
    execute t' w = .ok t' := by
  cases w with
  | meta' k v =>
      obtain rfl : { t with meta' := t.meta'.set k v } = t' := Except.ok.inj h
      simp only [execute, JsMap.set_set]
  | mandate id data =>
      obtain ⟨rows, hrows, rfl⟩ := except_map_eq_ok.1 h
      simp only [execute, upsert_twice hrows]
      rfl
  | intent id data =>
      obtain ⟨rows, hrows, rfl⟩ := except_map_eq_ok.1 h
      simp only [execute, upsert_twice hrows]
      rfl
  | receipt data =>
      obtain ⟨rows, hrows, rfl⟩ := except_map_eq_ok.1 h
      simp only [execute, upsert_twice hrows]
      rfl
  | audit e =>
      obtain ⟨rows, hrows, rfl⟩ := except_map_eq_ok.1 h
      simp only [execute, appendAuditRow_twice hrows]
      rfl

/-! ## Tables that hold the mirror -/

/-- A table of JSON columns holds the records of a map. -/
def Encodes {α : Type} {key : α → String} (c : Codec α) (rows : JsMap JsValue)
    (records : Table key) : Prop :=
  ∀ id, rows.get id = (records.get id).map c.encode

/-- Upserting a record JSON keeps keeps the table in step. -/
theorem Encodes.put {α : Type} {key : α → String} {c : Codec α} {rows : JsMap JsValue}
    {records : Table key} (h : Encodes c rows records) {x : α} (hx : (c.encode x).Stable) :
    ∃ rows', upsert rows (key x) (some (c.encode x)) = .ok rows' ∧
      Encodes c rows' (records.put x) := by
  refine ⟨rows.set (key x) (c.encode x), ?_, ?_⟩
  · unfold upsert
    rw [jsonb_stable hx]
    rfl
  · intro id
    rw [JsMap.get_set, Table.get_put]
    split
    · rfl
    · exact h id

/-- The row of an audit entry. -/
def auditRecord (e : AuditEntry) : JsNumber × JsValue :=
  (e.seq, (entryCodec.encode e).persisted)

/-- The tables of a database whose writes were all made. -/
structure Mirrors (t : Tables) (key : String) (b : Books) : Prop where
  operatorKey : t.meta'.get operatorKeyRow = some key
  operatorKey_ne : key ≠ ""
  reserved : b.meta'.get operatorKeyRow = none
  meta' : ∀ k, k ≠ operatorKeyRow → t.meta'.get k = b.meta'.get k
  mandates : Encodes mandateCodec t.mandates b.mandates
  intents : Encodes storedIntentCodec t.intents b.intents
  receipts : Encodes receiptCodec t.receipts b.receipts
  audit : t.audit = b.audit.map auditRecord
  finite : ∀ id m, b.mandates.get id = some m → m.Finite
  readable : ∀ e ∈ b.audit, e.payload.WellFormed ∧ IsFinite e.seq

section Writes

variable {t : Tables} {key : String} {b : Books}

theorem Mirrors.setMeta (h : Mirrors t key b) {k v : String} (hk : k ≠ operatorKeyRow) :
    ∃ t', execute t (.meta' k v) = .ok t' ∧ Mirrors t' key (b.setMeta k v) := by
  refine ⟨_, rfl, { h with operatorKey := ?_, reserved := ?_, meta' := ?_ }⟩
  · rw [JsMap.get_set, if_neg hk.symm, h.operatorKey]
  · simp only [Books.setMeta, JsMap.get_set, if_neg hk.symm, h.reserved]
  · intro k' hk'
    simp only [Books.setMeta, JsMap.get_set]
    split
    · rfl
    · exact h.meta' k' hk'

theorem Mirrors.putMandate (h : Mirrors t key b) {m : Mandate} (hm : m.Finite) :
    ∃ t', execute t (.mandate m.id (some m)) = .ok t' ∧
      Mirrors t' key { b with mandates := b.mandates.put m } := by
  obtain ⟨rows, hrows, hencodes⟩ := h.mandates.put (stable_mandate hm)
  refine ⟨{ t with mandates := rows }, ?_, { h with mandates := hencodes, finite := ?_ }⟩
  · simp only [execute, Option.map_some, hrows]
    rfl
  · intro id m' hm'
    rw [Table.get_put] at hm'
    split at hm'
    · cases hm'
      exact hm
    · exact h.finite id m' hm'

theorem Mirrors.putIntent (h : Mirrors t key b) {x : StoredIntent} (hx : x.Finite) :
    ∃ t', execute t (.intent x.id (some x)) = .ok t' ∧
      Mirrors t' key { b with intents := b.intents.put x } := by
  obtain ⟨rows, hrows, hencodes⟩ := h.intents.put (stable_storedIntent hx)
  refine ⟨{ t with intents := rows }, ?_, { h with intents := hencodes }⟩
  simp only [execute, Option.map_some, hrows]
  rfl

theorem Mirrors.putReceipt (h : Mirrors t key b) {r : Receipt} (hr : r.Finite) :
    ∃ t', execute t (.receipt r) = .ok t' ∧ Mirrors t' key (b.insertReceipt r) := by
  obtain ⟨rows, hrows, hencodes⟩ := h.receipts.put (stable_receipt hr)
  refine ⟨{ t with receipts := rows }, ?_, { h with receipts := hencodes }⟩
  simp only [execute, hrows]
  rfl

theorem Mirrors.appendAudit (h : Mirrors t key b) {e : AuditEntry}
    (hpayload : e.payload.WellFormed) (hseq : IsInt32 e.seq)
    (hnew : ∀ r ∈ b.audit, r.seq < e.seq) :
    ∃ t', execute t (.audit e) = .ok t' ∧ Mirrors t' key (b.appendAudit e) := by
  have hlt : ∀ r ∈ t.audit, r.1 < e.seq := by
    intro r hr
    rw [h.audit] at hr
    obtain ⟨e', he', rfl⟩ := List.mem_map.1 hr
    exact hnew e' he'
  have hlookup : t.audit.lookup e.seq = none := by
    rw [List.lookup_eq_none_iff]
    intro r hr
    rw [bne_iff_ne]
    exact (JsNumber.ne_of_lt (hlt r hr)).symm
  have hdata : jsonb (some (entryCodec.encode e)) = .ok (entryCodec.encode e).persisted :=
    jsonb_eq rfl (wellFormed_entry hpayload)
  refine ⟨{ t with audit := t.audit ++ [auditRecord e] }, ?_,
    { h with audit := ?_, readable := ?_ }⟩
  · have hinsert : insertBySeq (auditRecord e) t.audit = t.audit ++ [auditRecord e] :=
      insertBySeq_of_forall_lt hlt
    simp only [execute, appendAuditRow, hdata, bindInteger_eq_ok_iff.2 hseq, Except.bind, hlookup,
      ← hinsert]
    rfl
  · simp only [Books.appendAudit, List.map_append, List.map_cons, List.map_nil, h.audit]
  · intro e' he'
    rcases List.mem_append.1 he' with hold | hnew'
    · exact h.readable e' hold
    · rw [List.mem_singleton.1 hnew']
      exact ⟨hpayload, hseq.isFinite⟩

end Writes

/-! ## Calls -/

/-- The arguments a database can take from a call.  Numbers must be finite,
because JSON has no others; an update of a mandate must name one; the audit rows
are kept in the order of their numbers; and one row of `os_meta` is the store's
own. -/
def Persistable (b : Books) : StoreCall → Prop
  | .setMeta k _ => k ≠ operatorKeyRow
  | .insertMandate m => b.mandates.get m.id = none → m.Finite
  | .revokeMandate id => (b.mandates.get id).isSome
  | .updateMandate id patch => ∃ m, b.mandates.get id = some m ∧ (patch.apply m).Finite
  | .insertIntent x => b.intents.get x.id = none → x.Finite
  | .updateIntent id update => ∀ x, b.intents.get id = some x → (update.apply x).Finite
  | .insertReceipt r => r.Finite
  | .appendAudit e =>
      e.payload.WellFormed ∧ IsInt32 e.seq ∧ ∀ r ∈ b.audit, r.seq < e.seq
  | _ => True

theorem persistMandate_put (s : PostgresStore) (b : Books) (m : Mandate) :
    persistMandate s { b with mandates := b.mandates.put m } m.id =
      enqueue s { b with mandates := b.mandates.put m } (.mandate m.id (some m)) := by
  simp only [persistMandate, Table.get_put_self]

theorem persistIntent_put (s : PostgresStore) (b : Books) (x : StoredIntent) :
    persistIntent s { b with intents := b.intents.put x } x.id =
      enqueue s { b with intents := b.intents.put x } (.intent x.id (some x)) := by
  simp only [persistIntent, Table.get_put_self]

/-- **A call enqueues what it does to the mirror.** -/
theorem Mirrors.call {t : Tables} {s : PostgresStore} (h : Mirrors t s.operatorKey s.mirror)
    {c : StoreCall} (hc : Persistable s.mirror c) :
    ∃ ws t', (postgresStore.call s c).2.queue = s.queue ++ ws ∧ drain t ws = .ok t' ∧
      (postgresStore.call s c).2.operatorKey = s.operatorKey ∧
      Mirrors t' s.operatorKey (postgresStore.call s c).2.mirror := by
  -- a read, or a write that throws
  have hsame : ∀ {s'}, s' = s → ∃ ws t', s'.queue = s.queue ++ ws ∧ drain t ws = .ok t' ∧
      s'.operatorKey = s.operatorKey ∧ Mirrors t' s.operatorKey s'.mirror := by
    rintro s' rfl
    exact ⟨[], t, by rw [List.append_nil], rfl, rfl, h⟩
  -- a write that enqueues one statement
  have hone : ∀ {s' w b t'}, s' = enqueue s b w →
      execute t w = .ok t' ∧ Mirrors t' s.operatorKey b →
        ∃ ws t', s'.queue = s.queue ++ ws ∧ drain t ws = .ok t' ∧
          s'.operatorKey = s.operatorKey ∧ Mirrors t' s.operatorKey s'.mirror := by
    rintro s' w b t' rfl ⟨hexec, hmirrors⟩
    refine ⟨[w], t', rfl, ?_, rfl, hmirrors⟩
    rw [drain, hexec]
    rfl
  cases c with
  | setMeta k v =>
      obtain ⟨t', ht'⟩ := h.setMeta (v := v) hc
      exact hone rfl ht'
  | insertMandate m =>
      cases hget : s.mirror.mandates.get m.id with
      | some m' =>
          refine hsame ?_
          simp [Store.call, postgresStore, memoryStore, Books.insertMandate, hget, Except.map,
            wrote]
      | none =>
          obtain ⟨t', ht'⟩ := h.putMandate (hc hget)
          refine hone ?_ ht'
          rw [← persistMandate_put]
          simp [Store.call, postgresStore, memoryStore, Books.insertMandate, hget, Except.map,
            wrote]
  | revokeMandate id =>
      obtain ⟨m, hm⟩ := Option.isSome_iff_exists.1 hc
      obtain rfl := Table.key_of_get hm
      obtain ⟨t', ht'⟩ := h.putMandate (m := { m with status := .revoked }) (h.finite m.id m hm)
      refine hone ?_ ht'
      have hmodify : s.mirror.revokeMandate m.id =
          { s.mirror with mandates := s.mirror.mandates.put { m with status := .revoked } } := by
        simp only [Books.revokeMandate, Table.modify, hm]
      have hput := persistMandate_put s s.mirror { m with status := .revoked }
      rw [← hput, ← hmodify]
      rfl
  | updateMandate id patch =>
      obtain ⟨m, hm, hfinite⟩ := hc
      obtain rfl := Table.key_of_get hm
      obtain ⟨t', ht'⟩ := h.putMandate hfinite
      refine hone ?_ ht'
      have hmodify : s.mirror.updateMandate m.id patch =
          { s.mirror with mandates := s.mirror.mandates.put (patch.apply m) } := by
        simp only [Books.updateMandate, Table.modify, hm]
      have hput := persistMandate_put s s.mirror (patch.apply m)
      rw [← hput, ← hmodify]
      rfl
  | insertIntent x =>
      cases hget : s.mirror.intents.get x.id with
      | some x' =>
          refine hsame ?_
          simp [Store.call, postgresStore, memoryStore, Books.insertIntent, hget, Except.map,
            wrote]
      | none =>
          obtain ⟨t', ht'⟩ := h.putIntent (hc hget)
          refine hone ?_ ht'
          rw [← persistIntent_put]
          simp [Store.call, postgresStore, memoryStore, Books.insertIntent, hget, Except.map,
            wrote]
          rfl
  | updateIntent id update =>
      cases hget : s.mirror.intents.get id with
      | none =>
          refine hsame ?_
          simp [Store.call, postgresStore, memoryStore, Books.updateIntent, hget, Except.map,
            wrote]
      | some x =>
          obtain rfl := Table.key_of_get hget
          obtain ⟨t', ht'⟩ := h.putIntent (hc x hget)
          refine hone ?_ ht'
          rw [← persistIntent_put]
          simp [Store.call, postgresStore, memoryStore, Books.updateIntent, hget, Except.map,
            wrote]
  | insertReceipt r =>
      obtain ⟨t', ht'⟩ := h.putReceipt hc
      exact hone rfl ht'
  | appendAudit e =>
      obtain ⟨hpayload, hseq, hnew⟩ := hc
      obtain ⟨t', ht'⟩ := h.appendAudit hpayload hseq hnew
      exact hone rfl ht'
  | _ => exact hsame rfl

/-! ## Rehydration -/

/-- The rows of a table are encoded records, in whatever order. -/
theorem Encodes.exists_records {α : Type} {key : α → String} {c : Codec α}
    {table : JsMap JsValue} {records : Table key} (h : Encodes c table records)
    {rows : List JsValue} (hrows : rows.Perm table.values) :
    ∃ xs : List α, rows = xs.map c.encode ∧ xs.Perm records.values := by
  have hvalues : rows.Perm (records.values.map c.encode) :=
    hrows.trans (JsMap.values_perm_of_get_eq h)
  refine ⟨rows.filterMap c.decode, ?_, ?_⟩
  · have hencoded : ∀ v ∈ rows, ∃ x, c.encode x = v := by
      intro v hv
      obtain ⟨x, -, hx⟩ := List.mem_map.1 (hvalues.mem_iff.1 hv)
      exact ⟨x, hx⟩
    clear hvalues hrows
    induction rows with
    | nil => rfl
    | cons v vs ih =>
        obtain ⟨x, rfl⟩ := hencoded v (List.mem_cons_self ..)
        have hrest := ih fun w hw => hencoded w (List.mem_cons_of_mem _ hw)
        rw [List.filterMap_cons, c.decode_encode, List.map_cons, ← hrest]
  · have hperm := hvalues.filterMap c.decode
    rwa [List.filterMap_map, show c.decode ∘ c.encode = some from funext c.decode_encode,
      List.filterMap_some] at hperm

/-- Records under fresh and distinct keys are inserted one after another.  The
table is `get b`, and `set` replaces it. -/
theorem insertRows_encoded {α : Type} {key : α → String} (c : Codec α)
    (insert : Books → α → Except String Books) (get : Books → Table key)
    (set : Books → Table key → Books)
    (hinsert : ∀ b x, (get b).get (key x) = none → insert b x = .ok (set b ((get b).put x)))
    (hget : ∀ b table, get (set b table) = table)
    (hset : ∀ b table table', set (set b table) table' = set b table')
    (hself : ∀ b, set b (get b) = b) {xs : List α} {b : Books} (hkeys : (xs.map key).Nodup)
    (hfresh : ∀ x ∈ xs, (get b).get (key x) = none) :
    insertRows c insert (xs.map c.encode) b = .ok (set b (xs.foldl Table.put (get b))) := by
  induction xs generalizing b with
  | nil => rw [List.foldl_nil, hself]; rfl
  | cons x xs ih =>
      obtain ⟨hnew, hrest⟩ := List.nodup_cons.1 hkeys
      have hx := hinsert b x (hfresh x (List.mem_cons_self ..))
      have hfresh' : ∀ y ∈ xs, (get (set b ((get b).put x))).get (key y) = none := by
        intro y hy
        rw [hget, Table.get_put_of_ne]
        · exact hfresh y (List.mem_cons_of_mem _ hy)
        · intro heq
          exact hnew (heq ▸ List.mem_map_of_mem hy)
      have hxs := ih hrest hfresh'
      rw [hget, hset] at hxs
      simp only [List.map_cons, insertRows, c.decode_encode, hx, Except.bind]
      exact hxs

theorem insertRows_audit {es : List AuditEntry} {b : Books}
    (h : ∀ e ∈ es, IsFinite e.seq) :
    insertRows entryCodec memoryStore.appendAudit
        (es.map fun e => (entryCodec.encode e).persisted) b =
      .ok { b with audit := b.audit ++ es.map AuditEntry.persisted } := by
  induction es generalizing b with
  | nil => rw [List.map_nil, List.map_nil, List.append_nil]; rfl
  | cons e es ih =>
      have hdecode := decode_persisted_entry (h e (List.mem_cons_self ..))
      have hrest := @ih (b.appendAudit e.persisted) fun e' he' => h e' (List.mem_cons_of_mem _ he')
      simp only [List.map_cons, insertRows, hdecode, memoryStore, Except.bind]
      rw [List.append_cons]
      exact hrest

/-- The map of the rows of `os_meta` but the store's own. -/
def metaOf (rows : List (String × String)) (m : JsMap String) : JsMap String :=
  (rows.filter fun row => row.1 ≠ operatorKeyRow).foldl (fun m row => m.set row.1 row.2) m

theorem insertMeta_eq (rows : List (String × String)) (b : Books) :
    insertMeta rows b = { b with meta' := metaOf rows b.meta' } := by
  induction rows generalizing b with
  | nil => rfl
  | cons row rows ih =>
      have hstep : insertMeta (row :: rows) b =
          insertMeta rows (if row.1 = operatorKeyRow then b else b.setMeta row.1 row.2) := rfl
      rw [hstep, ih]
      by_cases hrow : row.1 = operatorKeyRow
      · simp [metaOf, hrow]
      · simp [metaOf, hrow, Books.setMeta]

/-- The books with the given rows. -/
def booksOf (m : JsMap String) (ms : List Mandate) (xs : List StoredIntent) (rs : List Receipt)
    (es : List AuditEntry) : Books where
  mandates := ms.foldl Table.put Table.empty
  intents := xs.foldl Table.put Table.empty
  receipts := rs.foldl Table.put Table.empty
  meta' := m
  audit := es

/-- Hydrating encoded rows. -/
theorem hydrate_encoded {rows : Rows} {ms : List Mandate} {xs : List StoredIntent}
    {rs : List Receipt} {es : List AuditEntry} (hms : rows.mandates = ms.map mandateCodec.encode)
    (hxs : rows.intents = xs.map storedIntentCodec.encode)
    (hrs : rows.receipts = rs.map receiptCodec.encode)
    (hes : rows.audit = es.map fun e => (entryCodec.encode e).persisted)
    (hmkeys : (ms.map Mandate.id).Nodup) (hxkeys : (xs.map StoredIntent.id).Nodup)
    (hrkeys : (rs.map Receipt.id).Nodup) (hfinite : ∀ e ∈ es, IsFinite e.seq) :
    hydrate rows = .ok
      (booksOf (metaOf rows.meta' .empty) ms xs rs (es.map AuditEntry.persisted)) := by
  have hmandates := insertRows_encoded mandateCodec memoryStore.insertMandate Books.mandates
    (fun b table => { b with mandates := table })
    (fun b m hm => by simp [memoryStore, Books.insertMandate, hm])
    (fun _ _ => rfl) (fun _ _ _ => rfl) (fun _ => rfl)
    (b := booksOf (metaOf rows.meta' .empty) [] [] [] []) hmkeys fun _ _ => rfl
  have hintents := insertRows_encoded storedIntentCodec memoryStore.insertIntent Books.intents
    (fun b table => { b with intents := table })
    (fun b x hx => by simp [memoryStore, Books.insertIntent, hx])
    (fun _ _ => rfl) (fun _ _ _ => rfl) (fun _ => rfl)
    (b := booksOf (metaOf rows.meta' .empty) ms [] [] []) hxkeys fun _ _ => rfl
  have hreceipts := insertRows_encoded receiptCodec memoryStore.insertReceipt Books.receipts
    (fun b table => { b with receipts := table }) (fun _ _ _ => rfl)
    (fun _ _ => rfl) (fun _ _ _ => rfl) (fun _ => rfl)
    (b := booksOf (metaOf rows.meta' .empty) ms xs [] []) hrkeys fun _ _ => rfl
  have hentries := insertRows_audit
    (b := booksOf (metaOf rows.meta' .empty) ms xs rs []) hfinite
  unfold hydrate
  rw [insertMeta_eq, hms, hxs, hrs, hes]
  exact except_bind_eq_ok.2 ⟨_, hmandates, except_bind_eq_ok.2 ⟨_, hintents,
    except_bind_eq_ok.2 ⟨_, hreceipts, hentries⟩⟩⟩

/-- What a store opened on the tables knows of the first one's books. -/
structure Rehydrated (b b' : Books) : Prop where
  meta' : ∀ k, b'.meta'.get k = b.meta'.get k
  mandates : ∀ id, b'.mandates.get id = b.mandates.get id
  intents : ∀ id, b'.intents.get id = b.intents.get id
  receipts : ∀ id, b'.receipts.get id = b.receipts.get id
  audit : b'.audit = b.audit.map AuditEntry.persisted

/-- The rows of a table built from rows with distinct keys. -/
theorem values_ofRows {α : Type} {key : α → String} {xs : List α} (h : (xs.map key).Nodup) :
    (xs.foldl Table.put (Table.empty : Table key)).values = xs := by
  rw [Table.values_foldl_put h fun _ _ => rfl, Table.values_empty, List.nil_append]

section Rows

variable {t : Tables} {key : String} {b : Books} {rows : Rows}

theorem Mirrors.get_meta (h : Mirrors t key b) (hrows : rows.meta'.Perm t.meta'.entries)
    (k : String) : (metaOf rows.meta' .empty).get k = b.meta'.get k := by
  refine JsMap.get_ofEntries_of_mem_iff fun v => ?_
  rw [List.mem_filter, hrows.mem_iff, JsMap.mem_entries_iff, decide_eq_true_iff]
  by_cases hk : k = operatorKeyRow
  · simp [hk, h.reserved]
  · simp [hk, h.meta' k hk]

/-- **Opening a store on the tables** brings the books back; the mandates come
in the order of their rows. -/
theorem Mirrors.hydrate (h : Mirrors t key b) (hrows : rows.Answers t) :
    ∃ b', hydrate rows = .ok b' ∧ Rehydrated b b' ∧
      b'.mandates.values.map mandateCodec.encode = rows.mandates := by
  obtain ⟨ms, hms, hmperm⟩ := h.mandates.exists_records hrows.mandates
  obtain ⟨xs, hxs, hxperm⟩ := h.intents.exists_records hrows.intents
  obtain ⟨rs, hrs, hrperm⟩ := h.receipts.exists_records hrows.receipts
  have haudit : rows.audit = b.audit.map fun e => (entryCodec.encode e).persisted := by
    rw [hrows.audit, h.audit, List.map_map]
    rfl
  have hmkeys : (ms.map Mandate.id).Nodup := (hmperm.map _).nodup_iff.2 b.mandates.nodup_keys
  have hxkeys : (xs.map StoredIntent.id).Nodup :=
    (hxperm.map _).nodup_iff.2 b.intents.nodup_keys
  have hrkeys : (rs.map Receipt.id).Nodup := (hrperm.map _).nodup_iff.2 b.receipts.nodup_keys
  have hmvalues := values_ofRows hmkeys
  have hxvalues := values_ofRows hxkeys
  have hrvalues := values_ofRows hrkeys
  refine ⟨_, hydrate_encoded hms hxs hrs haudit hmkeys hxkeys hrkeys
    fun e he => (h.readable e he).2, ?_, ?_⟩
  · exact {
      meta' := h.get_meta hrows.meta'
      mandates := Table.get_eq_of_perm (by rw [booksOf, hmvalues]; exact hmperm)
      intents := Table.get_eq_of_perm (by rw [booksOf, hxvalues]; exact hxperm)
      receipts := Table.get_eq_of_perm (by rw [booksOf, hrvalues]; exact hrperm)
      audit := rfl }
  · rw [booksOf, hmvalues, hms]

end Rows

theorem memberPersisted_memberPersisted {v : JsValue} (h : v.WellFormed) :
    v.memberPersisted.memberPersisted = v.memberPersisted ∧ v.memberPersisted.WellFormed := by
  unfold JsValue.memberPersisted
  cases hdropped : isDropped v with
  | true => exact ⟨rfl, trivial⟩
  | false =>
      have hstable := JsValue.stable_persisted v h
      simp [hstable.kept, hstable.persisted_eq, hstable.wellFormed]

/-- An entry that was read back has the row it was read from. -/
theorem auditRecord_persisted {e : AuditEntry} (h : e.payload.WellFormed) :
    auditRecord e.persisted = auditRecord e := by
  have hpayload : ∀ rest,
      JsValue.persistedMembers (("payload", e.payload.memberPersisted) :: rest) =
        JsValue.persistedMembers (("payload", e.payload) :: rest) := by
    intro rest
    unfold JsValue.memberPersisted JsValue.persistedMembers
    cases hdropped : isDropped e.payload with
    | true => rfl
    | false =>
        have hstable := JsValue.stable_persisted e.payload h
        simp [hstable.kept, hstable.persisted_eq]
  have hmembers := congrArg (fun members => (e.seq, JsValue.obj
    (("seq", (JsValue.num e.seq).persisted) :: ("ts", .str e.ts) ::
      ("type", typeCodec.encode e.type) :: members)))
    (hpayload (("prevHash", .str e.prevHash) :: ("hash", .str e.hash) :: ("sig", .str e.sig) ::
      Codec.str.optMember "keyVersion" e.keyVersion))
  exact hmembers

/-- The tables hold what the new store knows. -/
theorem Mirrors.rehydrated {t : Tables} {key : String} {b b' : Books} (h : Mirrors t key b)
    (hb' : Rehydrated b b') : Mirrors t key b' where
  operatorKey := h.operatorKey
  operatorKey_ne := h.operatorKey_ne
  reserved := by rw [hb'.meta', h.reserved]
  meta' k hk := by rw [hb'.meta', h.meta' k hk]
  mandates id := by rw [hb'.mandates, h.mandates]
  intents id := by rw [hb'.intents, h.intents]
  receipts id := by rw [hb'.receipts, h.receipts]
  audit := by
    rw [hb'.audit, h.audit, List.map_map]
    refine List.map_congr_left fun e he => ?_
    exact (auditRecord_persisted (h.readable e he).1).symm
  finite id m hm := h.finite id m (by rw [← hb'.mandates, hm])
  readable e' he' := by
    rw [hb'.audit] at he'
    obtain ⟨e, he, rfl⟩ := List.mem_map.1 he'
    exact ⟨(memberPersisted_memberPersisted (h.readable e he).1).2, (h.readable e he).2⟩

/-! ## Answers -/

/-- The same rows in some order, or the same error. -/
def SameRows {α : Type} : Except String (List α) → Except String (List α) → Prop
  | .ok rows, .ok rows' => rows.Perm rows'
  | .error e, .error e' => e = e'
  | _, _ => False

/-- The second store answers every read as the first one does: lists in some
order, and the payload of an audit entry as JSON keeps it. -/
structure SameAnswers (s s' : PostgresStore) : Prop where
  operatorKey : s'.operatorKey = s.operatorKey
  getMeta : ∀ k, postgresStore.getMeta s' k = postgresStore.getMeta s k
  getMandate : ∀ id, postgresStore.getMandate s' id = postgresStore.getMandate s id
  listMandates : (postgresStore.listMandates s').Perm (postgresStore.listMandates s)
  listActiveMandates : ∀ now,
    (postgresStore.listActiveMandates s' now).Perm (postgresStore.listActiveMandates s now)
  getIntent : ∀ id, postgresStore.getIntent s' id = postgresStore.getIntent s id
  listPendingIntents :
    (postgresStore.listPendingIntents s').Perm (postgresStore.listPendingIntents s)
  getReceipt : ∀ id, postgresStore.getReceipt s' id = postgresStore.getReceipt s id
  periodSpend : ∀ id now,
    SameRows (postgresStore.periodSpend s' id now) (postgresStore.periodSpend s id now)
  knownPayees : ∀ p, p ∈ postgresStore.knownPayees s' ↔ p ∈ postgresStore.knownPayees s
  payeeSettledCount : ∀ p,
    postgresStore.payeeSettledCount s' p = postgresStore.payeeSettledCount s p
  loadAudit :
    postgresStore.loadAudit s' = (postgresStore.loadAudit s).map AuditEntry.persisted

theorem sameRows_periodSpend {b b' : Books} (h : Rehydrated b b') (id now : String) :
    SameRows (b'.periodSpend id now) (b.periodSpend id now) := by
  unfold Books.periodSpend
  rw [h.mandates]
  cases b.mandates.get id with
  | none => exact List.Perm.refl _
  | some m =>
      dsimp only
      cases periodStart now m.period with
      | error e => exact rfl
      | ok start => exact ((Table.values_perm h.intents).filter _).map _

theorem mem_knownPayees {b : Books} {p : String} :
    p ∈ memoryStore.knownPayees b ↔ p ∈ b.settledPayees := by
  simp [memoryStore]

theorem Rehydrated.sameAnswers {s s' : PostgresStore} (hkey : s'.operatorKey = s.operatorKey)
    (h : Rehydrated s.mirror s'.mirror) : SameAnswers s s' := by
  have hmandates := Table.values_perm h.mandates
  have hintents := Table.values_perm h.intents
  exact {
    operatorKey := hkey
    getMeta := h.meta'
    getMandate := h.mandates
    listMandates := hmandates
    listActiveMandates := fun now => hmandates.filter _
    getIntent := h.intents
    listPendingIntents := hintents.filter _
    getReceipt := h.receipts
    periodSpend := fun id now => sameRows_periodSpend h id now
    knownPayees := fun p =>
      mem_knownPayees.trans (((hintents.filter _).map _).mem_iff.trans mem_knownPayees.symm)
    payeeSettledCount := fun p => (hintents.filter _).length_eq
    loadAudit := h.audit }

end Postgres

/-! ## Runs -/

open Postgres

/-- A database and the store that writes to it. -/
structure PostgresSession where
  tables : Tables
  store : PostgresStore

inductive SessionAction where
  | call (c : StoreCall)
  /-- the database takes the write at the head of the queue; without its answer
  the write stays there -/
  | query (answered : Bool)
  /-- a new store is opened, once nothing is left to write -/
  | reopen (fresh : String) (rows : Rows)

/-- The events are what the calls return or throw. -/
def postgres : System PostgresSession SessionAction (Except String Answer) where
  step w
    | .call c =>
        let r := postgresStore.call w.store c
        some ({ w with store := r.2 }, [r.1])
    | .query answered =>
        match w.store.queue with
        | [] => none
        | write :: rest =>
            match Postgres.execute w.tables write with
            | .error _ => some (w, [])
            | .ok tables =>
                some (⟨tables, if answered then { w.store with queue := rest } else w.store⟩, [])
    | .reopen fresh rows =>
        if w.store.queue.isEmpty then
          (loadKey fresh w.tables).toOption.bind fun r =>
            (init r.1 rows).toOption.map fun store => (⟨r.2, store⟩, [])
        else none

/-- Stores are opened on the rows of the database. -/
def onItsRows : Guard PostgresSession SessionAction (Except String Answer)
  | _, w, .reopen _ rows => rows.Answers w.tables
  | _, _, _ => True

/-- Besides, calls take what the database can. -/
def persistable : Guard PostgresSession SessionAction (Except String Answer)
  | _, w, .reopen _ rows => rows.Answers w.tables
  | _, w, .call c => Persistable w.store.mirror c
  | _, _, .query _ => True

/-- A store made ready on a database that was empty. -/
def freshSession (key : String) : PostgresSession where
  tables := { Tables.empty with meta' := JsMap.empty.set operatorKeyRow key }
  store := { operatorKey := key, mirror := Books.empty, queue := [] }

theorem init_freshSession {key : String} {rows : Rows}
    (hrows : rows.Answers (freshSession key).tables) :
    loadKey key Tables.empty = .ok (key, (freshSession key).tables) ∧
      init key rows = .ok (freshSession key).store := by
  refine ⟨rfl, ?_⟩
  have hmeta : rows.meta' = [(operatorKeyRow, key)] := List.perm_singleton.1 hrows.meta'
  have hmandates : rows.mandates = [] := List.perm_nil.1 hrows.mandates
  have hintents : rows.intents = [] := List.perm_nil.1 hrows.intents
  have hreceipts : rows.receipts = [] := List.perm_nil.1 hrows.receipts
  have haudit : rows.audit = [] := hrows.audit
  simp only [init, hydrate, hmeta, hmandates, hintents, hreceipts, haudit, insertMeta,
    List.foldl_cons, List.foldl_nil, if_true, insertRows]
  rfl

/-- What is left to write leaves tables that hold the mirror. -/
def Durable (w : PostgresSession) : Prop :=
  ∃ t, drain w.tables w.store.queue = .ok t ∧ Mirrors t w.store.operatorKey w.store.mirror

theorem mirrors_freshSession {key : String} (hkey : key ≠ "") :
    Mirrors (freshSession key).tables key Books.empty := by
  exact {
    operatorKey := rfl
    operatorKey_ne := hkey
    reserved := rfl
    meta' := fun k hk => by
      show (JsMap.empty.set operatorKeyRow key).get k = none
      rw [JsMap.get_set, if_neg hk]
      rfl
    mandates := fun _ => rfl
    intents := fun _ => rfl
    receipts := fun _ => rfl
    audit := rfl
    finite := fun _ _ h => nomatch h
    readable := fun _ h => nomatch h }

theorem durable_freshSession {key : String} (hkey : key ≠ "") : Durable (freshSession key) :=
  ⟨_, rfl, mirrors_freshSession hkey⟩

theorem durable_step {steps : List (Step PostgresSession SessionAction (Except String Answer))}
    {w w' : PostgresSession} {a : SessionAction} {es : List (Except String Answer)}
    (h : Durable w) (hguard : persistable steps w a) (hstep : postgres.step w a = some (w', es)) :
    Durable w' := by
  obtain ⟨t, hdrain, hmirrors⟩ := h
  cases a with
  | call c =>
      obtain ⟨ws, t', hqueue, hws, hkey, hmirrors'⟩ := hmirrors.call hguard
      cases hstep
      refine ⟨t', ?_, ?_⟩
      · rw [hqueue, drain_append, hdrain]
        exact hws
      · rw [hkey]
        exact hmirrors'
  | query answered =>
      simp only [postgres] at hstep
      split at hstep
      · cases hstep
      · next write rest hqueue =>
          rw [hqueue, drain] at hdrain
          obtain ⟨tables, hexec, hrest⟩ := except_bind_eq_ok.1 hdrain
          rw [hexec] at hstep
          cases hstep
          cases answered with
          | true => exact ⟨t, hrest, hmirrors⟩
          | false =>
              refine ⟨t, ?_, hmirrors⟩
              rw [if_neg Bool.false_ne_true, hqueue, drain, execute_twice hexec]
              exact hrest
  | reopen fresh rows =>
      simp only [postgres] at hstep
      split at hstep
      · next hempty =>
          rw [List.isEmpty_iff.1 hempty] at hdrain
          obtain rfl : w.tables = t := Except.ok.inj hdrain
          obtain ⟨b', hb', hrehydrated, -⟩ := hmirrors.hydrate hguard
          have hkey : loadKey fresh w.tables = .ok (w.store.operatorKey, w.tables) := by
            simp only [loadKey, hmirrors.operatorKey, if_neg hmirrors.operatorKey_ne]
          rw [hkey] at hstep
          simp only [Except.toOption, Option.bind_some, init, hb', Except.map,
            Option.map_some] at hstep
          cases hstep
          exact ⟨w.tables, rfl, hmirrors.rehydrated hrehydrated⟩
      · cases hstep

/-- The order in which a new store lists the live mandates is the first one's
exactly when there is no choice. -/
theorem Postgres.Mirrors.listActive_iff {t : Tables} {s : PostgresStore}
    (h : Mirrors t s.operatorKey s.mirror) (now : String) :
    (∀ rows s', rows.Answers t → init s.operatorKey rows = .ok s' →
        postgresStore.listActiveMandates s' now = postgresStore.listActiveMandates s now) ↔
      (postgresStore.listActiveMandates s now).length ≤ 1 := by
  refine Iff.trans ?_ (filter_perm_iff s.mirror.mandates.nodup_values fun m => isLiveMandate m now)
  constructor
  · intro hall ms hms
    have hvalues := JsMap.values_perm_of_get_eq h.mandates
    let rows : Rows := ⟨t.meta'.entries, ms.map mandateCodec.encode, t.intents.values,
      t.receipts.values, t.audit.map Prod.snd⟩
    have hrows : rows.Answers t :=
      ⟨.refl _, (hms.map _).trans hvalues.symm, .refl _, .refl _, rfl⟩
    obtain ⟨b', hb', -, horder⟩ := h.hydrate hrows
    have hsame := hall rows { operatorKey := s.operatorKey, mirror := b', queue := [] } hrows
      (by simp only [init, hb', Except.map])
    have hinjective : Function.Injective mandateCodec.encode := by
      intro m m' hm
      have hdecode := congrArg mandateCodec.decode hm
      rw [mandateCodec.decode_encode, mandateCodec.decode_encode] at hdecode
      exact Option.some.inj hdecode
    rw [← List.map_injective_iff.2 hinjective horder]
    exact hsame
  · intro hall rows s' hrows hs'
    obtain ⟨b', hb', hrehydrated, -⟩ := h.hydrate hrows
    rw [init, hb'] at hs'
    obtain rfl := Except.ok.inj hs'
    exact hall b'.mandates.values (Table.values_perm hrehydrated.mandates)

/-- **Durability round trip.**  While every call takes what the database can,
the queue drains, and a store opened on the tables answers as the first one; it
also lists the live mandates in the first one's order exactly when there is at
most one. -/
theorem postgres_round_trip {key : String} (hkey : key ≠ "")
    {steps : List (Step PostgresSession SessionAction (Except String Answer))}
    {w : PostgresSession} (hrun : postgres.Run persistable (freshSession key) steps w) :
    ∃ t, drain w.tables w.store.queue = .ok t ∧
      (∀ fresh, loadKey fresh t = .ok (w.store.operatorKey, t)) ∧
      (∀ rows, rows.Answers t → ∃ s', init w.store.operatorKey rows = .ok s' ∧
        SameAnswers w.store s') ∧
      ∀ now,
        (∀ rows s', rows.Answers t → init w.store.operatorKey rows = .ok s' →
          postgresStore.listActiveMandates s' now =
            postgresStore.listActiveMandates w.store now) ↔
          (postgresStore.listActiveMandates w.store now).length ≤ 1 := by
  have hdurable : Durable w := hrun.invariant (fun _ => Durable) (durable_freshSession hkey)
    fun _ _ _ _ _ h hg ht => durable_step h hg ht
  obtain ⟨t, hdrain, hmirrors⟩ := hdurable
  refine ⟨t, hdrain, ?_, ?_, hmirrors.listActive_iff⟩
  · intro fresh
    simp only [loadKey, hmirrors.operatorKey, if_neg hmirrors.operatorKey_ne]
  · intro rows hrows
    obtain ⟨b', hb', hrehydrated, -⟩ := hmirrors.hydrate hrows
    exact ⟨⟨w.store.operatorKey, b', []⟩, by simp only [init, hb', Except.map],
      hrehydrated.sameAnswers rfl⟩

namespace Sample

def pantryMandate (id : String) : Mandate where
  id := id
  label := "pantry"
  scope := .class "grocery"
  currency := "USD"
  allowedRails := []
  perTxCap := 50
  perPeriodCap := 200
  period := .month
  grantedAt := "2026-01-01T00:00:00.000Z"
  expiresAt := "2027-01-01T00:00:00.000Z"
  status := .active

theorem finite_pantryMandate (id : String) : (pantryMandate id).Finite :=
  ⟨isFinite_natCast 50, isFinite_natCast 200⟩

/-- A session in which two mandates were granted. -/
theorem two_grants : ∃ steps w,
    postgres.Run persistable (freshSession "key") steps w ∧
      w.store.mirror.mandates.values = [pantryMandate "a", pantryMandate "b"] := by
  have hfirst := System.Run.first postgres persistable (freshSession "key")
    (.call (.insertMandate (pantryMandate "a"))) (fun _ => finite_pantryMandate "a") rfl
  have hsecond := hfirst.step (a := SessionAction.call (.insertMandate (pantryMandate "b")))
    (fun _ => finite_pantryMandate "b") rfl
  exact ⟨_, _, hsecond, by decide +kernel⟩

end Sample

/-- Two grants are kept. -/
theorem two_grants_round_trip : ∃ (w : PostgresSession) (t : Tables),
    w.store.mirror.mandates.values = [Sample.pantryMandate "a", Sample.pantryMandate "b"] ∧
      drain w.tables w.store.queue = .ok t ∧
      ∀ rows, rows.Answers t → ∃ s', init w.store.operatorKey rows = .ok s' ∧
        SameAnswers w.store s' := by
  obtain ⟨steps, w, hrun, hvalues⟩ := Sample.two_grants
  obtain ⟨t, hdrain, -, hsame, -⟩ := postgres_round_trip (by decide) hrun
  exact ⟨w, t, hvalues, hdrain, hsame⟩

/-- Revoking a mandate that does not exist enqueues a write no database takes;
and two live mandates may change their order. -/
theorem unknown_revocation_is_never_written :
    (∃ steps w write, postgres.Run onItsRows (freshSession "key") steps w ∧
      w.store.queue = [write] ∧ ∀ t, (Postgres.execute t write).isOk = false) ∧
    ∃ steps w t rows s' now, postgres.Run persistable (freshSession "key") steps w ∧
      drain w.tables w.store.queue = .ok t ∧ rows.Answers t ∧
      init w.store.operatorKey rows = .ok s' ∧
      postgresStore.listActiveMandates s' now ≠
        postgresStore.listActiveMandates w.store now := by
  constructor
  · have hrun := System.Run.first postgres onItsRows (freshSession "key")
      (.call (.revokeMandate "ghost")) trivial rfl
    exact ⟨_, _, .mandate "ghost" none, hrun, rfl, fun _ => rfl⟩
  · obtain ⟨steps, w, hrun, hvalues⟩ := Sample.two_grants
    obtain ⟨t, hdrain, hmirrors⟩ : Durable w := hrun.invariant (fun _ => Durable)
      (durable_freshSession (by decide)) fun _ _ _ _ _ h hg ht => durable_step h hg ht
    have hlong : ¬ (postgresStore.listActiveMandates w.store
        "2026-06-01T00:00:00.000Z").length ≤ 1 := by
      show ¬ (w.store.mirror.mandates.values.filter fun m =>
        isLiveMandate m "2026-06-01T00:00:00.000Z").length ≤ 1
      rw [hvalues]
      decide +kernel
    have horder := mt (hmirrors.listActive_iff "2026-06-01T00:00:00.000Z").1 hlong
    push Not at horder
    obtain ⟨rows, s', hrows, hs', hne⟩ := horder
    exact ⟨steps, w, t, rows, s', _, hrun, hdrain, hrows, hs', hne⟩

end AgentWorth
