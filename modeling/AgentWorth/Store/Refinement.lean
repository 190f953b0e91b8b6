import AgentWorth.Lib.Runs
import AgentWorth.Store.Calls
import AgentWorth.Store.Postgres
import AgentWorth.Store.Sqlite

/-!
# The SQLite store against the reference

The same calls made to a fresh SQLite store and to a fresh in-memory store, and
the relation between the two that the calls preserve.
-/

namespace AgentWorth

open AgentWorth.Js AgentWorth.Lib

namespace Sqlite

/-! ## Comparisons in statements -/

/-- `WHERE status = 'active' AND expires_at > ?`. -/
def listActiveMandates (b : Books) (now : String) : List Mandate :=
  b.mandates.values.filter fun m => m.status == .active && textLt now m.expiresAt

/-- `WHERE status = 'settled' AND mandate_id = ? AND settled_at >= ?`. -/
def countsFor (mandateId start : String) (s : StoredIntent) : Bool :=
  s.status == .settled && s.mandateId == some mandateId &&
    match s.settledAt with
    | some settledAt => !textLt settledAt start
    | none => false

def periodSpend (b : Books) (mandateId now : String) : Except String (List PriorSpend) :=
  match b.mandates.get mandateId with
  | none => .ok []
  | some m =>
      (periodStart now m.period).map fun start =>
        (b.intents.values.filter (countsFor mandateId start)).map priorSpend

theorem isAscii_periodStart {now start : String} {period : Period}
    (h : periodStart now period = .ok start) : IsAscii start := by
  unfold periodStart at h
  split at h
  · cases h
  · unfold Date.toISOString at h
    split at h
    · cases h
      exact Date.isAscii_toIso _
    · cases h

/-- Text that starts a period is ASCII, so the order of bytes is that of the
language. -/
theorem periodSpend_eq (b : Books) (mandateId now : String) :
    periodSpend b mandateId now = b.periodSpend mandateId now := by
  unfold periodSpend Books.periodSpend
  cases b.mandates.get mandateId with
  | none => rfl
  | some m =>
      dsimp only
      cases hstart : periodStart now m.period with
      | error e => rfl
      | ok start =>
          have hcounts : countsFor mandateId start = AgentWorth.countsFor mandateId start := by
            funext s
            unfold countsFor AgentWorth.countsFor
            cases s.settledAt with
            | none => rfl
            | some settledAt =>
                dsimp only
                rw [textLt_eq_strLt (.inr (isAscii_periodStart hstart))]
          simp only [Except.map, hcounts, Books.spendRows]

end Sqlite

/-- `createSqliteStore` with text compared in statements as SQLite compares it,
by bytes, where `sqliteStore` compares as the language does. -/
def sqliteByBytes : Store Books :=
  { sqliteStore with
    listActiveMandates := Sqlite.listActiveMandates
    periodSpend := Sqlite.periodSpend }

/-- A new SQLite store: its operator key is a row of `meta`. -/
def freshSqlite (operatorKey : String) : Books :=
  { Books.empty with meta' := JsMap.empty.set Postgres.operatorKeyRow operatorKey }

/-! ## Results -/

/-- Results agree: an absent `refundedMinor` is 0, and lists are compared
without their order. -/
def Answer.Same : Answer → Answer → Prop
  | .done, .done => True
  | .text v, .text v' => v = v'
  | .mandate m, .mandate m' => m = m'
  | .mandates ms, .mandates ms' => ms.Perm ms'
  | .intent s, .intent s' => s.map Sqlite.intentRow = s'.map Sqlite.intentRow
  | .intents ss, .intents ss' => (ss.map Sqlite.intentRow).Perm (ss'.map Sqlite.intentRow)
  | .receipt r, .receipt r' => r = r'
  | .spend rows, .spend rows' => rows.Perm rows'
  | .payees ps, .payees ps' => ∀ p, p ∈ ps ↔ p ∈ ps'
  | .count n, .count n' => n = n'
  | .entries es, .entries es' => es.Perm es'
  | _, _ => False

/-- The same result, or both throw. -/
def SameResult : Except String Answer → Except String Answer → Prop
  | .ok a, .ok a' => a.Same a'
  | .error _, .error _ => True
  | _, _ => False

/-! ## Calls that keep the stores together -/

/-- A safe integer. -/
def IsSafeInteger (x : JsNumber) : Prop := ∃ n : Int, x = n ∧ n.natAbs ≤ 9007199254740991

theorem IsSafeInteger.ne_nan {x : JsNumber} (h : IsSafeInteger x) : x ≠ .nan := by
  obtain ⟨n, rfl, -⟩ := h
  exact JsNumber.noConfusion

theorem getD_ne_nan {x : Option JsNumber} (h : ∀ y ∈ x, IsSafeInteger y) : x.getD 0 ≠ .nan := by
  cases x with
  | none => exact JsNumber.noConfusion
  | some y => exact (h y rfl).ne_nan

/-- Calls on mandates, intents, receipts and meta, with safe integers for
amounts. -/
def SafeCall : StoreCall → Prop
  | .insertMandate m => IsSafeInteger m.perTxCap ∧ IsSafeInteger m.perPeriodCap
  | .updateMandate _ patch =>
      (∀ x ∈ patch.perTxCap, IsSafeInteger x) ∧ ∀ x ∈ patch.perPeriodCap, IsSafeInteger x
  | .insertIntent s => IsSafeInteger s.intent.amount ∧ ∀ x ∈ s.refundedMinor, IsSafeInteger x
  | .updateIntent _ update => ∀ x ∈ update.refundedMinor, IsSafeInteger x
  | .insertReceipt r => IsSafeInteger r.amount
  | .appendAudit _ | .loadAudit => False
  | _ => True

/-- Calls that do not meet a difference of the two stores: the schema keeps the
operator key in `meta`, has no column for the issuer of a receipt, and allows
one receipt for an id and for an intent; and SQLite orders text by bytes. -/
def KeepsTogether (m : Books) : StoreCall → Prop
  | .getMeta k => k = Postgres.operatorKeyRow → (m.meta'.get k).isSome
  | .insertReceipt r =>
      m.receipts.get r.id = none ∧ ∀ r' ∈ m.receipts.values, r'.intentId ≠ r.intentId
  | .getReceipt id => ∀ r, m.receipts.get id = some r → r.providerId = none
  | .listActiveMandates now => ∀ x ∈ m.mandates.values, x.status = .active →
      textLt now x.expiresAt = strLt now x.expiresAt
  | _ => True

/-- An ASCII timestamp is compared alike. -/
theorem keepsTogether_of_ascii {m : Books} {now : String} (h : IsAscii now) :
    KeepsTogether m (.listActiveMandates now) :=
  fun _ _ _ => textLt_eq_strLt (.inl h)

/-! ## The relation -/

/-- One table holds the rows of the other. -/
def RowsOf {α : Type} {key : α → String} (row : α → α) (table reference : Table key) : Prop :=
  ∀ id, table.get id = (reference.get id).map row

theorem RowsOf.put {α : Type} {key : α → String} {row : α → α} {table reference : Table key}
    (h : RowsOf row table reference) {v : α} (hkey : key (row v) = key v) :
    RowsOf row (table.put (row v)) (reference.put v) := by
  intro id
  rw [Table.get_put, Table.get_put, hkey]
  split
  · rfl
  · exact h id

theorem RowsOf.values_perm {α : Type} {key : α → String} {row : α → α}
    {table reference : Table key} (h : RowsOf row table reference) :
    table.values.Perm (reference.values.map row) :=
  JsMap.values_perm_of_get_eq h

/-- The books of the SQLite store, against those of the reference. -/
structure Refines (b m : Books) : Prop where
  mandates : b.mandates = m.mandates
  caps : ∀ id x, m.mandates.get id = some x → x.perTxCap ≠ .nan ∧ x.perPeriodCap ≠ .nan
  intents : RowsOf Sqlite.intentRow b.intents m.intents
  receipts : RowsOf Sqlite.receiptRow b.receipts m.receipts
  meta' : ∀ k v, m.meta'.get k = some v → b.meta'.get k = some v
  reserved : ∀ k, k ≠ Postgres.operatorKeyRow → m.meta'.get k = none → b.meta'.get k = none

theorem refines_fresh (operatorKey : String) : Refines (freshSqlite operatorKey) Books.empty where
  mandates := rfl
  caps _ _ h := nomatch h
  intents _ := rfl
  receipts _ := rfl
  meta' _ _ h := nomatch h
  reserved k hk _ := by
    show (JsMap.empty.set Postgres.operatorKeyRow operatorKey).get k = none
    rw [JsMap.get_set, if_neg hk]
    rfl

/-! ## The simulation -/

theorem spend_same {b m : Books} (h : Refines b m) (id now : String) :
    SameResult ((b.periodSpend id now).map .spend) ((m.periodSpend id now).map .spend) := by
  unfold Books.periodSpend
  rw [h.mandates]
  cases m.mandates.get id with
  | none => exact List.Perm.refl _
  | some x =>
      dsimp only
      cases periodStart now x.period with
      | error e => exact trivial
      | ok start =>
          have hperm := (h.intents.values_perm.filter (countsFor id start)).map priorSpend
          rw [List.filter_map, List.map_map] at hperm
          exact hperm

theorem settledPayees_same {b m : Books} (h : Refines b m) (p : String) :
    p ∈ b.settledPayees ↔ p ∈ m.settledPayees := by
  have hperm := (h.intents.values_perm.filter fun s => s.status == .settled).map
    fun s => s.intent.payee
  rw [List.filter_map, List.map_map] at hperm
  exact hperm.mem_iff

theorem count_same {b m : Books} (h : Refines b m) (p : String) :
    b.payeeSettledCount p = m.payeeSettledCount p := by
  have hperm := h.intents.values_perm.filter
    fun s => s.status == .settled && s.intent.payee == p
  rw [List.filter_map] at hperm
  have hlength := hperm.length_eq
  rw [List.length_map] at hlength
  exact hlength

theorem pending_same {b m : Books} (h : Refines b m) :
    (Answer.intents b.listPendingIntents).Same (.intents m.listPendingIntents) := by
  have hperm := h.intents.values_perm.filter fun s => s.status == .pending
  rw [List.filter_map] at hperm
  have hrows := hperm.map Sqlite.intentRow
  rw [List.map_map] at hrows
  exact hrows

theorem active_same {b m : Books} (h : Refines b m) {now : String}
    (horder : KeepsTogether m (.listActiveMandates now)) :
    Sqlite.listActiveMandates b now = m.listActiveMandates now := by
  unfold Sqlite.listActiveMandates Books.listActiveMandates isLiveMandate
  rw [h.mandates]
  refine List.filter_congr fun x hx => ?_
  by_cases hactive : x.status = .active
  · rw [horder x hx hactive]
  · have hbeq : (x.status == .active) = false := by simpa using hactive
    rw [hbeq, Bool.false_and, Bool.false_and]

/-- Writing a mandate SQLite can bind. -/
theorem Refines.putMandate {b m : Books} (h : Refines b m) {x : Mandate}
    (hx : x.perTxCap ≠ .nan ∧ x.perPeriodCap ≠ .nan) :
    Refines { b with mandates := m.mandates.put x } { m with mandates := m.mandates.put x } :=
  { h with
    mandates := rfl
    caps := fun id y hy => by
      rw [Table.get_put] at hy
      split at hy
      · cases hy
        exact hx
      · exact h.caps id y hy }

theorem bindMandate_eq {x : Mandate} (hx : x.perTxCap ≠ .nan ∧ x.perPeriodCap ≠ .nan) :
    Sqlite.bindMandate x = .ok () := by
  unfold Sqlite.bindMandate
  rw [Sqlite.bindNumber_of_ne hx.1]
  exact Sqlite.bindNumber_of_ne hx.2

theorem insertMandate_same {b m : Books} (h : Refines b m) {x : Mandate}
    (hx : x.perTxCap ≠ .nan ∧ x.perPeriodCap ≠ .nan) :
    SameResult (wrote b (Sqlite.insertMandate b x)).1 (wrote m (m.insertMandate x)).1 ∧
      Refines (wrote b (Sqlite.insertMandate b x)).2 (wrote m (m.insertMandate x)).2 := by
  unfold Sqlite.insertMandate Books.insertMandate
  rw [bindMandate_eq hx, h.mandates]
  simp only [Except.bind]
  by_cases hold : (m.mandates.get x.id).isSome
  · rw [if_pos hold, if_pos hold]
    exact ⟨trivial, h⟩
  · rw [if_neg hold, if_neg hold]
    exact ⟨trivial, h.putMandate hx⟩

theorem updateMandate_same {b m : Books} (h : Refines b m) (id : String) {patch : MandatePatch}
    (htx : ∀ x ∈ patch.perTxCap, x ≠ .nan) (hperiod : ∀ x ∈ patch.perPeriodCap, x ≠ .nan) :
    SameResult (wrote b (Sqlite.updateMandate b id patch)).1 (.ok .done) ∧
      Refines (wrote b (Sqlite.updateMandate b id patch)).2 (m.updateMandate id patch) := by
  unfold Sqlite.updateMandate Books.updateMandate Table.modify
  rw [h.mandates]
  cases hget : m.mandates.get id with
  | none => exact ⟨trivial, h⟩
  | some x =>
      obtain ⟨hxtx, hxperiod⟩ := h.caps id x hget
      have hpatched : (patch.apply x).perTxCap ≠ .nan ∧ (patch.apply x).perPeriodCap ≠ .nan := by
        constructor
        · show patch.perTxCap.getD x.perTxCap ≠ .nan
          cases hcap : patch.perTxCap with
          | none => exact hxtx
          | some cap => exact htx cap hcap
        · show patch.perPeriodCap.getD x.perPeriodCap ≠ .nan
          cases hcap : patch.perPeriodCap with
          | none => exact hxperiod
          | some cap => exact hperiod cap hcap
      simp only [bindMandate_eq hpatched, Except.map, wrote]
      exact ⟨trivial, h.putMandate hpatched⟩

theorem revokeMandate_same {b m : Books} (h : Refines b m) (id : String) :
    Refines (b.revokeMandate id) (m.revokeMandate id) := by
  unfold Books.revokeMandate Table.modify
  rw [h.mandates]
  cases hget : m.mandates.get id with
  | none => exact { h with mandates := rfl }
  | some x => exact h.putMandate (x := { x with status := .revoked }) (h.caps id x hget)

theorem Refines.putIntent {b m : Books} (h : Refines b m) (x : StoredIntent) :
    Refines { b with intents := b.intents.put (Sqlite.intentRow x) }
      { m with intents := m.intents.put x } :=
  { h with intents := h.intents.put rfl }

theorem insertIntent_same {b m : Books} (h : Refines b m) {x : StoredIntent}
    (hamount : x.intent.amount ≠ .nan) (hrefunded : x.refundedMinor.getD 0 ≠ .nan) :
    SameResult (wrote b (Sqlite.insertIntent b x)).1 (wrote m (m.insertIntent x)).1 ∧
      Refines (wrote b (Sqlite.insertIntent b x)).2 (wrote m (m.insertIntent x)).2 := by
  unfold Sqlite.insertIntent Books.insertIntent
  rw [Sqlite.bindNumber_of_ne hamount, Sqlite.bindNumber_of_ne hrefunded, h.intents]
  simp only [Except.bind, Option.isSome_map]
  by_cases hold : (m.intents.get x.id).isSome
  · rw [if_pos hold, if_pos hold]
    exact ⟨trivial, h⟩
  · rw [if_neg hold, if_neg hold]
    exact ⟨trivial, h.putIntent x⟩

theorem updateIntent_same {b m : Books} (h : Refines b m) (id : String) {update : IntentUpdate}
    (hrefunded : update.refundedMinor.getD 0 ≠ .nan) :
    SameResult (wrote b (Sqlite.updateIntent b id update)).1
        (wrote m (m.updateIntent id update)).1 ∧
      Refines (wrote b (Sqlite.updateIntent b id update)).2
        (wrote m (m.updateIntent id update)).2 := by
  unfold Sqlite.updateIntent Books.updateIntent
  rw [Sqlite.bindNumber_of_ne hrefunded, h.intents]
  cases m.intents.get id with
  | none => exact ⟨trivial, h⟩
  | some x =>
      have hrow : update.apply (Sqlite.intentRow x) = Sqlite.intentRow (update.apply x) := by
        unfold IntentUpdate.apply Sqlite.intentRow
        cases update.refundedMinor <;> rfl
      simp only [Option.map_some, Except.map, wrote, hrow]
      exact ⟨trivial, h.putIntent _⟩

theorem insertReceipt_same {b m : Books} (h : Refines b m) {r : Receipt} (hamount : r.amount ≠ .nan)
    (hfresh : KeepsTogether m (.insertReceipt r)) :
    SameResult (wrote b (Sqlite.insertReceipt b r)).1 (.ok .done) ∧
      Refines (wrote b (Sqlite.insertReceipt b r)).2 (m.insertReceipt r) := by
  obtain ⟨hid, hintent⟩ := hfresh
  have hunique : b.receipts.values.any (fun r' => r'.intentId == r.intentId) = false := by
    rw [List.any_eq_false]
    intro r' hr'
    rw [h.receipts.values_perm.mem_iff] at hr'
    obtain ⟨r₀, hr₀, rfl⟩ := List.mem_map.1 hr'
    simpa [Sqlite.receiptRow] using hintent r₀ hr₀
  unfold Sqlite.insertReceipt
  rw [Sqlite.bindNumber_of_ne hamount, h.receipts, hid, hunique]
  exact ⟨trivial, { h with receipts := h.receipts.put rfl }⟩

theorem getReceipt_same {b m : Books} (h : Refines b m) {id : String}
    (hissuer : KeepsTogether m (.getReceipt id)) : b.receipts.get id = m.receipts.get id := by
  rw [h.receipts]
  cases hget : m.receipts.get id with
  | none => rfl
  | some r =>
      have hnone := hissuer r hget
      cases r
      cases hnone
      rfl

theorem setMeta_same {b m : Books} (h : Refines b m) (k v : String) :
    Refines (b.setMeta k v) (m.setMeta k v) :=
  { h with
    meta' := fun k' v' hget => by
      simp only [Books.setMeta, JsMap.get_set] at hget ⊢
      split at hget
      · next hk => rw [if_pos hk, hget]
      · next hk => rw [if_neg hk, h.meta' k' v' hget]
    reserved := fun k' hk' hget => by
      simp only [Books.setMeta, JsMap.get_set] at hget ⊢
      split at hget
      · cases hget
      · next hk => rw [if_neg hk, h.reserved k' hk' hget] }

/-- **A call keeps the stores together**, and returns the same from both. -/
theorem Refines.call {b m : Books} (h : Refines b m) {c : StoreCall} (hsafe : SafeCall c)
    (hc : KeepsTogether m c) :
    SameResult (sqliteByBytes.call b c).1 (memoryStore.call m c).1 ∧
      Refines (sqliteByBytes.call b c).2 (memoryStore.call m c).2 := by
  cases c with
  | getMeta k =>
      refine ⟨?_, h⟩
      show b.meta'.get k = m.meta'.get k
      cases hget : m.meta'.get k with
      | some v => exact h.meta' k v hget
      | none =>
          refine h.reserved k (fun hk => ?_) hget
          have hsome := hc hk
          rw [hget] at hsome
          cases hsome
  | setMeta k v => exact ⟨trivial, setMeta_same h k v⟩
  | insertMandate x => exact insertMandate_same h ⟨hsafe.1.ne_nan, hsafe.2.ne_nan⟩
  | getMandate id => exact ⟨congrArg (fun t => Table.get t id) h.mandates, h⟩
  | listMandates =>
      refine ⟨?_, h⟩
      show b.mandates.values.Perm m.mandates.values
      rw [h.mandates]
  | listActiveMandates now =>
      refine ⟨?_, h⟩
      show (Sqlite.listActiveMandates b now).Perm (m.listActiveMandates now)
      rw [active_same h hc]
  | revokeMandate id => exact ⟨trivial, revokeMandate_same h id⟩
  | updateMandate id patch =>
      exact updateMandate_same h id (fun x hx => (hsafe.1 x hx).ne_nan)
        fun x hx => (hsafe.2 x hx).ne_nan
  | insertIntent x => exact insertIntent_same h hsafe.1.ne_nan (getD_ne_nan hsafe.2)
  | getIntent id =>
      refine ⟨?_, h⟩
      show (b.intents.get id).map Sqlite.intentRow = (m.intents.get id).map Sqlite.intentRow
      rw [h.intents, Option.map_map]
      rfl
  | listPendingIntents => exact ⟨pending_same h, h⟩
  | updateIntent id update => exact updateIntent_same h id (getD_ne_nan hsafe)
  | insertReceipt r => exact insertReceipt_same h hsafe.ne_nan hc
  | getReceipt id => exact ⟨getReceipt_same h hc, h⟩
  | periodSpend id now =>
      refine ⟨?_, h⟩
      show SameResult ((Sqlite.periodSpend b id now).map .spend) _
      rw [Sqlite.periodSpend_eq]
      exact spend_same h id now
  | knownPayees =>
      refine ⟨fun p => ?_, h⟩
      have hp := settledPayees_same h p
      simpa [sqliteByBytes, sqliteStore, memoryStore] using hp
  | payeeSettledCount p => exact ⟨count_same h p, h⟩
  | appendAudit e => exact hsafe.elim
  | loadAudit => exact hsafe.elim

/-! ## Runs -/

/-- Both stores under the same calls; the events pair their results. -/
def stores : System (Books × Books) StoreCall (Except String Answer × Except String Answer) where
  step s c :=
    let r := sqliteByBytes.call s.1 c
    let r' := memoryStore.call s.2 c
    some ((r.2, r'.2), [(r.1, r'.1)])

/-- The calls in question. -/
def safeCalls : Guard (Books × Books) StoreCall (Except String Answer × Except String Answer) :=
  fun _ _ c => SafeCall c

/-- Of these, the calls that keep the stores together. -/
def togetherCalls : Guard (Books × Books) StoreCall (Except String Answer × Except String Answer) :=
  fun _ s c => SafeCall c ∧ KeepsTogether s.2 c

namespace Sample

/-- A receipt that names its issuer. -/
def cardReceipt (issuer : Option String) : Receipt where
  id := "r"
  intentId := "i"
  rail := .card
  amount := 40
  currency := "USD"
  settledAt := "2026-03-05T12:00:00.000Z"
  providerRef := "ch_1"
  finality := .final
  providerId := issuer

theorem safe_cardReceipt (issuer : Option String) :
    SafeCall (.insertReceipt (cardReceipt issuer)) := ⟨40, rfl, by decide⟩

end Sample

end AgentWorth
