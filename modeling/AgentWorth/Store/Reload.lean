import AgentWorth.Audit.Export
import AgentWorth.Core.Rotation
import AgentWorth.Store.Rehydrate
import AgentWorth.Store.Sqlite

/-!
# Reloading a chain

Each store encodes an audit entry in its own way: as the object itself, as the
columns of a table, or as one JSON value.  What `loadAudit` gives back seeds a
new log under the same key provider.
-/

namespace AgentWorth

open AgentWorth.Js AgentWorth.Js.Json AgentWorth.Lib AgentWorth.Postgres

inductive StoreKind where
  | memory
  | sqlite
  | postgres
  deriving DecidableEq, Repr

/-- `appendAudit` for each entry in turn. -/
def appendAll {σ : Type} (S : Store σ) : σ → List AuditEntry → Except String σ
  | s, [] => .ok s
  | s, e :: es => (S.appendAudit s e).bind fun s => appendAll S s es

/-- What the `SELECT`s return when rows come as they are stored. -/
def Tables.rows (t : Tables) : Rows where
  meta' := t.meta'.entries
  mandates := t.mandates.values
  intents := t.intents.values
  receipts := t.receipts.values
  audit := t.audit.map Prod.snd

theorem Tables.rows_answers (t : Tables) : t.rows.Answers t :=
  ⟨.refl _, .refl _, .refl _, .refl _, rfl⟩

/-- What `loadAudit` gives after each entry was written to a fresh store; a
Postgres store is rehydrated from its tables first. -/
def reload (operatorKey : String) (es : List AuditEntry) :
    StoreKind → Except String (List AuditEntry)
  | .memory => (appendAll memoryStore Books.empty es).map memoryStore.loadAudit
  | .sqlite => (appendAll sqliteStore Books.empty es).map sqliteStore.loadAudit
  | .postgres =>
      (appendAll postgresStore (freshSession operatorKey).store es).bind fun s =>
        (drain (freshSession operatorKey).tables s.queue).bind fun t =>
          (init s.operatorKey t.rows).map postgresStore.loadAudit

/-- A chain comes back from a store: the reloaded log verifies under the same
provider, and its entries are the original ones up to the JSON of the payload. -/
def Survives {π : Type} (K : KeyProvider π) (crypto : Crypto) (legacyKey : Option String)
    (p : π) (operatorKey : String) (es : List AuditEntry) (kind : StoreKind) : Prop :=
  ∃ loaded, reload operatorKey es kind = .ok loaded ∧
    (K.verify crypto legacyKey loaded p).valid = true ∧
    loaded.map AuditEntry.persisted = es.map AuditEntry.persisted

/-! ## What each store gives back -/

theorem appendAll_memory (b : Books) (es : List AuditEntry) :
    appendAll memoryStore b es = .ok { b with audit := b.audit ++ es } := by
  induction es generalizing b with
  | nil => rw [List.append_nil]; rfl
  | cons e es ih =>
      have h := ih (b.appendAudit e)
      rw [List.append_cons]
      exact h

theorem appendAll_postgres (s : PostgresStore) (es : List AuditEntry) :
    appendAll postgresStore s es = .ok
      { operatorKey := s.operatorKey
        mirror := { s.mirror with audit := s.mirror.audit ++ es }
        queue := s.queue ++ es.map Write.audit } := by
  induction es generalizing s with
  | nil => rw [List.append_nil, List.map_nil, List.append_nil]; rfl
  | cons e es ih =>
      have h := ih (enqueue s (s.mirror.appendAudit e) (.audit e))
      rw [List.map_cons, List.append_cons s.mirror.audit, List.append_cons s.queue]
      exact h

/-- No row of the SQLite table has a key version. -/
theorem keyVersion_appendAll_sqlite {b b' : Books} {es : List AuditEntry}
    (h : appendAll sqliteStore b es = .ok b') (hb : ∀ e ∈ b.audit, e.keyVersion = none) :
    ∀ e ∈ b'.audit, e.keyVersion = none := by
  induction es generalizing b with
  | nil =>
      obtain rfl := Except.ok.inj h
      exact hb
  | cons e es ih =>
      obtain ⟨b₁, happend, hrest⟩ := except_bind_eq_ok.1 h
      refine ih hrest ?_
      obtain ⟨rows, hperm, heq⟩ := sqliteContract.appendAudit happend
      have hrows : b₁.audit = rows := congrArg Books.audit heq
      intro e' he'
      rw [hrows, hperm.mem_iff] at he'
      rcases List.mem_cons.1 he' with rfl | hold
      · rfl
      · exact hb e' hold

/-- Entries numbered from zero are written while their numbers fit. -/
theorem drain_numbered {key : String} (hkey : key ≠ "") {es : List AuditEntry}
    (hnumbered : NumberedFrom 0 es) (hplain : ∀ e ∈ es, e.payload.WellFormed)
    (hlength : es.length ≤ 2147483648) :
    ∃ t, drain (freshSession key).tables (es.map Write.audit) = .ok t ∧
      Mirrors t key { Books.empty with audit := es } := by
  induction es using List.reverseRecOn with
  | nil =>
      obtain ⟨t, hdrain, hmirrors⟩ := durable_freshSession hkey
      exact ⟨t, hdrain, hmirrors⟩
  | append_singleton es e ih =>
      obtain ⟨hinit, hseq⟩ := hnumbered.of_snoc
      rw [Nat.zero_add] at hseq
      rw [List.length_append, List.length_singleton] at hlength
      obtain ⟨t, hdrain, hmirrors⟩ := ih hinit
        (fun e' he' => hplain e' (List.mem_append_left _ he')) (by omega)
      have hint : IsInt32 e.seq := by
        refine ⟨es.length, ?_, by omega, by omega⟩
        rw [hseq]
        exact congrArg JsNumber.fin (Int.cast_natCast es.length).symm
      have hnew : ∀ r ∈ es, r.seq < e.seq := by
        intro r hr
        obtain ⟨i, hi, hget⟩ := List.mem_iff_getElem.1 hr
        have hri := hinit i r (by rw [List.getElem?_eq_getElem hi, hget])
        rw [hri, hseq, JsNumber.natCast_lt_natCast]
        omega
      obtain ⟨t', hexec, hmirrors'⟩ := hmirrors.appendAudit (hplain e (by simp)) hint hnew
      refine ⟨t', ?_, hmirrors'⟩
      rw [List.map_append, drain_append, hdrain]
      show (Postgres.execute t (.audit e)).bind _ = _
      rw [hexec]
      rfl

/-- What was written had numbers that fit. -/
theorem isInt32_of_drain {t t' : Tables} {ws : List Write} (h : drain t ws = .ok t')
    {e : AuditEntry} (he : Write.audit e ∈ ws) : IsInt32 e.seq := by
  induction ws generalizing t with
  | nil => cases he
  | cons w ws ih =>
      obtain ⟨t₁, hexec, hrest⟩ := except_bind_eq_ok.1 h
      rcases List.mem_cons.1 he with rfl | hmem
      · obtain ⟨_, happend, -⟩ := except_map_eq_ok.1 hexec
        obtain ⟨_, -, happend⟩ := except_bind_eq_ok.1 happend
        obtain ⟨_, hbind, -⟩ := except_bind_eq_ok.1 happend
        exact bindInteger_eq_ok_iff.1 hbind
      · exact ih hrest hmem

/-! ## Rotated chains -/

section Chain

variable {π : Type} {K : KeyProvider π} {crypto : Crypto} {legacyKey : Option String} {p : π}
  {es : List AuditEntry} {operatorKey : String}

theorem persisted_persisted {e : AuditEntry} (h : e.payload.WellFormed) :
    e.persisted.persisted = e.persisted := by
  unfold AuditEntry.persisted
  rw [(memberPersisted_memberPersisted h).1]

/-- A chain verifies after JSON took its payloads. -/
theorem KeyProvider.Appended.verify_persisted (h : K.Appended crypto p es) :
    K.verify crypto legacyKey (es.map AuditEntry.persisted) p = .intact := by
  refine KeyProvider.verify_of_keyed ?_ ?_
  · refine (linkedFrom_congr ?_).2 h.linked
    rw [List.map_map]
    exact List.map_congr_left fun e _ => signedPart_persisted e
  · intro e' he'
    obtain ⟨e, he, rfl⟩ := List.mem_map.1 he'
    obtain ⟨version, key, hversion, hresolve, hsealed⟩ := h.keyed e he
    exact ⟨version, key, hversion, hresolve, hsealed.congr (signedPart_persisted e).symm⟩

theorem survives_memory (h : K.Appended crypto p es) :
    Survives K crypto legacyKey p operatorKey es .memory := by
  refine ⟨es, ?_, by rw [KeyProvider.verify_of_keyed h.linked h.keyed]; rfl, rfl⟩
  unfold reload
  rw [appendAll_memory]
  rfl

theorem survives_postgres (hkey : operatorKey ≠ "") (h : K.Appended crypto p es)
    (hlength : es.length ≤ 2147483648) :
    Survives K crypto legacyKey p operatorKey es .postgres := by
  obtain ⟨t, hdrain, hmirrors⟩ := drain_numbered hkey h.numbered h.plain hlength
  obtain ⟨b', hb', hrehydrated, -⟩ := hmirrors.hydrate t.rows_answers
  refine ⟨es.map AuditEntry.persisted, ?_, by rw [h.verify_persisted]; rfl, ?_⟩
  · unfold reload
    rw [appendAll_postgres]
    refine except_bind_eq_ok.2 ⟨_, rfl, except_bind_eq_ok.2 ⟨t, hdrain, ?_⟩⟩
    refine except_map_eq_ok.2 ⟨⟨operatorKey, b', []⟩, ?_, hrehydrated.audit⟩
    show init operatorKey t.rows = _
    rw [init, hb']
    rfl
  · rw [List.map_map]
    exact List.map_congr_left fun e he => persisted_persisted (h.plain e he)

/-- The SQLite table loses the key versions. -/
theorem not_survives_sqlite (h : K.Appended crypto p es) (hne : es ≠ []) :
    ¬ Survives K crypto legacyKey p operatorKey es .sqlite := by
  rintro ⟨loaded, hloaded, -, hsame⟩
  obtain ⟨b', happend, rfl⟩ := except_map_eq_ok.1 hloaded
  obtain ⟨e, he⟩ := List.exists_mem_of_ne_nil es hne
  have hmem : e.persisted ∈ b'.audit.map AuditEntry.persisted := by
    have heq : b'.audit.map AuditEntry.persisted = es.map AuditEntry.persisted := hsame
    rw [heq]
    exact List.mem_map_of_mem he
  obtain ⟨e', he', heq⟩ := List.mem_map.1 hmem
  have hnone := keyVersion_appendAll_sqlite happend (fun _ h => nomatch h) e' he'
  obtain ⟨version, -, hversion, -⟩ := h.keyed e he
  have hversions : e'.persisted.keyVersion = e.persisted.keyVersion :=
    congrArg AuditEntry.keyVersion heq
  have hversions' : e'.keyVersion = e.keyVersion := hversions
  rw [hnone, hversion] at hversions'
  cases hversions'

/-- A Postgres table takes no more entries than `INTEGER` has numbers. -/
theorem length_of_survives_postgres (h : K.Appended crypto p es)
    (hsurvives : Survives K crypto legacyKey p operatorKey es .postgres) :
    es.length ≤ 2147483648 := by
  by_contra hlong
  obtain ⟨loaded, hloaded, -⟩ := hsurvives
  unfold reload at hloaded
  rw [appendAll_postgres] at hloaded
  obtain ⟨s, hs, hloaded⟩ := except_bind_eq_ok.1 hloaded
  obtain ⟨t, hdrain, -⟩ := except_bind_eq_ok.1 hloaded
  obtain rfl := Except.ok.inj hs
  have hlt : 2147483648 < es.length := by omega
  have hget := List.getElem?_eq_getElem hlt
  have hqueued : Write.audit es[2147483648] ∈ es.map Write.audit :=
    List.mem_map_of_mem (List.getElem_mem hlt)
  obtain ⟨n, hn, -, hhi⟩ := isInt32_of_drain hdrain hqueued
  rw [h.numbered _ _ hget, Nat.zero_add] at hn
  have heq : ((2147483648 : Nat) : ℚ) = (n : ℚ) := JsNumber.fin.inj hn
  have hint : ((2147483648 : Nat) : Int) = n := by exact_mod_cast heq
  omega

/-- **Which stores a rotated chain survives.**  The reference store keeps every
chain, and Postgres as many entries as its sequence column can number; SQLite
has no column for the key version and keeps none. -/
theorem rotated_chain_survives_iff (hkey : operatorKey ≠ "")
    (hchain : K.Chain crypto legacyKey p es) (kind : StoreKind) :
    Survives K crypto legacyKey p operatorKey es kind ↔
      es = [] ∨ kind = .memory ∨ (kind = .postgres ∧ es.length ≤ 2147483648) := by
  have happended := hchain.appended
  cases kind with
  | memory => simp [survives_memory happended]
  | postgres =>
      constructor
      · intro h
        exact .inr (.inr ⟨rfl, length_of_survives_postgres happended h⟩)
      · intro h
        refine survives_postgres hkey happended ?_
        rcases h with rfl | h | ⟨-, h⟩
        · exact Nat.zero_le _
        · cases h
        · exact h
  | sqlite =>
      constructor
      · intro h
        by_cases hne : es = []
        · exact .inl hne
        · exact absurd h (not_survives_sqlite happended hne)
      · intro h
        obtain rfl : es = [] := by simpa using h
        exact ⟨[], rfl, rfl, rfl⟩

end Chain

namespace Sample

/-- A KMS whose first call answers with another version than the later ones. -/
def rotatingKms : KmsClient := fun n _ version =>
  let v := version.getD (if n = 0 then "v1" else "v2")
  .ok { version := v, material := "key-" ++ v }

theorem faithful_rotatingKms : Faithful rotatingKms "audit" fun v => "key-" ++ v := by
  constructor
  · intro n v key h
    cases h
    rfl
  · intro n version key h
    cases h
    rfl
  · intro v hv
    have hlength := congrArg String.length hv
    rw [String.length_append] at hlength
    exact absurd hlength (by simp)

/-- The provider as it was created. -/
def rotatingProvider : KmsKeyProvider where
  keyId := "audit"
  cache := JsMap.empty.set "v1" "key-v1"
  currentVersion := "v1"
  calls := 1

def rotatingCustodian :
    { p : KmsKeyProvider // Custodian "audit" (fun v => "key-" ++ v) p } :=
  ⟨rotatingProvider, custodian_of_instance faithful_rotatingKms
    (.created
      (show KmsKeyProvider.create rotatingKms "audit" none = .ok rotatingProvider from rfl))⟩

def rotatedCustodian :
    { p : KmsKeyProvider // Custodian "audit" (fun v => "key-" ++ v) p } :=
  ⟨(rotatingProvider.rotate rotatingKms).2,
    (rotate_spec faithful_rotatingKms rotatingCustodian.2).1⟩

def noteUnder (version : String) (es : List AuditEntry) : AuditEntry :=
  AuditLog.nextEntry echoCrypto ⟨operatorSigner "key", es⟩
    { material := "key-" ++ version, version := some version } .paymentHalted
    (.obj [("note", .str "rotated")]) "2026-03-05T12:00:00.000Z"

/-- One entry before a rotation and one after it. -/
def rotatedEntries : List AuditEntry :=
  [noteUnder "v1" [], noteUnder "v2" [noteUnder "v1" []]]

theorem chain_rotatedEntries :
    (kmsProvider faithful_rotatingKms).Chain echoCrypto none rotatedCustodian rotatedEntries := by
  have hplain : (JsValue.obj [("note", .str "rotated")]).WellFormed := by
    simp [JsValue.WellFormed, JsValue.WellFormedMembers]
  have hstart : (kmsProvider faithful_rotatingKms).Chain echoCrypto none rotatingCustodian [] :=
    .start _
  have hfirst : (kmsProvider faithful_rotatingKms).Chain echoCrypto none rotatingCustodian
      [noteUnder "v1" []] := hstart.append hplain rfl
  have hrotated : (kmsProvider faithful_rotatingKms).Chain echoCrypto none rotatedCustodian
      [noteUnder "v1" []] := hfirst.changed (.inl rfl)
  exact hrotated.append hplain rfl

end Sample

/-- A chain with a rotation survives Postgres. -/
theorem sample_chain_survives_postgres :
    Survives (kmsProvider Sample.faithful_rotatingKms) Sample.echoCrypto none
      Sample.rotatedCustodian "key" Sample.rotatedEntries .postgres :=
  (rotated_chain_survives_iff (by decide) Sample.chain_rotatedEntries .postgres).2
    (.inr (.inr ⟨rfl, by decide⟩))

/-- The same chain, reloaded from SQLite, no longer verifies: neither entry has
its key version. -/
theorem sqlite_drops_key_versions :
    (kmsProvider Sample.faithful_rotatingKms).Chain Sample.echoCrypto none
      Sample.rotatedCustodian Sample.rotatedEntries ∧
    Sample.rotatedEntries.map AuditEntry.keyVersion = [some "v1", some "v2"] ∧
    (∃ loaded, reload "key" Sample.rotatedEntries .sqlite = .ok loaded ∧
      loaded.map AuditEntry.keyVersion = [none, none] ∧
      ((kmsProvider Sample.faithful_rotatingKms).verify Sample.echoCrypto none loaded
        Sample.rotatedCustodian).valid = false) ∧
    ¬ Survives (kmsProvider Sample.faithful_rotatingKms) Sample.echoCrypto none
      Sample.rotatedCustodian "key" Sample.rotatedEntries .sqlite := by
  refine ⟨Sample.chain_rotatedEntries, rfl, ⟨_, rfl, rfl, by decide +kernel⟩, ?_⟩
  exact not_survives_sqlite Sample.chain_rotatedEntries.appended (by simp [Sample.rotatedEntries])

end AgentWorth
