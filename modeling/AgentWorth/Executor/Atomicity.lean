import AgentWorth.Core.Tamper
import AgentWorth.Executor.Deployment
import AgentWorth.Executor.Writes
import AgentWorth.Store.Sqlite

/-!
# The chain in memory and the chain in the store

`record` puts an entry on the chain in memory and then offers it to the store,
which may throw.  The caller may go on after the exception, so a store that
throws and later accepts misses an entry that the next ones build on.
-/

namespace AgentWorth

open AgentWorth.Js AgentWorth.Lib

variable {σ : Type}

/-! ## A store that may refuse entries -/

/-- The errors `appendAudit` throws, by the number of the entry it is given.
The log numbers its entries one after another, so each call has its own. -/
abbrev Faults := JsNumber → Option String

/-- `S` with an `appendAudit` that throws as given and leaves the store alone. -/
def flaky (S : Store σ) (faults : Faults) : Store σ :=
  { S with
    appendAudit := fun s e =>
      match faults e.seq with
      | some error => .error error
      | none => S.appendAudit s e }

/-- The same deployment over a store that may refuse entries. -/
def ExecutorDeps.flaky (d : ExecutorDeps σ) (faults : Faults) : ExecutorDeps σ :=
  { d with store := AgentWorth.flaky d.store faults }

/-- The entry is not refused. -/
def Faults.accept (faults : Faults) (e : AuditEntry) : Bool := (faults e.seq).isNone

/-- An entry numbered past all others is read back last. -/
def AppendsLast {S : Store σ} (C : Contract S) : Prop :=
  ∀ {s s' : σ} {e : AuditEntry}, S.appendAudit s e = .ok s' →
    (∀ r ∈ S.loadAudit s, r.seq < e.seq) → S.loadAudit s' = S.loadAudit s ++ [C.savedEntry e]

theorem appendsLast_memory : AppendsLast memoryContract := by
  intro b b' e happend _
  obtain rfl := Except.ok.inj happend
  rfl

open Sqlite in
theorem insertRow_last {e : AuditEntry} {rows : List AuditEntry}
    (h : ∀ r ∈ rows, r.seq < e.seq) : insertRow (auditRow e) rows = rows ++ [auditRow e] := by
  induction rows with
  | nil => rfl
  | cons r rows ih =>
      have hr : ¬ (auditRow e).seq < r.seq := JsNumber.not_lt_of_lt (h r (by simp))
      unfold insertRow
      rw [if_neg hr, ih fun r' hr' => h r' (List.mem_cons_of_mem _ hr'), List.cons_append]

theorem appendsLast_sqlite : AppendsLast sqliteContract := by
  intro b b' e happend hlast
  simp only [sqliteStore, Sqlite.appendAudit] at happend hlast
  split at happend
  · cases happend
  · split at happend
    · cases happend
    · cases happend
      exact insertRow_last hlast

/-! ## What is asked of the two chains -/

/-- The log verifies what it signs, in the form the store gives it back. -/
def VerifiesOwn {S : Store σ} (C : Contract S) (signer : Signer) : Prop :=
  ∀ {key : SigningKey} {e : AuditEntry}, signer.sign = .ok key → e.keyVersion = key.version →
    signer.resolveKey (C.savedEntry e).keyVersion = .ok key.material

/-- An operator key verifies every entry, versioned or not. -/
theorem verifiesOwn_operatorSigner {S : Store σ} (C : Contract S) (key : String) :
    VerifiesOwn C (operatorSigner key) := by
  intro signing e hsign _
  obtain rfl := Except.ok.inj hsign
  rfl

section Chains

variable {d : ExecutorDeps σ} (C : Contract d.store)

/-- The persisted chain verifies, is a prefix of the chain in memory, as the
store gives its entries back, and has no gap. -/
structure Atomic (w : World σ) : Prop where
  verifies : (AuditLog.verify d.crypto ⟨w.audit.signer, d.store.loadAudit w.store⟩).valid = true
  isPrefix : d.store.loadAudit w.store <+: w.audit.entries.map C.savedEntry
  noGap : NumberedFrom 0 (d.store.loadAudit w.store)

/-- A log over a store as it starts: seeded with the persisted chain. -/
structure Seeded (w : World σ) : Prop where
  loaded : d.store.loadAudit w.store = w.audit.entries.map C.savedEntry
  verifies : (AuditLog.verify d.crypto ⟨w.audit.signer, d.store.loadAudit w.store⟩).valid = true
  numbered : NumberedFrom 0 w.audit.entries

/-- Of the calls of `appendAudit` numbered from `start` up to `stop`, no call
that throws is followed by one that returns. -/
def DownForGood (faults : Faults) (start stop : Nat) : Prop :=
  ∀ m n : Nat, start ≤ m → m < n → n < stop → (faults m).isSome → (faults n).isSome

/-! ## What the store keeps -/

/-- The store has what it had at the start and the entries it accepted since,
and the whole chain in memory verifies in the form the store would give it
back. -/
structure Offered (faults : Faults) (base : List AuditEntry) (signer : Signer) (w : World σ) :
    Prop where
  signer_eq : w.audit.signer = signer
  rows : ∃ news, w.audit.entries = base ++ news ∧
    d.store.loadAudit w.store = (base ++ news.filter faults.accept).map C.savedEntry
  verifies :
    (AuditLog.verify d.crypto ⟨w.audit.signer, w.audit.entries.map C.savedEntry⟩).valid = true
  numbered : NumberedFrom 0 w.audit.entries

variable {C} {faults : Faults} {base : List AuditEntry} {signer : Signer} {w : World σ}

theorem Contract.savedEntry_signedPart (e : AuditEntry) :
    (C.savedEntry e).signedPart = e.signedPart := by
  have h := congrArg AuditEntry.signedPart (C.savedEntry_eq e)
  simp only [AuditEntry.signedPart, SignedPart.mk.injEq] at h ⊢
  obtain ⟨hseq, hts, htype, -, hprev, hhash, hsig⟩ := h
  exact ⟨hseq, hts, htype, C.savedEntry_payload e, hprev, hhash, hsig⟩

theorem Seeded.offered (h : Seeded C w) :
    Offered C faults w.audit.entries w.audit.signer w := by
  refine ⟨rfl, ⟨[], by simp, by simpa using h.loaded⟩, ?_, h.numbered⟩
  rw [← h.loaded]
  exact h.verifies

/-- The entry of a record is the next one of the log. -/
theorem appendEntry_key {type : AuditEventType} {payload : JsValue} {ts : String}
    {entry : AuditEntry} {log : AuditLog}
    (h : appendEntry d type payload ts w = .ok (entry, log)) :
    ∃ key, w.audit.signer.sign = .ok key ∧
      entry = AuditLog.nextEntry d.crypto w.audit key type (stamped d w.store type payload) ts := by
  unfold appendEntry at h
  unfold stamped
  split at h
  · next htype =>
      obtain ⟨key, hkey, hentry, -⟩ := AuditLog.append_eq_ok_iff.1 h
      rw [if_pos htype, htype]
      exact ⟨key, hkey, hentry⟩
  · next htype =>
      obtain ⟨key, hkey, hentry, -⟩ := AuditLog.append_eq_ok_iff.1 h
      rw [if_neg htype]
      exact ⟨key, hkey, hentry⟩

/-- The next entry extends a chain that verifies. -/
theorem verify_savedEntry {log : AuditLog} {key : SigningKey}
    (hown : VerifiesOwn C log.signer) (hkey : log.signer.sign = .ok key)
    (h : (AuditLog.verify d.crypto ⟨log.signer, log.entries.map C.savedEntry⟩).valid = true)
    (type : AuditEventType) (payload : JsValue) (ts : String) :
    (AuditLog.verify d.crypto ⟨log.signer,
      (log.entries ++ [log.nextEntry d.crypto key type payload ts]).map
        C.savedEntry⟩).valid = true := by
  obtain ⟨hlinked, hsealed⟩ := AuditLog.verify_valid_iff.1 h
  have hsame : ∀ es : List AuditEntry,
      (es.map C.savedEntry).map AuditEntry.signedPart = es.map AuditEntry.signedPart := by
    intro es
    rw [List.map_map]
    exact List.map_congr_left fun e _ => C.savedEntry_signedPart e
  refine AuditLog.verify_valid_iff.2 ⟨?_, ?_⟩
  · rw [linkedFrom_congr (hsame _)] at hlinked ⊢
    exact AuditLog.linkedFrom_nextEntry hlinked
  · intro e he
    rw [List.map_append] at he
    rcases List.mem_append.1 he with hold | hnew
    · exact hsealed e hold
    · rw [List.map_singleton, List.mem_singleton] at hnew
      rw [hnew]
      refine ⟨key.material, hown hkey rfl, ?_⟩
      exact (AuditLog.nextEntry_sealed d.crypto _ key type payload ts).congr
        (C.savedEntry_signedPart _).symm

/-- The number of the next entry is past those of the rows. -/
theorem Offered.rows_lt (h : Offered C faults base signer w) :
    ∀ r ∈ d.store.loadAudit w.store, r.seq < (w.audit.entries.length : JsNumber) := by
  obtain ⟨news, hentries, hrows⟩ := h.rows
  intro r hr
  rw [hrows] at hr
  obtain ⟨e, he, rfl⟩ := List.mem_map.1 hr
  have hmem : e ∈ w.audit.entries := by
    rw [hentries]
    rcases List.mem_append.1 he with hbase | hnew
    · exact List.mem_append_left _ hbase
    · exact List.mem_append_right _ (List.mem_filter.1 hnew).1
  obtain ⟨i, hi, hget⟩ := List.mem_iff_getElem.1 hmem
  have hseq := h.numbered i e (by rw [List.getElem?_eq_getElem hi, hget])
  rw [C.savedEntry_seq, hseq, JsNumber.natCast_lt_natCast]
  omega

/-- **A record offers its entry to the store**, which takes it unless its
faults say otherwise. -/
theorem record_offered (horder : AppendsLast C) (hown : VerifiesOwn C signer)
    (type : AuditEventType) (members : List (String × JsValue)) (ts : String)
    (h : Offered C faults base signer w) :
    Offered C faults base signer
      (stateAfter (record (d.flaky faults) type (.obj members) ts w)) := by
  obtain ⟨news, hentries, hrows⟩ := h.rows
  unfold record
  split
  · exact h
  · next entry log happend =>
      obtain ⟨key, hkey, hentry⟩ := appendEntry_key happend
      obtain ⟨hsigner, hlog, -, hpayload, -, hseq⟩ := appendEntry_ok happend
      have hgrown : ∀ store : σ, d.store.loadAudit store =
          (base ++ (news ++ [entry]).filter faults.accept).map C.savedEntry →
          Offered C faults base signer { store := store, audit := log } := by
        intro store hstore
        refine ⟨hsigner.trans h.signer_eq, ⟨news ++ [entry], ?_, hstore⟩, ?_, ?_⟩
        · rw [hlog, hentries, List.append_assoc]
        · show (AuditLog.verify d.crypto ⟨log.signer, log.entries.map C.savedEntry⟩).valid = true
          rw [hlog, hsigner, hentry]
          exact verify_savedEntry (by rw [h.signer_eq]; exact hown) hkey h.verifies type _ ts
        · show NumberedFrom 0 log.entries
          rw [hlog]
          refine numberedFrom_snoc h.numbered ?_
          rw [hseq, Nat.zero_add]
      cases hfault : faults entry.seq with
      | some error =>
          have hthrown : (d.flaky faults).store.appendAudit w.store entry = .error error := by
            simp only [ExecutorDeps.flaky, AgentWorth.flaky, hfault]
          have hrefused : faults.accept entry = false := by
            simp [Faults.accept, hfault]
          rw [hthrown]
          refine hgrown w.store ?_
          rw [hrows, List.filter_append, List.filter_singleton, hrefused, cond_false,
            List.append_nil]
      | none =>
          have haccepted : faults.accept entry = true := by
            simp [Faults.accept, hfault]
          have hlast : ∀ r ∈ d.store.loadAudit w.store, r.seq < entry.seq := by
            rw [hseq]
            exact h.rows_lt
          obtain ⟨store, hstore⟩ := C.appendAudit_fresh w.store entry
            (by rw [hpayload]; exact Json.isDropped_of_isObject (stamped_isObject rfl))
            (fun r hr => JsNumber.ne_of_lt (hlast r (by rw [C.loadAudit]; exact hr)))
          have happended : (d.flaky faults).store.appendAudit w.store entry = .ok store := by
            simp only [ExecutorDeps.flaky, AgentWorth.flaky, hfault]
            exact hstore
          have hsnoc : ∀ es, (es ++ [entry]).map C.savedEntry =
              es.map C.savedEntry ++ [C.savedEntry entry] := by simp
          rw [happended]
          refine hgrown store ?_
          rw [horder hstore hlast, hrows, List.filter_append, List.filter_singleton,
            haccepted, cond_true, ← List.append_assoc, hsnoc]

/-! ## Runs -/

/-- Writes outside the audit table leave it as it was. -/
theorem loadAudit_storeWrite (C : Contract d.store) {s s' : σ}
    (h : StoreWrite (d.flaky faults).store s s') :
    d.store.loadAudit s' = d.store.loadAudit s := by
  rw [C.loadAudit, C.loadAudit]
  cases h with
  | @setMeta k v _ =>
      have haudit := congrArg Books.audit (C.setMeta s k v)
      exact haudit
  | revokeMandate id =>
      have haudit := congrArg Books.audit (C.revokeMandate s id)
      exact haudit
  | insertMandate written =>
      obtain ⟨-, hb⟩ := C.insertMandate_spec written
      have haudit := congrArg Books.audit hb
      exact haudit
  | updateMandate written =>
      have haudit := congrArg Books.audit (C.updateMandate written)
      exact haudit
  | insertIntent written =>
      obtain ⟨-, hb⟩ := C.insertIntent_spec written
      have haudit := congrArg Books.audit hb
      exact haudit
  | updateIntent written =>
      obtain ⟨x, -, hb⟩ := C.updateIntent_spec written
      have haudit := congrArg Books.audit hb
      exact haudit
  | insertReceipt written =>
      have haudit := congrArg Books.audit (C.insertReceipt written)
      exact haudit

theorem offered_rule (horder : AppendsLast C) (hown : VerifiesOwn C signer) :
    StepRule (d.flaky faults) fun w w' =>
      Offered C faults base signer w → Offered C faults base signer w' where
  refl _ h := h
  trans hab hbc h := hbc (hab h)
  write {w store} hwrite h := by
    refine ⟨h.signer_eq, ?_, h.verifies, h.numbered⟩
    show ∃ news, w.audit.entries = base ++ news ∧ d.store.loadAudit store = _
    rw [loadAudit_storeWrite C hwrite]
    exact h.rows
  record type members ts _ h := record_offered horder hown type members ts h

variable {s₀ s : State σ} {steps : List (Step (State σ) Action Event)}

theorem offered_of_run (horder : AppendsLast C) (hown : VerifiesOwn C s₀.world.audit.signer)
    (hstart : Seeded C s₀.world)
    (hrun : (executor (d.flaky faults)).Run anyStep s₀ steps s) :
    Offered C faults s₀.world.audit.entries s₀.world.audit.signer s.world :=
  hrun.invariant
    (fun _ s => Offered C faults s₀.world.audit.entries s₀.world.audit.signer s.world)
    hstart.offered
    fun _ _ _ _ _ ih _ htaken => (offered_rule horder hown).of_step htaken ih

/-- The entries since the start, in the order they were offered. -/
theorem pairwise_iff_downForGood {news : List AuditEntry}
    (h : NumberedFrom 0 (base ++ news)) :
    (news.Pairwise fun e e' => faults.accept e' = true → faults.accept e = true) ↔
      DownForGood faults base.length (base ++ news).length := by
  have hseq : ∀ (i : Nat) (hi : i < news.length),
      news[i].seq = ((base.length + i : Nat) : JsNumber) := by
    intro i hi
    have hat := h (base.length + i) news[i] (by simp [hi])
    rw [hat, Nat.zero_add]
  rw [List.pairwise_iff_getElem]
  constructor
  · intro hpairs m n hm hmn hn
    rw [List.length_append] at hn
    have hthrows := hpairs (m - base.length) (n - base.length) (by omega) (by omega) (by omega)
    simp only [Faults.accept, hseq, Option.isNone_iff_eq_none] at hthrows
    rw [show base.length + (m - base.length) = m by omega,
      show base.length + (n - base.length) = n by omega] at hthrows
    simp only [Option.isSome_iff_ne_none]
    exact mt hthrows
  · intro hdown i j hi hj hij haccepted
    have hthrows := hdown (base.length + i) (base.length + j) (by omega) (by omega)
      (by rw [List.length_append]; omega)
    simp only [Faults.accept, hseq, Option.isNone_iff_eq_none] at haccepted ⊢
    by_contra hthrown
    have hlater := hthrows (Option.isSome_iff_ne_none.2 hthrown)
    rw [haccepted] at hlater
    cases hlater

/-- **The persisted chain stays a verifying prefix of the one in memory** as
long as no call of `appendAudit` that throws is followed by one that returns. -/
theorem atomic_iff_downForGood (horder : AppendsLast C)
    (hown : VerifiesOwn C s₀.world.audit.signer) (hstart : Seeded C s₀.world)
    (hrun : (executor (d.flaky faults)).Run anyStep s₀ steps s) :
    Atomic C s.world ↔
      DownForGood faults s₀.world.audit.entries.length s.world.audit.entries.length := by
  have h := offered_of_run horder hown hstart hrun
  obtain ⟨news, hentries, hrows⟩ := h.rows
  have hnumbered := h.numbered
  rw [hentries] at hnumbered
  rw [hentries, ← pairwise_iff_downForGood hnumbered]
  constructor
  · intro hatomic
    have hseqs : ∀ es : List AuditEntry,
        (es.map C.savedEntry).map AuditEntry.seq = es.map AuditEntry.seq := by
      intro es
      rw [List.map_map]
      exact List.map_congr_left fun e _ => C.savedEntry_seq e
    have hpre := hatomic.isPrefix.map AuditEntry.seq
    rw [hrows, hentries, hseqs, hseqs, List.map_append, List.map_append,
      List.prefix_append_right_inj] at hpre
    exact pairwise_of_filter_prefix (hnumbered.nodup_seq.sublist (by simp)) hpre
  · intro hpairs
    have hpre : d.store.loadAudit s.world.store <+: s.world.audit.entries.map C.savedEntry := by
      rw [hrows, hentries]
      exact ((List.prefix_append_right_inj _).2 (filter_prefix_of_pairwise hpairs)).map _
    have hsaved : NumberedFrom 0 (s.world.audit.entries.map C.savedEntry) := by
      intro i e hi
      rw [List.getElem?_map] at hi
      obtain ⟨e', he', rfl⟩ := Option.map_eq_some_iff.1 hi
      rw [C.savedEntry_seq]
      exact h.numbered i e' he'
    exact ⟨AuditLog.verify_of_prefix h.verifies hpre, hpre, hsaved.of_prefix hpre⟩

end Chains

/-! ## Sample runs -/

namespace Sample

def sqliteDeps : ExecutorDeps Books := { deps with store := sqliteStore }

/-- The disk is full from the entry of the given number on. -/
def fullFrom (n : Nat) : Faults := fun seq => if seq < n then none else some "disk is full"

/-- The first entry alone is refused. -/
def firstRefused : Faults := fun seq => if seq = 0 then some "database is locked" else none

theorem seeded_start : Seeded (d := sqliteDeps) sqliteContract start.world :=
  ⟨rfl, rfl, by intro i e hi; cases hi⟩

end Sample

/-- A disk that fills up while the rail is asked: the decision is kept, and
neither the settlement nor its failure can be recorded. -/
theorem full_disk_leaves_verifying_chain : ∃ steps s,
    (executor (Sample.sqliteDeps.flaky (Sample.fullFrom 1))).Run anyStep Sample.start steps s ∧
      s.world.audit.entries.length = 3 ∧
      Atomic (d := Sample.sqliteDeps) sqliteContract s.world := by
  obtain ⟨steps, s, hrun, hlength⟩ := System.exists_run
    (executor (Sample.sqliteDeps.flaky (Sample.fullFrom 1))) anyStep Sample.start
    [Sample.pay "a" 40, Sample.settles 0 "a" 40]
    (fun _ s => decide (s.world.audit.entries.length = 3)) (by decide +kernel)
  refine ⟨steps, s, hrun, of_decide_eq_true hlength, ?_⟩
  rw [atomic_iff_downForGood (d := Sample.sqliteDeps) appendsLast_sqlite
    (verifiesOwn_operatorSigner _ "key") Sample.seeded_start hrun]
  intro m n _ hmn _ hthrows
  simp only [Sample.fullFrom, JsNumber.natCast_lt_natCast] at hthrows ⊢
  split at hthrows
  · cases hthrows
  · rw [if_neg (by omega)]
    rfl

/-- **A refused entry breaks the persisted chain**: the next decision is kept,
and it builds on one that is not. -/
theorem refused_entry_breaks_chain : ∃ steps s,
    (executor (Sample.sqliteDeps.flaky Sample.firstRefused)).Run anyStep Sample.start steps s ∧
      (sqliteStore.loadAudit s.world.store).map AuditEntry.seq = [1] ∧
      (AuditLog.verify Sample.crypto
        ⟨s.world.audit.signer, sqliteStore.loadAudit s.world.store⟩).valid = false ∧
      ¬ Atomic (d := Sample.sqliteDeps) sqliteContract s.world := by
  obtain ⟨steps, s, hrun, hfound⟩ := System.exists_run
    (executor (Sample.sqliteDeps.flaky Sample.firstRefused)) anyStep Sample.start
    [Sample.pay "a" 40, Sample.pay "b" 40]
    (fun _ s => decide ((sqliteStore.loadAudit s.world.store).map AuditEntry.seq = [1] ∧
      (AuditLog.verify Sample.crypto
        ⟨s.world.audit.signer, sqliteStore.loadAudit s.world.store⟩).valid = false))
    (by decide +kernel)
  obtain ⟨hseqs, hbroken⟩ := of_decide_eq_true hfound
  refine ⟨steps, s, hrun, hseqs, hbroken, fun hatomic => ?_⟩
  exact absurd (hatomic.verifies.symm.trans hbroken) (by decide)

end AgentWorth
