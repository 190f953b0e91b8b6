import AgentWorth.Lib.Chain
import AgentWorth.Lib.Json

/-!
# The audit log

`src/core/audit.ts`: hash-linked, signed entries.  The digest functions are
node's and enter as parameters; everything hashed is built here.
-/

namespace AgentWorth

open AgentWorth.Js AgentWorth.Js.Json AgentWorth.Lib

inductive AuditEventType where
  | mandateGranted
  | mandateRevoked
  | mandateAmended
  | gateDecision
  | paymentSettled
  | paymentVerified
  | paymentFailed
  | paymentRefunded
  | paymentHalted
  | earningQuoted
  | earningReceived
  | earningRejected
  deriving DecidableEq, Repr

def AuditEventType.text : AuditEventType → String
  | .mandateGranted => "mandate.granted"
  | .mandateRevoked => "mandate.revoked"
  | .mandateAmended => "mandate.amended"
  | .gateDecision => "gate.decision"
  | .paymentSettled => "payment.settled"
  | .paymentVerified => "payment.verified"
  | .paymentFailed => "payment.failed"
  | .paymentRefunded => "payment.refunded"
  | .paymentHalted => "payment.halted"
  | .earningQuoted => "earning.quoted"
  | .earningReceived => "earning.received"
  | .earningRejected => "earning.rejected"

structure AuditEntry where
  seq : JsNumber
  ts : String
  type : AuditEventType
  payload : JsValue
  prevHash : String
  hash : String
  sig : String
  /-- the key version that signed this entry; absent on single-key chains -/
  keyVersion : Option String

/-- The hash functions the runtime provides: `sha256` in hex, `hmacSha256` of
a key and a text in hex, and the RFC 8785 serializer of policies. -/
structure Crypto where
  sha256 : String → String
  hmacSha256 : String → String → String
  jcs : JsValue → String

/-- `GENESIS`. -/
def genesis : String := String.ofList (List.replicate 64 '0')

/-! ## Deterministic JSON -/

/-- `JSON.stringify(value) ?? "null"` of a primitive. -/
def primitiveText : JsValue → String
  | .bool true => "true"
  | .bool false => "false"
  | .num (.fin q) => (JsNumber.fin q).toString
  | .str s => quote s
  | _ => "null"

mutual

def canonicalize : JsValue → String
  | .arr items => "[" ++ ",".intercalate (canonicalizeItems items) ++ "]"
  | .obj members =>
      "\x7b" ++ ",".intercalate
        ((sortByKey Prod.fst (canonicalizeMembers members)).map
          fun m => quote m.1 ++ ":" ++ m.2) ++ "\x7d"
  | v => primitiveText v

def canonicalizeItems : List JsValue → List String
  | [] => []
  | v :: vs => canonicalize v :: canonicalizeItems vs

/-- The kept members with their values rendered. -/
def canonicalizeMembers : List (String × JsValue) → List (String × String)
  | [] => []
  | (k, v) :: rest =>
      if isDropped v then canonicalizeMembers rest
      else (k, canonicalize v) :: canonicalizeMembers rest

end

@[simp] theorem isDropped_persisted (v : JsValue) : isDropped v.persisted = false := by
  cases v with
  | num x => cases x <;> rfl
  | _ => rfl

mutual

/-- **Serialising and parsing a value keeps its canonical text**: what JSON drops
or turns into `null` is dropped or rendered as `null` here too. -/
theorem canonicalize_persisted : ∀ v : JsValue, canonicalize v.persisted = canonicalize v
  | .arr items => by
      simp only [JsValue.persisted, canonicalize, canonicalizeItems_persisted items]
  | .obj members => by
      simp only [JsValue.persisted, canonicalize, canonicalizeMembers_persisted members]
  | .num (.fin q) => by
      simp only [JsValue.persisted, canonicalize, primitiveText, JsNumber.toString,
        JsNumber.shown_shown]
  | .num .nan | .num .posInf | .num .negInf => rfl
  | .bool b => rfl
  | .str s => rfl
  | .undefined | .null | .function | .symbol => rfl

theorem canonicalizeItems_persisted : ∀ vs : List JsValue,
    canonicalizeItems (JsValue.persistedItems vs) = canonicalizeItems vs
  | [] => rfl
  | v :: vs => by
      simp only [JsValue.persistedItems, canonicalizeItems, canonicalize_persisted v,
        canonicalizeItems_persisted vs]

theorem canonicalizeMembers_persisted : ∀ ms : List (String × JsValue),
    canonicalizeMembers (JsValue.persistedMembers ms) = canonicalizeMembers ms
  | [] => rfl
  | (k, v) :: ms => by
      by_cases h : isDropped v = true
      · simp only [JsValue.persistedMembers, canonicalizeMembers, if_pos h,
          canonicalizeMembers_persisted ms]
      · simp only [JsValue.persistedMembers, canonicalizeMembers, if_neg h,
          isDropped_persisted, Bool.false_eq_true, if_false, canonicalize_persisted v,
          canonicalizeMembers_persisted ms]

end

def hashEntry (crypto : Crypto) (seq : JsNumber) (ts : String) (type : AuditEventType)
    (payload : JsValue) (prevHash : String) : String :=
  crypto.sha256 (toString seq ++ "\n" ++ ts ++ "\n" ++ type.text ++ "\n" ++
    canonicalize payload ++ "\n" ++ prevHash)

/-! ## Appending -/

structure SigningKey where
  material : String
  version : Option String

/-- The closures the constructor of `AuditLog` sets up: the key for the next
append, and the key that verifies a given version.  Either may throw when a key
provider is behind it. -/
structure Signer where
  sign : Except String SigningKey
  resolveKey : Option String → Except String String

/-- A single operator key signs and verifies every entry. -/
def operatorSigner (key : String) : Signer where
  sign := .ok { material := key, version := none }
  resolveKey := fun _ => .ok key

structure AuditLog where
  signer : Signer
  entries : List AuditEntry

namespace AuditLog

/-- The entry that `append` would push. -/
def nextEntry (crypto : Crypto) (log : AuditLog) (key : SigningKey) (type : AuditEventType)
    (payload : JsValue) (ts : String) : AuditEntry :=
  let seq : JsNumber := log.entries.length
  let prevHash := (log.entries.getLast?.map AuditEntry.hash).getD genesis
  let hash := hashEntry crypto seq ts type payload prevHash
  { seq := seq
    ts := ts
    type := type
    payload := payload
    prevHash := prevHash
    hash := hash
    sig := crypto.hmacSha256 key.material hash
    keyVersion := key.version }

def append (crypto : Crypto) (log : AuditLog) (type : AuditEventType) (payload : JsValue)
    (ts : String) : Except String (AuditEntry × AuditLog) :=
  log.signer.sign.map fun key =>
    let entry := nextEntry crypto log key type payload ts
    (entry, { log with entries := log.entries ++ [entry] })

def appendGateDecision (crypto : Crypto) (log : AuditLog) (payload : JsValue)
    (policyHash : String) (ts : String) : Except String (AuditEntry × AuditLog) :=
  append crypto log .gateDecision (payload.withMember "policyHash" (.str policyHash)) ts

/-- Appending only adds: the signer stays, the entries grow by one that carries
the given type, payload and timestamp and the next sequence number. -/
theorem append_ok {crypto : Crypto} {log log' : AuditLog} {type : AuditEventType}
    {payload : JsValue} {ts : String} {entry : AuditEntry}
    (h : append crypto log type payload ts = .ok (entry, log')) :
    log'.signer = log.signer ∧ log'.entries = log.entries ++ [entry] ∧
      entry.type = type ∧ entry.payload = payload ∧ entry.ts = ts ∧
        entry.seq = log.entries.length := by
  unfold append at h
  cases hkey : log.signer.sign with
  | error e => rw [hkey] at h; cases h
  | ok key =>
      rw [hkey] at h
      cases h
      exact ⟨rfl, rfl, rfl, rfl, rfl, rfl⟩

/-- Only the signing key can make an append throw. -/
theorem append_total (crypto : Crypto) {log : AuditLog} {key : SigningKey}
    (hkey : log.signer.sign = .ok key) (type : AuditEventType) (payload : JsValue)
    (ts : String) : ∃ entry log', append crypto log type payload ts = .ok (entry, log') := by
  refine ⟨nextEntry crypto log key type payload ts,
    { log with entries := log.entries ++ [nextEntry crypto log key type payload ts] }, ?_⟩
  unfold append
  rw [hkey]
  rfl

theorem append_eq_ok_iff {crypto : Crypto} {log log' : AuditLog} {type : AuditEventType}
    {payload : JsValue} {ts : String} {entry : AuditEntry} :
    append crypto log type payload ts = .ok (entry, log') ↔
      ∃ key, log.signer.sign = .ok key ∧ entry = nextEntry crypto log key type payload ts ∧
        log' = { log with entries := log.entries ++ [entry] } := by
  unfold append
  cases log.signer.sign with
  | error e => simp [Except.map]
  | ok key =>
      simp only [Except.map, Except.ok.injEq, Prod.mk.injEq, exists_eq_left']
      constructor
      · rintro ⟨rfl, rfl⟩
        exact ⟨rfl, rfl⟩
      · rintro ⟨rfl, rfl⟩
        exact ⟨rfl, rfl⟩

end AuditLog

/-! ## Verifying -/

structure VerifyResult where
  valid : Bool
  /-- `seq` of the first entry that failed verification, if any -/
  brokenAt : Option JsNumber
  reason : Option String
  deriving DecidableEq

def VerifyResult.intact : VerifyResult where
  valid := true
  brokenAt := none
  reason := none

def VerifyResult.broken (e : AuditEntry) (reason : String) : VerifyResult where
  valid := false
  brokenAt := some e.seq
  reason := some reason

/-- The loop of `verify`.  Resolving a key may change the state of the provider
behind it, which is threaded through. -/
def verifyFrom {π : Type} (crypto : Crypto)
    (resolveKey : Option String → π → Except String String × π) :
    String → List AuditEntry → π → VerifyResult × π
  | _, [], p => (.intact, p)
  | prevHash, e :: es, p =>
      if e.prevHash ≠ prevHash then (.broken e "broken chain link", p)
      else if hashEntry crypto e.seq e.ts e.type e.payload e.prevHash ≠ e.hash then
        (.broken e "content hash mismatch", p)
      else
        match resolveKey e.keyVersion p with
        | (.error err, p) => (.broken e ("key resolution failed: " ++ err), p)
        | (.ok key, p) =>
            if crypto.hmacSha256 key e.hash ≠ e.sig then (.broken e "signature mismatch", p)
            else verifyFrom crypto resolveKey e.hash es p

def AuditLog.verify (crypto : Crypto) (log : AuditLog) : VerifyResult :=
  (verifyFrom crypto (fun version (p : Unit) => (log.signer.resolveKey version, p)) genesis
    log.entries ()).1

/-- The hash is of the content, and the signature is under the given key. -/
structure Sealed (crypto : Crypto) (key : String) (e : AuditEntry) : Prop where
  hash : hashEntry crypto e.seq e.ts e.type e.payload e.prevHash = e.hash
  sig : crypto.hmacSha256 key e.hash = e.sig

/-- Each entry names the hash of the one before it. -/
abbrev LinkedFrom (prevHash : String) (entries : List AuditEntry) : Prop :=
  Linked AuditEntry.prevHash AuditEntry.hash prevHash entries

section Verify

variable {π : Type} {crypto : Crypto} {resolveKey : Option String → π → Except String String × π}

/-- Linked and sealed entries whose keys resolve without a change of state
verify. -/
theorem verifyFrom_of_sealed {p : π} {entries : List AuditEntry} {prevHash : String}
    (hlinked : LinkedFrom prevHash entries)
    (hsealed : ∀ e ∈ entries, ∃ key, resolveKey e.keyVersion p = (.ok key, p) ∧
      Sealed crypto key e) :
    verifyFrom crypto resolveKey prevHash entries p = (.intact, p) := by
  induction entries generalizing prevHash with
  | nil => rfl
  | cons e es ih =>
      obtain ⟨hprev, hrest⟩ := hlinked
      obtain ⟨key, hkey, hseal⟩ := hsealed e (List.mem_cons_self ..)
      unfold verifyFrom
      rw [if_neg (not_not_intro hprev), if_neg (not_not_intro hseal.hash), hkey]
      simp only [if_neg (not_not_intro hseal.sig)]
      exact ih hrest fun e' he' => hsealed e' (List.mem_cons_of_mem _ he')

/-- What verifies is linked, and sealed under the keys that were resolved. -/
theorem sealed_of_verifyFrom (resolved : Option String → Except String String)
    (hpure : ∀ v p, (resolveKey v p).1 = resolved v) {p : π} {entries : List AuditEntry}
    {prevHash : String}
    (h : (verifyFrom crypto resolveKey prevHash entries p).1.valid = true) :
    LinkedFrom prevHash entries ∧
      ∀ e ∈ entries, ∃ key, resolved e.keyVersion = .ok key ∧ Sealed crypto key e := by
  induction entries generalizing prevHash p with
  | nil => exact ⟨trivial, by simp⟩
  | cons e es ih =>
      unfold verifyFrom at h
      split at h
      · cases h
      · next hprev =>
          split at h
          · cases h
          · next hhash =>
              have hresolved := hpure e.keyVersion p
              split at h
              · cases h
              · next key p' hkey =>
                  rw [hkey] at hresolved
                  split at h
                  · cases h
                  · next hsig =>
                      obtain ⟨hlinked, hsealed⟩ := ih h
                      refine ⟨⟨not_not.1 hprev, hlinked⟩, ?_⟩
                      intro e' he'
                      rcases List.mem_cons.1 he' with rfl | hmem
                      · exact ⟨key, hresolved.symm, not_not.1 hhash, not_not.1 hsig⟩
                      · exact hsealed e' hmem

/-- **What `verify` accepts**: a linked chain, each entry sealed under its key. -/
theorem AuditLog.verify_valid_iff {log : AuditLog} :
    (log.verify crypto).valid = true ↔ LinkedFrom genesis log.entries ∧
      ∀ e ∈ log.entries, ∃ key, log.signer.resolveKey e.keyVersion = .ok key ∧
        Sealed crypto key e := by
  constructor
  · intro h
    unfold AuditLog.verify at h
    exact sealed_of_verifyFrom log.signer.resolveKey (fun _ _ => rfl) h
  · rintro ⟨hlinked, hsealed⟩
    unfold AuditLog.verify
    rw [verifyFrom_of_sealed hlinked]
    · rfl
    · intro e he
      obtain ⟨key, hkey, hseal⟩ := hsealed e he
      exact ⟨key, by rw [hkey], hseal⟩

end Verify

/-- Entries are numbered one after another from the given number on. -/
def NumberedFrom (start : Nat) (entries : List AuditEntry) : Prop :=
  ∀ (i : Nat) (e : AuditEntry), entries[i]? = some e → e.seq = ((start + i : Nat) : JsNumber)

theorem numberedFrom_snoc {start : Nat} {entries : List AuditEntry} {e : AuditEntry}
    (h : NumberedFrom start entries) (he : e.seq = ((start + entries.length : Nat) : JsNumber)) :
    NumberedFrom start (entries ++ [e]) := by
  intro i e' hi
  rw [List.getElem?_append] at hi
  split at hi
  · exact h i e' hi
  · next hlast =>
      rw [List.getElem?_singleton] at hi
      split at hi
      · next hzero =>
          cases hi
          have hi' : i = entries.length := by omega
          rw [he, hi']
      · cases hi

theorem NumberedFrom.of_snoc {start : Nat} {entries : List AuditEntry} {e : AuditEntry}
    (h : NumberedFrom start (entries ++ [e])) :
    NumberedFrom start entries ∧ e.seq = ((start + entries.length : Nat) : JsNumber) := by
  constructor
  · intro i e' hi
    have hlt := (List.getElem?_eq_some_iff.1 hi).1
    exact h i e' (by rw [List.getElem?_append_left hlt, hi])
  · exact h entries.length e (by simp)

theorem NumberedFrom.of_prefix {start : Nat} {entries entries' : List AuditEntry}
    (h : NumberedFrom start entries') (hpre : entries <+: entries') :
    NumberedFrom start entries := by
  intro i e hi
  obtain ⟨hlt, hget⟩ := List.getElem?_eq_some_iff.1 hi
  refine h i e ?_
  rw [List.prefix_iff_getElem?.1 hpre i hlt, hget]

theorem NumberedFrom.nodup_seq {start : Nat} {entries : List AuditEntry}
    (h : NumberedFrom start entries) : (entries.map AuditEntry.seq).Nodup := by
  rw [List.Nodup, List.pairwise_map, List.pairwise_iff_getElem]
  intro i j hi hj hij heq
  have hseqi := h i entries[i] (List.getElem?_eq_getElem hi)
  have hseqj := h j entries[j] (List.getElem?_eq_getElem hj)
  rw [hseqi, hseqj, JsNumber.natCast_inj] at heq
  omega

/-- What verifies, verifies up to each of its entries. -/
theorem AuditLog.verify_of_prefix {crypto : Crypto} {signer : Signer}
    {entries entries' : List AuditEntry}
    (h : (AuditLog.verify crypto ⟨signer, entries'⟩).valid = true)
    (hpre : entries <+: entries') :
    (AuditLog.verify crypto ⟨signer, entries⟩).valid = true := by
  obtain ⟨hlinked, hsealed⟩ := AuditLog.verify_valid_iff.1 h
  exact AuditLog.verify_valid_iff.2
    ⟨hlinked.of_prefix hpre, fun e he => hsealed e (hpre.subset he)⟩

/-- The next entry links to the chain and is sealed. -/
theorem AuditLog.nextEntry_sealed (crypto : Crypto) (log : AuditLog) (key : SigningKey)
    (type : AuditEventType) (payload : JsValue) (ts : String) :
    Sealed crypto key.material (log.nextEntry crypto key type payload ts) := ⟨rfl, rfl⟩

theorem AuditLog.linkedFrom_nextEntry {crypto : Crypto} {log : AuditLog} {key : SigningKey}
    {type : AuditEventType} {payload : JsValue} {ts : String}
    (h : LinkedFrom genesis log.entries) :
    LinkedFrom genesis (log.entries ++ [log.nextEntry crypto key type payload ts]) :=
  linked_snoc_iff.2 ⟨h, rfl⟩

end AgentWorth
