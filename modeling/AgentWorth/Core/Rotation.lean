import AgentWorth.Core.KeyCustody
import AgentWorth.Lib.Json

/-!
# Chains under a key provider

`AuditLog` over any `KeyProvider`: each append is signed with the key that is
current then, and between appends the provider may rotate.
-/

namespace AgentWorth

open AgentWorth.Js AgentWorth.Lib

/-- The interface `KeyProvider`, over the state of the object behind it.
`changes` is what may happen to that object between two calls of a log, a
rotation among it.  Whatever happens, the key of a version that was given out
stays resolvable. -/
structure KeyProvider (π : Type) where
  current : π → Except String VersionedKey
  resolve : String → π → Except String VersionedKey × π
  changes : π → π → Prop
  resolve_current : ∀ {p key}, current p = .ok key → resolve key.version p = (.ok key, p)
  resolve_kept : ∀ {p p' version key}, resolve version p = (.ok key, p) → changes p p' →
    resolve version p' = (.ok key, p')

namespace KeyProvider

variable {π : Type} (K : KeyProvider π)

/-- `#sign`. -/
def sign (p : π) : Except String SigningKey :=
  (K.current p).map fun cur => { material := cur.material, version := some cur.version }

/-- `#resolveKey`. -/
def resolveKey (legacyKey : Option String) : Option String → π → Except String String × π
  | some version, p =>
      let (key, p) := K.resolve version p
      (key.map VersionedKey.material, p)
  | none, p =>
      match legacyKey.filter (· ≠ "") with
      | some key => (.ok key, p)
      | none => (.error "entry has no keyVersion and no legacyKey was provided", p)

/-- The closures of `new AuditLog(provider, seed, { legacyKey })`. -/
def signer (legacyKey : Option String) (p : π) : Signer where
  sign := K.sign p
  resolveKey version := (K.resolveKey legacyKey version p).1

/-- `new AuditLog(provider, seed, { legacyKey }).verify()`. -/
def verify (crypto : Crypto) (legacyKey : Option String) (seed : List AuditEntry) (p : π) :
    VerifyResult :=
  (verifyFrom crypto (K.resolveKey legacyKey) genesis seed p).1

/-- The chains a log appends from nothing, with the provider at the end. -/
inductive Chain (crypto : Crypto) (legacyKey : Option String) : π → List AuditEntry → Prop
  | start (p : π) : Chain crypto legacyKey p []
  | append {p : π} {es : List AuditEntry} {type : AuditEventType} {payload : JsValue}
      {ts : String} {entry : AuditEntry} {log : AuditLog} (prior : Chain crypto legacyKey p es)
      (plain : payload.WellFormed)
      (appended : AuditLog.append crypto ⟨K.signer legacyKey p, es⟩ type payload ts =
        .ok (entry, log)) : Chain crypto legacyKey p log.entries
  | changed {p p' : π} {es : List AuditEntry} (prior : Chain crypto legacyKey p es)
      (change : K.changes p p') : Chain crypto legacyKey p' es

/-- The key of an entry is at hand, and sealed it. -/
def Keyed (crypto : Crypto) (p : π) (e : AuditEntry) : Prop :=
  ∃ version key, e.keyVersion = some version ∧ K.resolve version p = (.ok key, p) ∧
    Sealed crypto key.material e

variable {K} {crypto : Crypto} {legacyKey : Option String} {p : π} {es : List AuditEntry}

/-- A linked chain whose keys are at hand verifies. -/
theorem verify_of_keyed (hlinked : LinkedFrom genesis es)
    (hkeyed : ∀ e ∈ es, K.Keyed crypto p e) : K.verify crypto legacyKey es p = .intact := by
  unfold verify
  rw [verifyFrom_of_sealed hlinked]
  intro e he
  obtain ⟨version, key, hversion, hresolve, hsealed⟩ := hkeyed e he
  refine ⟨key.material, ?_, hsealed⟩
  rw [hversion]
  simp only [resolveKey, hresolve]
  rfl

/-- What holds of an appended chain. -/
structure Appended (K : KeyProvider π) (crypto : Crypto) (p : π) (es : List AuditEntry) :
    Prop where
  linked : LinkedFrom genesis es
  keyed : ∀ e ∈ es, K.Keyed crypto p e
  plain : ∀ e ∈ es, e.payload.WellFormed
  numbered : NumberedFrom 0 es

theorem Chain.appended (h : K.Chain crypto legacyKey p es) : Appended K crypto p es := by
  induction h with
  | start p => exact ⟨trivial, by simp, by simp, fun _ _ h => by simp at h⟩
  | @append p es type payload ts entry log prior plain appended ih =>
      obtain ⟨key, hsign, rfl, rfl⟩ := AuditLog.append_eq_ok_iff.1 appended
      obtain ⟨cur, hcur, rfl⟩ := except_map_eq_ok.1 hsign
      refine ⟨AuditLog.linkedFrom_nextEntry ih.linked, ?_, ?_, ?_⟩
      · intro e he
        rcases List.mem_append.1 he with hold | hnew
        · exact ih.keyed e hold
        · rw [List.mem_singleton.1 hnew]
          exact ⟨cur.version, cur, rfl, K.resolve_current hcur, ⟨rfl, rfl⟩⟩
      · intro e he
        rcases List.mem_append.1 he with hold | hnew
        · exact ih.plain e hold
        · rw [List.mem_singleton.1 hnew]
          exact plain
      · refine numberedFrom_snoc ih.numbered ?_
        rw [Nat.zero_add]
        rfl
  | changed prior change ih =>
      refine ⟨ih.linked, ?_, ih.plain, ih.numbered⟩
      intro e he
      obtain ⟨version, key, hversion, hresolve, hsealed⟩ := ih.keyed e he
      exact ⟨version, key, hversion, K.resolve_kept hresolve change, hsealed⟩

end KeyProvider

/-! ## The KMS provider -/

/-- A version that resolves without a call of the KMS is cached. -/
theorem cached_of_resolve {client : KmsClient} {p : KmsKeyProvider} {version : String}
    {key : VersionedKey} (h : p.resolve client version = (.ok key, p)) :
    p.cache.get version = some key.material ∧ key.version = version := by
  unfold KmsKeyProvider.resolve at h
  split at h
  · next m hm =>
      cases h
      exact ⟨hm, rfl⟩
  · have hcalls := congrArg (fun r => r.2.calls) h
    unfold KmsKeyProvider.fetch at hcalls
    split at hcalls
    · simp at hcalls
    · split at hcalls <;> simp at hcalls

/-- Instances of `KmsKeyProvider` over a faithful KMS are key providers; what
happens to them are rotations and fetches. -/
def kmsProvider {client : KmsClient} {keyId : String} {material : String → String}
    (hclient : Faithful client keyId material) :
    KeyProvider { p : KmsKeyProvider // Custodian keyId material p } where
  current p := p.1.current
  resolve version p :=
    ((p.1.resolve client version).1,
      ⟨(p.1.resolve client version).2,
        (resolve_spec hclient p.2.toCached version).custodian p.2⟩)
  changes p p' :=
    p'.1 = (p.1.rotate client).2 ∨ ∃ version, p'.1 = (p.1.resolve client version).2
  resolve_current {p key} hcurrent := by
    rw [p.2.current_eq] at hcurrent
    cases hcurrent
    simp only [KmsKeyProvider.resolve, p.2.current]
  resolve_kept {p p' version key} hresolve hchanges := by
    simp only [Prod.mk.injEq, Subtype.ext_iff] at hresolve ⊢
    obtain ⟨hcached, rfl⟩ := cached_of_resolve (Prod.ext hresolve.1 hresolve.2)
    have hretains : Retains p.1 p'.1 := by
      rcases hchanges with hrotated | ⟨v, hresolved⟩
      · rw [hrotated]
        exact (rotate_spec hclient p.2).2
      · rw [hresolved]
        exact (resolve_spec hclient p.2.toCached v).retains
    simp only [KmsKeyProvider.resolve, hretains _ _ hcached, and_self]

end AgentWorth
