import AgentWorth.Core.Audit
import AgentWorth.Lib.Effect
import AgentWorth.Lib.Map
import AgentWorth.Lib.Runs

/-!
# Key custody

`src/core/keyCustody.ts` and the provider mode of `AuditLog`: signing keys are
fetched from a KMS, have versions and are rotated, and each entry names the
version that signed it.  The KMS may answer or throw at every call, so its
answers are numbered by the calls made to it.
-/

namespace AgentWorth

open AgentWorth.Js AgentWorth.Lib

structure VersionedKey where
  version : String
  material : String
  deriving DecidableEq, Repr

/-- `getKey(keyId, version?)`: the answer to the `n`th call. -/
abbrev KmsClient := Nat → String → Option String → Except String VersionedKey

/-! ## The provider -/

/-- The state of a `KmsKeyProvider`; `calls` counts its calls of the client. -/
structure KmsKeyProvider where
  keyId : String
  cache : JsMap String
  currentVersion : String
  calls : Nat

namespace KmsKeyProvider

variable (client : KmsClient)

/-- Fetch from the KMS and cache.  A throw of the client propagates. -/
def fetch (version : Option String) (p : KmsKeyProvider) :
    Except String VersionedKey × KmsKeyProvider :=
  let called := { p with calls := p.calls + 1 }
  match client p.calls p.keyId version with
  | .error e => (.error e, called)
  | .ok key =>
      if key.material = "" then
        (.error ("KmsKeyProvider: KMS returned empty key material for version \"" ++
          key.version ++ "\""), called)
      else (.ok key, { called with cache := p.cache.set key.version key.material })

/-- Before the first fetch. -/
def blank (keyId : String) : KmsKeyProvider where
  keyId := keyId
  cache := .empty
  currentVersion := ""
  calls := 0

/-- The constructor. -/
def create (keyId : String) (version : Option String) : Except String KmsKeyProvider :=
  if keyId = "" then .error "KmsKeyProvider: keyId is required"
  else
    match fetch client version (blank keyId) with
    | (.error e, _) => .error e
    | (.ok key, p) => .ok { p with currentVersion := key.version }

/-- Pull the latest version and make it current. -/
def rotate (p : KmsKeyProvider) : Except String String × KmsKeyProvider :=
  match fetch client none p with
  | (.error e, p) => (.error e, p)
  | (.ok next, p) => (.ok next.version, { p with currentVersion := next.version })

def current (p : KmsKeyProvider) : Except String VersionedKey :=
  match p.cache.get p.currentVersion with
  | none => .error "KmsKeyProvider: current key material missing"
  | some material => .ok { version := p.currentVersion, material := material }

def resolve (version : String) (p : KmsKeyProvider) :
    Except String VersionedKey × KmsKeyProvider :=
  match p.cache.get version with
  | some material => (.ok { version := version, material := material }, p)
  | none => fetch client (some version) p

/-- The states a provider instance can be in. -/
inductive Instance (keyId : String) : KmsKeyProvider → Prop
  | created {version : Option String} {p : KmsKeyProvider}
      (made : create client keyId version = .ok p) : Instance keyId p
  | rotated {p : KmsKeyProvider} (prior : Instance keyId p) :
      Instance keyId (rotate client p).2
  | resolved {p : KmsKeyProvider} (prior : Instance keyId p) (version : String) :
      Instance keyId (resolve client version p).2

end KmsKeyProvider

/-! ## The log over a provider -/

/-- An `AuditLog` in provider mode, with the provider behind it. -/
structure ProviderLog where
  provider : KmsKeyProvider
  legacyKey : Option String
  entries : List AuditEntry

namespace ProviderLog

variable (crypto : Crypto) (client : KmsClient)

/-- `#sign`: the provider is asked at each append. -/
def sign (p : KmsKeyProvider) : Except String SigningKey :=
  p.current.map fun cur => { material := cur.material, version := some cur.version }

/-- `#resolveKey`: entries without a version verify under the legacy key. -/
def resolveKey (legacyKey : Option String) (version : Option String) (p : KmsKeyProvider) :
    Except String String × KmsKeyProvider :=
  match version with
  | some version =>
      let (key, p) := p.resolve client version
      (key.map VersionedKey.material, p)
  | none =>
      match legacyKey.filter (· ≠ "") with
      | some key => (.ok key, p)
      | none => (.error "entry has no keyVersion and no legacyKey was provided", p)

/-- The log as its closures see it now. -/
def asLog (log : ProviderLog) : AuditLog where
  signer :=
    { sign := sign log.provider
      resolveKey := fun version => (resolveKey client log.legacyKey version log.provider).1 }
  entries := log.entries

def verify (log : ProviderLog) : VerifyResult × KmsKeyProvider :=
  verifyFrom crypto (resolveKey client log.legacyKey) genesis log.entries log.provider

end ProviderLog

inductive CustodyAction where
  | append (type : AuditEventType) (payload : JsValue) (ts : String)
  | rotate
  | verify

inductive CustodyEvent where
  | appended (entry : AuditEntry)
  | rotated (version : String)
  | verified (result : VerifyResult)
  | threw (error : String)

/-- A log and its provider under appends, rotations and checks, in any order. -/
def custody (crypto : Crypto) (client : KmsClient) :
    System ProviderLog CustodyAction CustodyEvent where
  step log
    | .append type payload ts =>
        match (log.asLog client).append crypto type payload ts with
        | .ok (entry, log') => some ({ log with entries := log'.entries }, [.appended entry])
        | .error e => some (log, [.threw e])
    | .rotate =>
        match log.provider.rotate client with
        | (.ok version, p) => some ({ log with provider := p }, [.rotated version])
        | (.error e, p) => some ({ log with provider := p }, [.threw e])
    | .verify =>
        let (result, p) := log.verify crypto client
        some ({ log with provider := p }, [.verified result])

/-! ## What the KMS is trusted for -/

/-- It returns the version it was asked for, and one nonempty material for each
version. -/
structure Faithful (client : KmsClient) (keyId : String) (material : String → String) :
    Prop where
  asked : ∀ n v key, client n keyId (some v) = .ok key → key.version = v
  fixed : ∀ n version key, client n keyId version = .ok key →
    key.material = material key.version
  nonempty : ∀ v, material v ≠ ""

/-- Every cached version has its material. -/
structure Cached (keyId : String) (material : String → String) (p : KmsKeyProvider) : Prop where
  keyId_eq : p.keyId = keyId
  material_eq : ∀ v m, p.cache.get v = some m → m = material v

/-- The current version is cached too. -/
structure Custodian (keyId : String) (material : String → String) (p : KmsKeyProvider) : Prop
    extends Cached keyId material p where
  current : p.cache.get p.currentVersion = some (material p.currentVersion)

/-- Nothing leaves the cache. -/
def Retains (p p' : KmsKeyProvider) : Prop :=
  ∀ v m, p.cache.get v = some m → p'.cache.get v = some m

theorem Retains.refl (p : KmsKeyProvider) : Retains p p := fun _ _ h => h

theorem Retains.trans {p p' p'' : KmsKeyProvider} (h : Retains p p') (h' : Retains p' p'') :
    Retains p p'' := fun v m hm => h' v m (h v m hm)

section Provider

variable {client : KmsClient} {keyId : String} {material : String → String}
  {p : KmsKeyProvider}

/-- What a fetch leaves. -/
structure Fetched (keyId : String) (material : String → String) (p : KmsKeyProvider)
    (version : Option String) (r : Except String VersionedKey × KmsKeyProvider) : Prop where
  cached : Cached keyId material r.2
  retains : Retains p r.2
  currentVersion_eq : r.2.currentVersion = p.currentVersion
  answered : ∀ key, r.1 = .ok key → key.material = material key.version ∧
    r.2.cache.get key.version = some (material key.version) ∧
    ∀ v, version = some v → key.version = v

theorem fetch_spec (hclient : Faithful client keyId material) (hp : Cached keyId material p)
    (version : Option String) :
    Fetched keyId material p version (p.fetch client version) := by
  unfold KmsKeyProvider.fetch
  split
  · exact ⟨⟨hp.keyId_eq, hp.material_eq⟩, .refl p, rfl, by simp⟩
  · next key hanswer =>
      rw [hp.keyId_eq] at hanswer
      have hmaterial := hclient.fixed _ _ _ hanswer
      rw [if_neg (by rw [hmaterial]; exact hclient.nonempty _)]
      refine ⟨⟨hp.keyId_eq, ?_⟩, ?_, rfl, ?_⟩
      · intro v m hm
        simp only [JsMap.get_set] at hm
        split at hm
        · next hv =>
            cases hm
            rw [hv, hmaterial]
        · exact hp.material_eq v m hm
      · intro v m hm
        simp only [JsMap.get_set]
        split
        · next hv => rw [hmaterial, hp.material_eq v m hm, hv]
        · exact hm
      · intro key' hkey'
        cases hkey'
        refine ⟨hmaterial, by simp [hmaterial], ?_⟩
        rintro v rfl
        exact hclient.asked _ _ _ hanswer

theorem resolve_spec (hclient : Faithful client keyId material) (hp : Cached keyId material p)
    (version : String) :
    Fetched keyId material p (some version) (p.resolve client version) := by
  unfold KmsKeyProvider.resolve
  split
  · next m hm =>
      refine ⟨hp, .refl p, rfl, ?_⟩
      intro key hkey
      cases hkey
      have hmaterial := hp.material_eq version m hm
      rw [hmaterial] at hm
      exact ⟨hmaterial, hm, fun v hv => Option.some.inj hv⟩
  · exact fetch_spec hclient hp (some version)

theorem Fetched.custodian {version : Option String}
    {r : Except String VersionedKey × KmsKeyProvider} (h : Fetched keyId material p version r)
    (hp : Custodian keyId material p) : Custodian keyId material r.2 :=
  ⟨h.cached, by rw [h.currentVersion_eq]; exact h.retains _ _ hp.current⟩

theorem rotate_spec (hclient : Faithful client keyId material)
    (hp : Custodian keyId material p) :
    Custodian keyId material (p.rotate client).2 ∧ Retains p (p.rotate client).2 := by
  have hfetch := fetch_spec hclient hp.toCached none
  unfold KmsKeyProvider.rotate
  split
  · next e p' heq =>
      have hcustodian := hfetch.custodian hp
      rw [heq] at hfetch hcustodian
      exact ⟨hcustodian, hfetch.retains⟩
  · next next p' heq =>
      rw [heq] at hfetch
      obtain ⟨-, hcached, -⟩ := hfetch.answered next rfl
      exact ⟨⟨⟨hfetch.cached.keyId_eq, hfetch.cached.material_eq⟩, hcached⟩, hfetch.retains⟩

/-- A custodian can always sign. -/
theorem Custodian.current_eq (hp : Custodian keyId material p) :
    p.current = .ok { version := p.currentVersion, material := material p.currentVersion } := by
  unfold KmsKeyProvider.current
  rw [hp.current]

/-- Every instance over a faithful KMS is a custodian. -/
theorem custodian_of_instance (hclient : Faithful client keyId material)
    (h : KmsKeyProvider.Instance client keyId p) : Custodian keyId material p := by
  induction h with
  | @created version p made =>
      unfold KmsKeyProvider.create at made
      split at made
      · cases made
      · have hblank : Cached keyId material (.blank keyId) :=
          ⟨rfl, by simp [KmsKeyProvider.blank]⟩
        have hfetch := fetch_spec hclient hblank version
        split at made
        · cases made
        · next key p' heq =>
            cases made
            rw [heq] at hfetch
            obtain ⟨-, hcached, -⟩ := hfetch.answered key rfl
            exact ⟨⟨hfetch.cached.keyId_eq, hfetch.cached.material_eq⟩, hcached⟩
  | rotated prior ih => exact (rotate_spec hclient ih).1
  | resolved prior version ih =>
      exact (resolve_spec hclient ih.toCached version).custodian ih

end Provider

/-! ## Chains that stay verifiable -/

section Chain

variable {crypto : Crypto} {client : KmsClient} {keyId : String} {material : String → String}
  {legacyKey : Option String}

/-- The key a version has without a call of the KMS. -/
def keyAt (legacyKey : Option String) (p : KmsKeyProvider) : Option String → Option String
  | some version => p.cache.get version
  | none => legacyKey.filter (· ≠ "")

theorem resolveKey_of_keyAt {p : KmsKeyProvider} {version : Option String} {key : String}
    (h : keyAt legacyKey p version = some key) :
    ProviderLog.resolveKey client legacyKey version p = (.ok key, p) := by
  cases version with
  | none =>
      have h' : legacyKey.filter (· ≠ "") = some key := h
      simp only [ProviderLog.resolveKey, h']
  | some version =>
      have h' : p.cache.get version = some key := h
      simp only [ProviderLog.resolveKey, KmsKeyProvider.resolve, h']
      rfl

/-- The key of an entry is at hand, and sealed it. -/
def Keyed (crypto : Crypto) (legacyKey : Option String) (p : KmsKeyProvider)
    (e : AuditEntry) : Prop :=
  ∃ key, keyAt legacyKey p e.keyVersion = some key ∧ Sealed crypto key e

/-- A key at hand stays at hand while the cache retains it. -/
theorem Keyed.retained {p p' : KmsKeyProvider} {e : AuditEntry}
    (h : Keyed crypto legacyKey p e) (hretains : Retains p p') :
    Keyed crypto legacyKey p' e := by
  obtain ⟨key, hkey, hsealed⟩ := h
  refine ⟨key, ?_, hsealed⟩
  cases hversion : e.keyVersion with
  | none =>
      rw [hversion] at hkey
      exact hkey
  | some version =>
      rw [hversion] at hkey
      exact hretains _ _ hkey

/-- A linked chain whose keys are all at hand verifies without a call of the
KMS. -/
theorem verify_of_keyed {log : ProviderLog} (hlinked : LinkedFrom genesis log.entries)
    (hkeyed : ∀ e ∈ log.entries, Keyed crypto log.legacyKey log.provider e) :
    log.verify crypto client = (.intact, log.provider) := by
  refine verifyFrom_of_sealed hlinked ?_
  intro e he
  obtain ⟨key, hkey, hsealed⟩ := hkeyed e he
  exact ⟨key, resolveKey_of_keyAt hkey, hsealed⟩

/-- Resolving a key that answers puts it at hand. -/
theorem resolveKey_spec (hclient : Faithful client keyId material) {p p' : KmsKeyProvider}
    (hp : Custodian keyId material p) {version : Option String}
    {answer : Except String String}
    (h : ProviderLog.resolveKey client legacyKey version p = (answer, p')) :
    Custodian keyId material p' ∧ Retains p p' ∧
      ∀ key, answer = .ok key → keyAt legacyKey p' version = some key := by
  cases version with
  | none =>
      simp only [ProviderLog.resolveKey] at h
      split at h
      · next key hkey =>
          cases h
          exact ⟨hp, .refl p, fun key' hkey' => by cases hkey'; exact hkey⟩
      · cases h
        exact ⟨hp, .refl p, by simp⟩
  | some version =>
      have hresolved := resolve_spec hclient hp.toCached version
      simp only [ProviderLog.resolveKey, Prod.mk.injEq] at h
      obtain ⟨rfl, rfl⟩ := h
      refine ⟨hresolved.custodian hp, hresolved.retains, ?_⟩
      intro key hkey
      obtain ⟨answered, hanswered, rfl⟩ := except_map_eq_ok.1 hkey
      obtain ⟨hmaterial, hcached, hversion⟩ := hresolved.answered answered hanswered
      rw [hversion version rfl] at hmaterial hcached
      rw [hmaterial]
      exact hcached

/-- A chain that has verified has its keys at hand. -/
theorem keyed_of_verifyFrom (hclient : Faithful client keyId material)
    {entries : List AuditEntry} {prevHash : String} {p p' : KmsKeyProvider}
    {result : VerifyResult} (hp : Custodian keyId material p)
    (h : verifyFrom crypto (ProviderLog.resolveKey client legacyKey) prevHash entries p =
      (result, p')) (hvalid : result.valid = true) :
    Custodian keyId material p' ∧ Retains p p' ∧ LinkedFrom prevHash entries ∧
      ∀ e ∈ entries, Keyed crypto legacyKey p' e := by
  induction entries generalizing prevHash p with
  | nil =>
      cases h
      exact ⟨hp, .refl _, trivial, by simp⟩
  | cons e es ih =>
      unfold verifyFrom at h
      split at h
      · cases h
        cases hvalid
      · next hprev =>
          split at h
          · cases h
            cases hvalid
          · next hhash =>
              split at h
              · cases h
                cases hvalid
              · next key p₁ hkey =>
                  split at h
                  · cases h
                    cases hvalid
                  · next hsig =>
                      obtain ⟨hp₁, hretains, hat⟩ := resolveKey_spec hclient hp hkey
                      obtain ⟨hp', hretains', hlinked, hkeyed⟩ := ih hp₁ h
                      refine ⟨hp', hretains.trans hretains',
                        ⟨not_not.1 hprev, hlinked⟩, ?_⟩
                      intro e' he'
                      rcases List.mem_cons.1 he' with rfl | hmem
                      · exact Keyed.retained
                          ⟨key, hat key rfl, not_not.1 hhash, not_not.1 hsig⟩ hretains'
                      · exact hkeyed e' hmem

/-- What holds of a log after it has verified, through every step. -/
structure Consistent (crypto : Crypto) (keyId : String) (material : String → String)
    (legacyKey : Option String) (seed : List AuditEntry) (log : ProviderLog) : Prop where
  custodian : Custodian keyId material log.provider
  legacyKey_eq : log.legacyKey = legacyKey
  linked : LinkedFrom genesis log.entries
  keyed : ∀ e ∈ log.entries, Keyed crypto legacyKey log.provider e
  grown : ∃ appended, log.entries = seed ++ appended ∧
    ∀ (i : Nat) (e : AuditEntry), appended[i]? = some e →
      e.seq = ((seed.length + i : Nat) : JsNumber)

variable {seed : List AuditEntry} {log log' : ProviderLog} {a : CustodyAction}
  {es : List CustodyEvent}

theorem Consistent.verify (h : Consistent crypto keyId material legacyKey seed log) :
    log.verify crypto client = (.intact, log.provider) :=
  verify_of_keyed h.linked (by rw [h.legacyKey_eq]; exact h.keyed)

variable (client) in
theorem Consistent.append (h : Consistent crypto keyId material legacyKey seed log)
    (type : AuditEventType) (payload : JsValue) (ts : String) :
    ∃ entry, (log.asLog client).append crypto type payload ts =
        .ok (entry, { log.asLog client with entries := log.entries ++ [entry] }) ∧
      Consistent crypto keyId material legacyKey seed
        { log with entries := log.entries ++ [entry] } := by
  have hsign : (log.asLog client).signer.sign = .ok
      { material := material log.provider.currentVersion
        version := some log.provider.currentVersion } := by
    show ProviderLog.sign log.provider = _
    rw [ProviderLog.sign, h.custodian.current_eq]
    rfl
  refine ⟨_, AuditLog.append_eq_ok_iff.2 ⟨_, hsign, rfl, rfl⟩, h.custodian, h.legacyKey_eq,
    linked_snoc_iff.2 ⟨h.linked, rfl⟩, ?_, ?_⟩
  · intro e he
    rcases List.mem_append.1 he with hold | hnew
    · exact h.keyed e hold
    · rw [List.mem_singleton.1 hnew]
      exact ⟨_, h.custodian.current, ⟨rfl, rfl⟩⟩
  · obtain ⟨appended, hentries, hseq⟩ := h.grown
    refine ⟨_, by rw [hentries, List.append_assoc], numberedFrom_snoc hseq ?_⟩
    show ((log.entries.length : Nat) : JsNumber) = _
    rw [hentries, List.length_append]

/-- The step lemma: the invariant, and what a step leaves of the entries. -/
theorem custody_step (hclient : Faithful client keyId material)
    (h : Consistent crypto keyId material legacyKey seed log)
    (htaken : (custody crypto client).step log a = some (log', es)) :
    Consistent crypto keyId material legacyKey seed log' ∧ log.entries <+: log'.entries := by
  cases a with
  | append type payload ts =>
      obtain ⟨entry, happend, hnext⟩ := h.append client type payload ts
      simp only [custody, happend] at htaken
      cases htaken
      exact ⟨hnext, List.prefix_append _ _⟩
  | rotate =>
      obtain ⟨hcustodian, hretains⟩ := rotate_spec hclient h.custodian
      have hrotated : log' = { log with provider := (log.provider.rotate client).2 } := by
        simp only [custody] at htaken
        split at htaken
        · next heq => rw [heq]; cases htaken; rfl
        · next heq => rw [heq]; cases htaken; rfl
      subst hrotated
      exact ⟨⟨hcustodian, h.legacyKey_eq, h.linked,
        fun e he => (h.keyed e he).retained hretains, h.grown⟩, List.prefix_refl _⟩
  | verify =>
      simp only [custody, h.verify] at htaken
      cases htaken
      exact ⟨h, List.prefix_refl _⟩

/-- An append that throws changes nothing, whatever the state. -/
theorem append_threw {type : AuditEventType} {payload : JsValue} {ts error : String}
    (htaken : (custody crypto client).step log (.append type payload ts) = some (log', es))
    (hthrew : .threw error ∈ es) : log' = log := by
  simp only [custody] at htaken
  split at htaken
  · cases htaken
    simp at hthrew
  · cases htaken
    rfl

/-- **Appends and rotations keep a verified chain verifiable.**  In every run
from a seed that has verified under the same provider, the log verifies, each
step only adds to the entries and a failed append adds nothing, and the entries
appended are numbered from the length of the seed on, so a seed numbered from
zero is continued without a gap. -/
theorem custody_stays_verifiable {p : KmsKeyProvider}
    {steps : List (Step ProviderLog CustodyAction CustodyEvent)}
    (hclient : Faithful client keyId material)
    (hinstance : KmsKeyProvider.Instance client keyId p)
    (hverified : (ProviderLog.verify crypto client ⟨p, legacyKey, seed⟩).1.valid = true)
    (hrun : (custody crypto client).Run anyStep
      ⟨(ProviderLog.verify crypto client ⟨p, legacyKey, seed⟩).2, legacyKey, seed⟩ steps log) :
    (log.verify crypto client).1.valid = true ∧
    (∃ appended, log.entries = seed ++ appended ∧
      ∀ (i : Nat) (e : AuditEntry), appended[i]? = some e →
        e.seq = ((seed.length + i : Nat) : JsNumber)) ∧
    ((∀ (i : Nat) (e : AuditEntry), seed[i]? = some e → e.seq = (i : JsNumber)) →
      ∀ (i : Nat) (e : AuditEntry), log.entries[i]? = some e → e.seq = (i : JsNumber)) ∧
    ∀ t ∈ steps, t.before.entries <+: t.after.entries ∧
      ∀ type payload ts error, t.action = .append type payload ts →
        .threw error ∈ t.events → t.after = t.before := by
  obtain ⟨hcustodian, -, hlinked, hkeyed⟩ := keyed_of_verifyFrom hclient
    (custodian_of_instance hclient hinstance) rfl hverified
  have hinv : Consistent crypto keyId material legacyKey seed log ∧
      ∀ t ∈ steps, t.before.entries <+: t.after.entries := by
    refine hrun.invariant (fun steps log => Consistent crypto keyId material legacyKey seed log ∧
      ∀ t ∈ steps, t.before.entries <+: t.after.entries) ?_ ?_
    · exact ⟨⟨hcustodian, rfl, hlinked, hkeyed, [], by simp, by simp⟩, by simp⟩
    · rintro steps log a log' es ⟨h, hgrew⟩ - htaken
      obtain ⟨h', hprefix⟩ := custody_step hclient h htaken
      refine ⟨h', fun t ht => ?_⟩
      rcases List.mem_append.1 ht with hold | hnew
      · exact hgrew t hold
      · rw [List.mem_singleton.1 hnew]
        exact hprefix
  obtain ⟨h, hgrew⟩ := hinv
  refine ⟨by rw [h.verify]; rfl, h.grown, ?_, fun t ht => ⟨hgrew t ht, ?_⟩⟩
  · intro hseed i e hi
    obtain ⟨appended, hentries, hseq⟩ := h.grown
    rw [hentries, List.getElem?_append] at hi
    split at hi
    · exact hseed i e hi
    · next hlt =>
        rw [hseq _ e hi]
        congr 1
        omega
  · intro type payload ts error haction hthrew
    have htaken := hrun.taken_of_mem ht
    rw [haction] at htaken
    exact append_threw htaken hthrew

end Chain

/-! ## A seed numbered by its author -/

namespace Sample

/-- A KMS with one version. -/
def kms : KmsClient := fun _ _ version =>
  if version.getD "v1" = "v1" then .ok { version := "v1", material := "key-one" }
  else .error "no such version"

theorem faithful_kms : Faithful kms "audit" fun _ => "key-one" := by
  constructor
  · intro n v key h
    simp only [kms, Option.getD_some] at h
    split at h
    · next hv =>
        cases h
        exact hv.symm
    · cases h
  · intro n version key h
    simp only [kms] at h
    split at h
    · cases h
      rfl
    · cases h
  · intro v
    decide

def provider : KmsKeyProvider where
  keyId := "audit"
  cache := JsMap.empty.set "v1" "key-one"
  currentVersion := "v1"
  calls := 1

theorem instance_provider : KmsKeyProvider.Instance kms "audit" provider :=
  .created (show KmsKeyProvider.create kms "audit" none = .ok provider from rfl)

def echoCrypto : Crypto where
  sha256 := id
  hmacSha256 key text := key ++ text
  jcs _ := ""

/-- A sealed first entry, numbered `n`. -/
def seedEntry (n : JsNumber) : AuditEntry :=
  let hash := hashEntry echoCrypto n "2026-03-05T12:00:00.000Z" .paymentHalted .null genesis
  { seq := n
    ts := "2026-03-05T12:00:00.000Z"
    type := .paymentHalted
    payload := .null
    prevHash := genesis
    hash := hash
    sig := echoCrypto.hmacSha256 "key-one" hash
    keyVersion := some "v1" }

theorem verify_seed (n : JsNumber) :
    ProviderLog.verify echoCrypto kms ⟨provider, none, [seedEntry n]⟩ = (.intact, provider) :=
  verify_of_keyed ⟨rfl, trivial⟩ fun e he => by
    rw [List.mem_singleton.1 he]
    exact ⟨"key-one", rfl, rfl, rfl⟩

/-- The log over a verified seed of one entry. -/
def verifiedLog (n : JsNumber) : ProviderLog :=
  ⟨(ProviderLog.verify echoCrypto kms ⟨provider, none, [seedEntry n]⟩).2, none, [seedEntry n]⟩

def appendNote : CustodyAction :=
  .append .paymentHalted (.obj [("note", .undefined)]) "2026-03-05T12:00:01.000Z"

end Sample

/-- A rotation and an append after a seed numbered from zero. -/
theorem sample_custody_stays_verifiable : ∃ steps log,
    (custody Sample.echoCrypto Sample.kms).Run anyStep (Sample.verifiedLog 0) steps log ∧
      log.entries.length = 2 ∧ (log.verify Sample.echoCrypto Sample.kms).1.valid = true ∧
      ∀ (i : Nat) (e : AuditEntry), log.entries[i]? = some e → e.seq = (i : JsNumber) := by
  obtain ⟨steps, log, hrun, hlength⟩ := System.exists_run
    (custody Sample.echoCrypto Sample.kms) anyStep (Sample.verifiedLog 0)
    [.rotate, Sample.appendNote] (fun _ log => log.entries.length == 2) (by decide +kernel)
  have h := custody_stays_verifiable Sample.faithful_kms Sample.instance_provider
    (by rw [Sample.verify_seed]; rfl) hrun
  refine ⟨steps, log, hrun, by simpa using hlength, h.1, h.2.2.1 ?_⟩
  intro i e hi
  rw [List.getElem?_singleton] at hi
  split at hi
  · next hzero =>
      cases hi
      rw [hzero]
      rfl
  · cases hi

/-- `verify` does not look at the numbers: an entry sealed as number 5 verifies
as a seed, and the next entry is number 1. -/
theorem misnumbered_seed_verifies :
    Faithful Sample.kms "audit" (fun _ => "key-one") ∧
    KmsKeyProvider.Instance Sample.kms "audit" Sample.provider ∧
    (ProviderLog.verify Sample.echoCrypto Sample.kms
      ⟨Sample.provider, none, [Sample.seedEntry 5]⟩).1.valid = true ∧
    ∃ steps log,
      (custody Sample.echoCrypto Sample.kms).Run anyStep (Sample.verifiedLog 5) steps log ∧
      log.entries.map AuditEntry.seq = [5, 1] ∧
      ¬ ∀ (i : Nat) (e : AuditEntry), log.entries[i]? = some e → e.seq = (i : JsNumber) := by
  refine ⟨Sample.faithful_kms, Sample.instance_provider, by rw [Sample.verify_seed]; rfl, ?_⟩
  obtain ⟨steps, log, hrun, hseqs⟩ := System.exists_run
    (custody Sample.echoCrypto Sample.kms) anyStep (Sample.verifiedLog 5)
    [Sample.appendNote] (fun _ log => log.entries.map AuditEntry.seq == [5, 1])
    (by decide +kernel)
  have hseqs' : log.entries.map AuditEntry.seq = [5, 1] := by simpa using hseqs
  refine ⟨steps, log, hrun, hseqs', ?_⟩
  intro hnumbered
  have hfirst := congrArg (·[0]?) hseqs'
  simp only [List.getElem?_map, List.getElem?_cons_zero] at hfirst
  obtain ⟨e, he, hseq⟩ := Option.map_eq_some_iff.1 hfirst
  rw [hnumbered 0 e he] at hseq
  exact absurd hseq (by decide)

end AgentWorth
