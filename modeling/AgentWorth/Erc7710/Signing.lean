import AgentWorth.Erc7710.Codec
import AgentWorth.Erc7710.Hashing

/-!
# Signing a delegation

`delegationHash`, `signDelegation` and `verifyDelegation` of
`src/erc7710/index.ts`.  A signature is the 65 bytes of `r`, `s` and `27` plus
the recovery id; whoever verifies reads the three back, recovers a key and
compares its address with the delegator.
-/

namespace AgentWorth.Erc7710

open AgentWorth.Js AgentWorth.Lib

/-- The domain `hashTypedData` is given. -/
structure TypedDomain where
  name : String
  version : String
  chainId : JsNumber
  verifyingContract : String

/-- The message `hashTypedData` is given: caveats without their args. -/
structure TypedDelegation where
  delegate : String
  delegator : String
  authority : String
  caveats : List (String × String)
  salt : Int

/-- `hashTypedData` of viem, with the types of `delegationHash`. -/
abbrev HashTypedData := TypedDomain → TypedDelegation → Except String String

/-- A recoverable signature. -/
structure Signature where
  r : Nat
  s : Nat
  recovery : Nat

/-- What is used of `secp256k1`: `sign` without prehash, and
`new Signature(r, s, recovery).recoverPublicKey(digest).toBytes(false)`. -/
structure Secp where
  sign : List UInt8 → List UInt8 → Except String Signature
  recoverPublicKey : Signature → List UInt8 → Except String (List UInt8)

/-- A `Uint8Array | Hex`. -/
inductive PrivKey where
  | bytes (key : List UInt8)
  | hex (text : String)

def PrivKey.read : PrivKey → Except String (List UInt8)
  | .bytes key => .ok key
  | .hex text => hexToBytes text

def typedCaveat (c : Caveat) : Except String (String × String) :=
  (normalizeAddress c.enforcer).map fun enforcer => (enforcer, c.terms)

def typedDomain (domain : Eip712Domain) : Except String TypedDomain :=
  (normalizeAddress domain.verifyingContract).map fun contract =>
    { name := domainName domain
      version := domainVersion domain
      chainId := domain.chainId.toNumber
      verifyingContract := contract }

def typedDelegation (d : Delegation) : Except String TypedDelegation :=
  (normalizeAddress d.delegate).bind fun delegate =>
    (normalizeAddress d.delegator).bind fun delegator =>
      (d.caveats.mapM typedCaveat).map fun caveats =>
        { delegate := delegate
          delegator := delegator
          authority := d.authority
          caveats := caveats
          salt := d.salt }

structure VerifyResult where
  ok : Bool
  signer : Option String
  reason : Option String
  deriving DecidableEq

section Signing

variable (keccak : List UInt8 → List UInt8) (hashTypedData : HashTypedData) (secp : Secp)

def delegationHash (d : Delegation) (domain : Eip712Domain) : Except String String :=
  (typedDomain domain).bind fun typed => (typedDelegation d).bind (hashTypedData typed)

/-- The address of an uncompressed public key. -/
def addressFromPubKey (pub : List UInt8) : String :=
  let body := if pub.length = 65 then pub.drop 1 else pub
  let hash := keccak body
  bytesToHex (hash.drop (hash.length - 20))

def signDelegation (d : Delegation) (domain : Eip712Domain) (privKey : PrivKey) :
    Except String Delegation :=
  (delegationHash hashTypedData d domain).bind fun hash => (hexToBytes hash).bind fun digest =>
    privKey.read.bind fun priv => (secp.sign digest priv).bind fun sig =>
      (abiWord (.bigint sig.r)).bind fun r => (abiWord (.bigint sig.s)).map fun s =>
        { d with signature := bytesToHex (concatBytes [r, s, [UInt8.ofNat (27 + sig.recovery)]]) }

def verifyDelegation (d : Delegation) (domain : Eip712Domain) : Except String VerifyResult :=
  (hexToBytes d.signature).bind fun sigBytes =>
    if sigBytes.length ≠ 65 then
      .ok ⟨false, none,
        some ("signature must be 65 bytes (got " ++ toString sigBytes.length ++ ")")⟩
    else
      let r := bytesToBigint (slice sigBytes 0 32)
      let s := bytesToBigint (slice sigBytes 32 64)
      let v := (sigBytes.getD 64 0).toNat
      if v ≠ 27 ∧ v ≠ 28 then
        .ok ⟨false, none, some ("unsupported recovery id v=" ++ toString v ++
          " (EOA only, expected 27/28)")⟩
      else
        (delegationHash hashTypedData d domain).bind fun hash => (hexToBytes hash).map fun digest =>
          match secp.recoverPublicKey ⟨r, s, v - 27⟩ digest with
          | .error message => ⟨false, none, some ("recovery failed: " ++ message)⟩
          | .ok pub =>
              let signer := addressFromPubKey keccak pub
              if toLowerCase signer = toLowerCase d.delegator then ⟨true, some signer, none⟩
              else ⟨false, some signer, some "recovered signer != delegator"⟩

end Signing

/-! ## The typed-data hash -/

/-- A typed message as a delegation with nothing else in it. -/
def TypedDelegation.delegation (message : TypedDelegation) : Delegation where
  delegate := message.delegate
  delegator := message.delegator
  authority := message.authority
  caveats := message.caveats.map fun c => ⟨c.1, c.2, emptyArgs⟩
  salt := message.salt
  signature := "0x"

def TypedDomain.domain (domain : TypedDomain) : Eip712Domain where
  name := some domain.name
  version := some domain.version
  chainId := .number domain.chainId
  verifyingContract := domain.verifyingContract

/-- EIP-712 on these types: the digest of the domain separator and the struct
hash behind `0x1901`. -/
def eip712HashTypedData (keccak : List UInt8 → List UInt8) : HashTypedData :=
  fun domain message =>
    (domainSeparator keccak domain.domain).bind fun separator =>
      (hexToBytes separator).bind fun separatorBytes =>
        (delegationStructHash keccak message.delegation).bind fun struct =>
          (hexToBytes struct).map fun structBytes =>
            bytesToHex (keccak (concatBytes [[0x19, 0x01], separatorBytes, structBytes]))

/-- The domain with its chain id as `delegationHash` passes it on. -/
def numberedDomain (domain : Eip712Domain) : Eip712Domain :=
  { domain with chainId := .number domain.chainId.toNumber }

/-- One deployment: name, version, chain and contract, however spelled. -/
structure SameDomain (domain domain' : Eip712Domain) : Prop where
  name : domainName domain = domainName domain'
  version : domainVersion domain = domainVersion domain'
  chainId : domain.chainId.toNumber = domain'.chainId.toNumber
  contract : normalizeAddress domain.verifyingContract =
    normalizeAddress domain'.verifyingContract

/-- All that is hashed for a digest. -/
def digestInputs (keccak : List UInt8 → List UInt8) (x : DomainContent) (c : SignedContent) :
    List (List UInt8) :=
  concatBytes [[0x19, 0x01], keccak (x.input keccak), keccak (c.input keccak)] ::
    (x.inputs keccak ++ c.inputs keccak)

/-- Domains that differ in chain and contract share the other inputs. -/
theorem digestInputs_subset {keccak : List UInt8 → List UInt8} {x x' : DomainContent}
    (c : SignedContent) (hname : x'.name = x.name) (hversion : x'.version = x.version) :
    digestInputs keccak x c ++ digestInputs keccak x' c ⊆
      digestInputs keccak x c ++ (digestInputs keccak x' c).take 2 := by
  intro y hy
  cases List.mem_append.1 hy with
  | inl hy => exact List.mem_append_left _ hy
  | inr hy =>
      have hinputs : digestInputs keccak x' c = (digestInputs keccak x' c).take 2 ++
          ([textEncode x.name, textEncode x.version] ++ c.inputs keccak) := by
        unfold digestInputs DomainContent.inputs
        rw [hname, hversion]
        rfl
      rw [hinputs, List.mem_append] at hy
      cases hy with
      | inl hnew => exact List.mem_append_right _ hnew
      | inr hold =>
          exact List.mem_append_left _ (List.mem_cons_of_mem _ (List.mem_cons_of_mem _ hold))

theorem normalizeAddress_idem {addr a : String} (h : normalizeAddress addr = .ok a) :
    normalizeAddress a = .ok a :=
  (isAddress_of_normalize h).normalize

theorem addressWord_normalized {addr a : String} (h : normalizeAddress addr = .ok a) :
    addressWord a = addressWord addr := by
  unfold addressWord
  rw [h, normalizeAddress_idem h]

/-- Normalising a caveat keeps what is signed of it. -/
theorem signedCaveat_typed {c : Caveat} {typed : String × String} (h : typedCaveat c = .ok typed) :
    signedCaveat ⟨typed.1, typed.2, emptyArgs⟩ = signedCaveat c := by
  obtain ⟨enforcer, hnorm, rfl⟩ := except_map_eq_ok.1 h
  unfold signedCaveat
  rw [addressWord_normalized hnorm]

theorem mapM_signedCaveat_typed {caveats : List Caveat} {typed : List (String × String)}
    (h : caveats.mapM typedCaveat = .ok typed) :
    (typed.map fun c => (⟨c.1, c.2, emptyArgs⟩ : Caveat)).mapM signedCaveat =
      caveats.mapM signedCaveat := by
  induction caveats generalizing typed with
  | nil =>
      cases h
      rfl
  | cons c cs ih =>
      rw [List.mapM_cons] at h
      obtain ⟨t, ht, hrest⟩ := except_bind_eq_ok.1 h
      obtain ⟨ts, hts, heq⟩ := except_bind_eq_ok.1 hrest
      cases heq
      rw [List.map_cons, List.mapM_cons, List.mapM_cons, signedCaveat_typed ht, ih hts]

theorem signedContent_typed {d : Delegation} {message : TypedDelegation}
    (h : typedDelegation d = .ok message) :
    signedContent message.delegation = signedContent d := by
  obtain ⟨delegate, hdelegate, h⟩ := except_bind_eq_ok.1 h
  obtain ⟨delegator, hdelegator, h⟩ := except_bind_eq_ok.1 h
  obtain ⟨caveats, hcaveats, rfl⟩ := except_map_eq_ok.1 h
  unfold signedContent TypedDelegation.delegation
  simp only [mapM_signedCaveat_typed hcaveats, addressWord_normalized hdelegate,
    addressWord_normalized hdelegator]

theorem domainContent_typed {domain : Eip712Domain} {typed : TypedDomain}
    (h : typedDomain domain = .ok typed) :
    domainContent typed.domain = domainContent (numberedDomain domain) := by
  obtain ⟨contract, hnorm, rfl⟩ := except_map_eq_ok.1 h
  unfold domainContent TypedDomain.domain numberedDomain
  simp only [addressWord_normalized hnorm]
  rfl

/-- What is signed can be typed. -/
theorem exists_typedDelegation {d : Delegation} {c : SignedContent} (h : Reads d c) :
    ∃ message, typedDelegation d = .ok message := by
  have hcaveats : ∀ (caveats : List Caveat) (signed : List SignedCaveat),
      List.Forall₂ (fun x s => signedCaveat x = .ok s) caveats signed →
        ∃ typed, caveats.mapM typedCaveat = .ok typed := by
    intro caveats signed hread
    induction hread with
    | nil => exact ⟨[], rfl⟩
    | @cons x s xs ss hx _ ih =>
        obtain ⟨typed, htyped⟩ := ih
        obtain ⟨bytes, -, hnorm, -⟩ := addressWord_ok (signedCaveat_ok hx).2
        refine ⟨(bytesToHex bytes, x.terms) :: typed, ?_⟩
        rw [List.mapM_cons, htyped]
        unfold typedCaveat
        rw [hnorm]
        rfl
  obtain ⟨typed, htyped⟩ := hcaveats _ _ h.caveats
  obtain ⟨delegate, -, hdelegate, -⟩ := addressWord_ok h.delegate
  obtain ⟨delegator, -, hdelegator, -⟩ := addressWord_ok h.delegator
  unfold typedDelegation
  rw [hdelegate, hdelegator, htyped]
  exact ⟨_, rfl⟩

section Digest

variable {keccak : List UInt8 → List UInt8}

/-- The digest of a delegation, from what is signed. -/
theorem delegationHash_eip712 {d : Delegation} {domain : Eip712Domain} {c : SignedContent}
    {x : DomainContent} (hread : signedContent d = .ok c)
    (hdomain : domainContent (numberedDomain domain) = .ok x) :
    delegationHash (eip712HashTypedData keccak) d domain = .ok (bytesToHex (keccak
      (concatBytes [[0x19, 0x01], keccak (x.input keccak), keccak (c.input keccak)]))) := by
  obtain ⟨message, hmessage⟩ := exists_typedDelegation (reads_of_ok hread)
  have hcontract : ∃ typed, typedDomain domain = .ok typed := by
    obtain ⟨chainId, -, h⟩ := except_bind_eq_ok.1 hdomain
    obtain ⟨chainWord, -, h⟩ := except_bind_eq_ok.1 h
    obtain ⟨contract, haddress, -⟩ := except_map_eq_ok.1 h
    obtain ⟨bytes, -, hnorm, -⟩ := addressWord_ok haddress
    have hnorm' : normalizeAddress domain.verifyingContract = .ok (bytesToHex bytes) := hnorm
    unfold typedDomain
    rw [hnorm']
    exact ⟨_, rfl⟩
  obtain ⟨typed, htyped⟩ := hcontract
  unfold delegationHash
  rw [htyped, hmessage]
  simp only [Except.bind]
  unfold eip712HashTypedData
  rw [domainSeparator_eq, domainContent_typed htyped, hdomain, delegationStructHash_eq,
    signedContent_typed hmessage, hread]
  simp [Except.map, Except.bind]

theorem fin_of_toBigInt {x : JsNumber} {n : Int} (h : Js.toBigInt x = .ok n) :
    x = .fin (n : ℚ) := by
  cases x with
  | fin q =>
      unfold Js.toBigInt at h
      by_cases hden : q.den = 1
      · simp only [hden, if_true, Except.ok.injEq] at h
        rw [← h, Rat.den_eq_one_iff q |>.1 hden]
      · simp [hden] at h
  | _ => cases h

theorem numberedDomain_eq_iff {domain domain' : Eip712Domain} {x x' : DomainContent}
    (h : domainContent (numberedDomain domain) = .ok x)
    (h' : domainContent (numberedDomain domain') = .ok x') :
    x = x' ↔ SameDomain domain domain' := by
  obtain ⟨chainId, hchain, h⟩ := except_bind_eq_ok.1 h
  obtain ⟨chainWord, hword, h⟩ := except_bind_eq_ok.1 h
  obtain ⟨contract, hcontract, rfl⟩ := except_map_eq_ok.1 h
  obtain ⟨chainId', hchain', h'⟩ := except_bind_eq_ok.1 h'
  obtain ⟨chainWord', hword', h'⟩ := except_bind_eq_ok.1 h'
  obtain ⟨contract', hcontract', rfl⟩ := except_map_eq_ok.1 h'
  have hnumber : domain.chainId.toNumber = .fin (chainId : ℚ) := fin_of_toBigInt hchain
  have hnumber' : domain'.chainId.toNumber = .fin (chainId' : ℚ) := fin_of_toBigInt hchain'
  rw [DomainContent.mk.injEq]
  constructor
  · rintro ⟨hname, hversion, hchains, hcontracts⟩
    refine ⟨hname, hversion, ?_, (addressWord_eq_iff hcontract hcontract').1 hcontracts⟩
    rw [hnumber, hnumber', (saltWord_eq_iff hword hword').1 hchains]
  · intro hsame
    have hchains := hsame.chainId
    rw [hnumber, hnumber', JsNumber.fin.injEq] at hchains
    exact ⟨hsame.name, hsame.version,
      (saltWord_eq_iff hword hword').2 (by exact_mod_cast hchains),
      (addressWord_eq_iff hcontract hcontract').2 hsame.contract⟩

end Digest

namespace Sample

/-- The domain of a delegation manager on a chain. -/
def managerOn (chainId : JsNumber) : Eip712Domain where
  name := none
  version := none
  chainId := .number chainId
  verifyingContract := bytesToHex (List.replicate 20 0xdd)

/-- Its content. -/
def managerContent (chainWord : List UInt8) : DomainContent where
  name := "DelegationManager"
  version := "1"
  chainId := chainWord
  contract := wordOf 0xdd

theorem domainContent_managerOn {chainId : Nat} {chainWord : List UInt8}
    (h : abiWord (.bigint chainId) = .ok chainWord) :
    domainContent (numberedDomain (managerOn chainId)) = .ok (managerContent chainWord) := by
  have hint : (numberedDomain (managerOn chainId)).chainId.toBigInt = .ok (chainId : Int) :=
    toBigInt_natCast chainId
  have hcontract : addressWord (numberedDomain (managerOn chainId)).verifyingContract =
      .ok (wordOf 0xdd) := addressWord_bytesToHex List.length_replicate
  unfold domainContent
  rw [hint, hcontract]
  simp only [Except.bind, h]
  rfl

theorem domainContent_mainnet :
    domainContent (numberedDomain (managerOn (1 : Nat))) =
      .ok (managerContent (List.replicate 31 0 ++ [1])) :=
  domainContent_managerOn abiWord_salt

theorem domainContent_base :
    domainContent (numberedDomain (managerOn (8453 : Nat))) =
      .ok (managerContent (List.replicate 30 0 ++ [0x21, 0x05])) := by
  apply domainContent_managerOn
  rw [← except_toOption_eq_some]
  decide +kernel

end Sample

/-- The digest of a mandate's four caveats, as the typed-data hash has it. -/
example :
    let c : SignedContent :=
      { caveats :=
          [⟨Sample.wordOf 0x11, List.replicate 28 0 ++ [0x69, 0x7e, 0x97, 0x80]⟩,
            ⟨Sample.wordOf 0x33, Sample.wordOf 0xcc ++ (List.replicate 30 0 ++ [0xc3, 0x50])⟩,
            ⟨Sample.wordOf 0x44, List.replicate 20 0xcc ++
              (List.replicate 29 0 ++ [0x03, 0x0d, 0x40] ++ (List.replicate 29 0 ++
                [0x09, 0x3a, 0x80] ++ (List.replicate 28 0 ++ [0x69, 0x55, 0xb9, 0x00])))⟩,
            ⟨Sample.wordOf 0x66, List.replicate 20 0xaa⟩]
        delegate := Sample.wordOf 0xaa
        delegator := Sample.wordOf 0xbb
        authority := List.replicate 32 0xff
        salt := List.replicate 31 0 ++ [1] }
    let x := Sample.managerContent (List.replicate 31 0 ++ [1])
    Keccak.keccak256 (concatBytes [[0x19, 0x01], Keccak.keccak256 (x.input Keccak.keccak256),
        Keccak.keccak256 (c.input Keccak.keccak256)]) =
      [0xbf, 0x89, 0x75, 0x62, 0x70, 0x40, 0x65, 0xa2, 0x8c, 0xcf, 0x28, 0x0c, 0xe1, 0x65, 0x32,
        0x4c, 0x1f, 0x20, 0x2a, 0x08, 0xe8, 0xf9, 0x91, 0x8f, 0x36, 0x2c, 0xc7, 0x7e, 0xe8, 0xca,
        0x12, 0xc6] := by
  decide +kernel

section SignVerify

variable {keccak : List UInt8 → List UInt8} {hashTypedData : HashTypedData} {secp : Secp}

/-- What the curve promises of a key: what it signs recovers the public key, with
one of the two recovery ids of a point in range. -/
def RecoversAs (secp : Secp) (priv pub : List UInt8) : Prop :=
  ∀ digest sig, secp.sign digest priv = .ok sig →
    sig.recovery ≤ 1 ∧ secp.recoverPublicKey sig digest = .ok pub

/-- A delegation shown with other args. -/
structure ShownWithArgs (signed shown : Delegation) : Prop where
  delegate : shown.delegate = signed.delegate
  delegator : shown.delegator = signed.delegator
  authority : shown.authority = signed.authority
  salt : shown.salt = signed.salt
  signature : shown.signature = signed.signature
  caveats : List.Forall₂ (fun c c' => c.enforcer = c'.enforcer ∧ c.terms = c'.terms)
    shown.caveats signed.caveats

theorem mapM_typedCaveat_congr {cs cs' : List Caveat}
    (h : List.Forall₂ (fun c c' => c.enforcer = c'.enforcer ∧ c.terms = c'.terms) cs cs') :
    cs.mapM typedCaveat = cs'.mapM typedCaveat := by
  induction h with
  | nil => rfl
  | cons hc _ ih =>
      rw [List.mapM_cons, List.mapM_cons, ih]
      unfold typedCaveat
      rw [hc.1, hc.2]

/-- Neither args nor signature enter the digest. -/
theorem delegationHash_congr {d d' : Delegation} (hdelegate : d.delegate = d'.delegate)
    (hdelegator : d.delegator = d'.delegator) (hauthority : d.authority = d'.authority)
    (hsalt : d.salt = d'.salt)
    (hcaveats : List.Forall₂ (fun c c' => c.enforcer = c'.enforcer ∧ c.terms = c'.terms)
      d.caveats d'.caveats) (domain : Eip712Domain) :
    delegationHash hashTypedData d domain = delegationHash hashTypedData d' domain := by
  unfold delegationHash typedDelegation
  rw [hdelegate, hdelegator, hauthority, hsalt, mapM_typedCaveat_congr hcaveats]

/-- The three parts of a signature, read back from its bytes. -/
theorem signature_parts {r s : List UInt8} (hr : r.length = 32) (hs : s.length = 32) (v : UInt8) :
    slice (concatBytes [r, s, [v]]) 0 32 = r ∧ slice (concatBytes [r, s, [v]]) 32 64 = s ∧
      (concatBytes [r, s, [v]]).getD 64 0 = v ∧ (concatBytes [r, s, [v]]).length = 65 := by
  have hbytes : concatBytes [r, s, [v]] = r ++ (s ++ [v]) := by simp [concatBytes]
  rw [hbytes]
  refine ⟨?_, ?_, ?_, ?_⟩
  · exact slice_field [] r (s ++ [v]) rfl (by omega)
  · exact slice_field r s [v] hr (by omega)
  · rw [List.getD_append_right _ _ _ _ (by omega), List.getD_append_right _ _ _ _ (by omega), hr,
      hs]
    rfl
  · simp [hr, hs]

/-- **A signed delegation verifies for its key's address, and only for it**:
whatever args it is shown with, the signer is recovered from the 65 bytes, and the
verdict is whether it is the delegator. -/
theorem verifyDelegation_signDelegation {d signed shown : Delegation} {domain : Eip712Domain}
    {privKey : PrivKey} {priv pub : List UInt8} (hpriv : privKey.read = .ok priv)
    (hsecp : RecoversAs secp priv pub)
    (hsign : signDelegation hashTypedData secp d domain privKey = .ok signed)
    (hshown : ShownWithArgs signed shown) :
    verifyDelegation keccak hashTypedData secp shown domain = .ok
      (if toLowerCase (addressFromPubKey keccak pub) = toLowerCase d.delegator then
        ⟨true, some (addressFromPubKey keccak pub), none⟩
      else ⟨false, some (addressFromPubKey keccak pub), some "recovered signer != delegator"⟩) := by
  obtain ⟨hash, hhash, h⟩ := except_bind_eq_ok.1 hsign
  obtain ⟨digest, hdigest, h⟩ := except_bind_eq_ok.1 h
  obtain ⟨key, hkey, h⟩ := except_bind_eq_ok.1 h
  obtain ⟨sig, hsig, h⟩ := except_bind_eq_ok.1 h
  obtain ⟨r, hr, h⟩ := except_bind_eq_ok.1 h
  obtain ⟨s, hs, rfl⟩ := except_map_eq_ok.1 h
  have hkeys : key = priv := Except.ok.inj (hkey.symm.trans hpriv)
  subst hkeys
  obtain ⟨hrecovery, hrecover⟩ := hsecp digest sig hsig
  obtain ⟨-, hrlen, hrvalue⟩ := abiWord_bigint hr
  obtain ⟨-, hslen, hsvalue⟩ := abiWord_bigint hs
  obtain ⟨hrpart, hspart, hvpart, hlen⟩ :=
    signature_parts hrlen hslen (UInt8.ofNat (27 + sig.recovery))
  have hv : (UInt8.ofNat (27 + sig.recovery)).toNat = 27 + sig.recovery := by
    rw [UInt8.toNat_ofNat']
    omega
  have hsame : delegationHash hashTypedData shown domain = .ok hash := by
    rw [← hhash]
    exact delegationHash_congr hshown.delegate hshown.delegator hshown.authority hshown.salt
      hshown.caveats domain
  have hread : (⟨bytesToBigint r, bytesToBigint s, 27 + sig.recovery - 27⟩ : Signature) = sig := by
    unfold bytesToBigint
    rw [hrvalue, hsvalue, Nat.add_sub_cancel_left, Int.toNat_natCast, Int.toNat_natCast]
  unfold verifyDelegation
  rw [hshown.signature, hexToBytes_bytesToHex, hshown.delegator]
  simp only [Except.bind]
  rw [if_neg (not_not.2 hlen), hvpart, hv, if_neg (by omega), hsame]
  simp only [hrpart, hspart, hread]
  rw [hdigest]
  simp only [Except.map, hrecover]

end SignVerify

namespace Sample

/-- The public key of the secret key of thirty-two ones. -/
def pubKey : List UInt8 :=
  [0x04, 0x1b, 0x84, 0xc5, 0x56, 0x7b, 0x12, 0x64, 0x40, 0x99, 0x5d, 0x3e, 0xd5, 0xaa, 0xba,
    0x05, 0x65, 0xd7, 0x1e, 0x18, 0x34, 0x60, 0x48, 0x19, 0xff, 0x9c, 0x17, 0xf5, 0xe9, 0xd5,
    0xdd, 0x07, 0x8f, 0x70, 0xbe, 0xaf, 0x8f, 0x58, 0x8b, 0x54, 0x15, 0x07, 0xfe, 0xd6, 0xa6,
    0x42, 0xc5, 0xab, 0x42, 0xdf, 0xdf, 0x81, 0x20, 0xa7, 0xf6, 0x39, 0xde, 0x51, 0x22, 0xd4,
    0x7a, 0x69, 0xa8, 0xe8, 0xd1]

/-- The address of that key. -/
def ownAddress : List UInt8 :=
  [0x1a, 0x64, 0x2f, 0x0e, 0x3c, 0x3a, 0xf5, 0x45, 0xe7, 0xac, 0xbd, 0x38, 0xb0, 0x72, 0x51,
    0xb3, 0x99, 0x09, 0x14, 0xf1]

theorem addressFromPubKey_pubKey :
    addressFromPubKey Keccak.keccak256 pubKey = bytesToHex ownAddress := by
  have hhash : (Keccak.keccak256 (pubKey.drop 1)).drop 12 = ownAddress := by decide +kernel
  have hbody : (if pubKey.length = 65 then pubKey.drop 1 else pubKey) = pubKey.drop 1 := rfl
  unfold addressFromPubKey
  simp only [hbody, Keccak.length_keccak256, hhash]

/-- The grant from that key. -/
def ownGrant : Delegation := { grant with delegator := bytesToHex ownAddress }

def signatureR : Nat := 0x26efe57083f1ef39cd4c35d880aa464ef761f0bae362b380db4dfc631534b1aa

def signatureS : Nat := 0x331dcfa1dbd6299b3b48655baaaa45dd2cfb36e66df86e49dfcb04eeea3f90cf

/-- The curve on that grant, on the first chain: its signature, and the key it is
of. -/
def curve : Secp where
  sign _ _ := .ok ⟨signatureR, signatureS, 0⟩
  recoverPublicKey _ _ := .ok pubKey

theorem curve_recovers : RecoversAs curve (List.replicate 32 1) pubKey := by
  intro digest sig hsig
  cases hsig
  exact ⟨Nat.zero_le 1, rfl⟩

theorem signedContent_ownGrant : ∃ c, signedContent ownGrant = .ok c := by
  have hlen : ownAddress.length = 20 := rfl
  unfold signedContent ownGrant grant
  simp only [List.mapM_cons, List.mapM_nil, signedCaveat, hexToBytes_bytesToHex,
    addressWord_bytesToHex (List.length_replicate ..), addressWord_bytesToHex hlen, abiWord_salt,
    abiWord_root]
  exact ⟨_, rfl⟩

end Sample

/-- The key's own grant verifies, whatever args are added to it. -/
theorem verifyDelegation_signDelegation_own :
    ∃ signed, signDelegation (eip712HashTypedData Keccak.keccak256) Sample.curve Sample.ownGrant
        (Sample.managerOn (1 : Nat)) (.bytes (List.replicate 32 1)) = .ok signed ∧
      verifyDelegation Keccak.keccak256 (eip712HashTypedData Keccak.keccak256) Sample.curve
          { signed with
            caveats := [⟨bytesToHex (List.replicate 20 0x11), bytesToHex [0x01, 0xff], "0xbeef"⟩] }
          (Sample.managerOn (1 : Nat)) =
        .ok ⟨true, some (bytesToHex Sample.ownAddress), none⟩ := by
  obtain ⟨c, hc⟩ := Sample.signedContent_ownGrant
  obtain ⟨r, hr⟩ : ∃ r, abiWord (.bigint Sample.signatureR) = .ok r :=
    abiWord_bigint_of_lt (Int.natCast_nonneg _) (by decide +kernel)
  obtain ⟨s, hs⟩ : ∃ s, abiWord (.bigint Sample.signatureS) = .ok s :=
    abiWord_bigint_of_lt (Int.natCast_nonneg _) (by decide +kernel)
  have hsign : signDelegation (eip712HashTypedData Keccak.keccak256) Sample.curve Sample.ownGrant
      (Sample.managerOn (1 : Nat)) (.bytes (List.replicate 32 1)) =
        .ok { Sample.ownGrant with
          signature := bytesToHex (concatBytes [r, s, [UInt8.ofNat (27 + 0)]]) } := by
    obtain ⟨digest, hdigest⟩ : ∃ digest, delegationHash (eip712HashTypedData Keccak.keccak256)
        Sample.ownGrant (Sample.managerOn (1 : Nat)) = .ok (bytesToHex digest) :=
      ⟨_, delegationHash_eip712 hc Sample.domainContent_mainnet⟩
    unfold signDelegation
    rw [hdigest]
    simp only [Except.bind, hexToBytes_bytesToHex, PrivKey.read, Sample.curve, hr, hs, Except.map]
  refine ⟨_, hsign, (verifyDelegation_signDelegation rfl Sample.curve_recovers hsign
    ⟨rfl, rfl, rfl, rfl, rfl, List.Forall₂.cons ⟨rfl, rfl⟩ List.Forall₂.nil⟩).trans ?_⟩
  have hsigner : toLowerCase (bytesToHex Sample.ownAddress) =
      toLowerCase Sample.ownGrant.delegator := rfl
  rw [Sample.addressFromPubKey_pubKey, if_pos hsigner]

end AgentWorth.Erc7710
