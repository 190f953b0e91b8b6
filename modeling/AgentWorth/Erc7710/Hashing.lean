import AgentWorth.Erc7710.Delegation
import AgentWorth.Lib.Commitment
import AgentWorth.Lib.Keccak

/-!
# What a delegation's hash commits to

`domainSeparator`, `delegationStructHash`, `signDelegation` and
`verifyDelegation` of `src/erc7710/index.ts`.  Keccak, the curve and viem's
typed-data hash come from outside; the layout of what is hashed, and of the 65
bytes of a signature, is the module's own.
-/

namespace AgentWorth.Erc7710

open AgentWorth.Js AgentWorth.Lib

/-- `new TextEncoder().encode(s)`. -/
def textEncode (s : String) : List UInt8 := s.toList.flatMap String.utf8EncodeChar

/-- `DELEGATION_TYPE_STRING`. -/
def delegationTypeString : String :=
  "Delegation(address delegate,address delegator,bytes32 authority,Caveat[] caveats," ++
    "uint256 salt)Caveat(address enforcer,bytes terms)"

/-- `CAVEAT_TYPE_STRING`. -/
def caveatTypeString : String := "Caveat(address enforcer,bytes terms)"

/-- `EIP712_DOMAIN_TYPE_STRING`. -/
def eip712DomainTypeString : String :=
  "EIP712Domain(string name,string version,uint256 chainId,address verifyingContract)"

/-- A `number | bigint`. -/
inductive ChainId where
  | number (x : JsNumber)
  | bigint (v : Int)

/-- `BigInt(chainId)`. -/
def ChainId.toBigInt : ChainId → Except String Int
  | .number x => Js.toBigInt x
  | .bigint v => .ok v

/-- `Number(chainId)`. -/
def ChainId.toNumber : ChainId → JsNumber
  | .number x => x
  | .bigint v => if v < 0 then -ofBigInt (-v).toNat else ofBigInt v.toNat

structure Eip712Domain where
  name : Option String
  version : Option String
  chainId : ChainId
  verifyingContract : String

def domainName (domain : Eip712Domain) : String := domain.name.getD "DelegationManager"

def domainVersion (domain : Eip712Domain) : String := domain.version.getD "1"

section Hashes

variable (keccak : List UInt8 → List UInt8)

def domainSeparator (domain : Eip712Domain) : Except String String :=
  let typeHash := keccak (textEncode eip712DomainTypeString)
  let nameHash := keccak (textEncode (domainName domain))
  let versionHash := keccak (textEncode (domainVersion domain))
  domain.chainId.toBigInt.bind fun chainId =>
    (abiWord (.bigint chainId)).bind fun chainWord =>
      (normalizeAddress domain.verifyingContract).bind fun contract =>
        (abiWord (.hex contract)).map fun contractWord =>
          bytesToHex (keccak
            (concatBytes [typeHash, nameHash, versionHash, chainWord, contractWord]))

/-- The hash of one caveat; its `args` are left out. -/
def caveatHash (c : Caveat) : Except String (List UInt8) :=
  (hexToBytes c.terms).bind fun terms =>
    (normalizeAddress c.enforcer).bind fun enforcer =>
      (abiWord (.hex enforcer)).map fun enforcerWord =>
        keccak (concatBytes [keccak (textEncode caveatTypeString), enforcerWord, keccak terms])

/-- The struct hash of a delegation, without the domain. -/
def delegationStructHash (d : Delegation) : Except String String :=
  (d.caveats.mapM (caveatHash keccak)).bind fun caveatHashes =>
    (normalizeAddress d.delegate).bind fun delegate =>
      (abiWord (.hex delegate)).bind fun delegateWord =>
        (normalizeAddress d.delegator).bind fun delegator =>
          (abiWord (.hex delegator)).bind fun delegatorWord =>
            (abiWord (.hex d.authority)).bind fun authorityWord =>
              (abiWord (.bigint d.salt)).map fun saltWord =>
                bytesToHex (keccak (concatBytes
                  [keccak (textEncode delegationTypeString), delegateWord, delegatorWord,
                    authorityWord, keccak (concatBytes caveatHashes), saltWord]))

end Hashes

/-! ## What is signed -/

/-- A caveat as it is signed: which enforcer, and the bytes of its terms. -/
structure SignedCaveat where
  enforcer : List UInt8
  terms : List UInt8
  deriving DecidableEq

/-- A delegation as it is signed: words, and the caveats in their order. -/
structure SignedContent where
  caveats : List SignedCaveat
  delegate : List UInt8
  delegator : List UInt8
  authority : List UInt8
  salt : List UInt8
  deriving DecidableEq

/-- The word of an address in any spelling. -/
def addressWord (addr : String) : Except String (List UInt8) :=
  (normalizeAddress addr).bind fun a => abiWord (.hex a)

def signedCaveat (c : Caveat) : Except String SignedCaveat :=
  (hexToBytes c.terms).bind fun terms =>
    (addressWord c.enforcer).map fun enforcer => ⟨enforcer, terms⟩

/-- What a delegation says, apart from spelling, args and signature. -/
def signedContent (d : Delegation) : Except String SignedContent :=
  (d.caveats.mapM signedCaveat).bind fun caveats =>
    (addressWord d.delegate).bind fun delegate =>
      (addressWord d.delegator).bind fun delegator =>
        (abiWord (.hex d.authority)).bind fun authority =>
          (abiWord (.bigint d.salt)).map fun salt =>
            ⟨caveats, delegate, delegator, authority, salt⟩

section Inputs

variable (keccak : List UInt8 → List UInt8)

/-- What is hashed for a caveat. -/
def SignedCaveat.input (c : SignedCaveat) : List UInt8 :=
  concatBytes [keccak (textEncode caveatTypeString), c.enforcer, keccak c.terms]

/-- What is hashed for the list of caveats. -/
def SignedContent.caveatsInput (c : SignedContent) : List UInt8 :=
  concatBytes (c.caveats.map fun caveat => keccak (caveat.input keccak))

/-- What is hashed for the delegation. -/
def SignedContent.input (c : SignedContent) : List UInt8 :=
  concatBytes [keccak (textEncode delegationTypeString), c.delegate, c.delegator, c.authority,
    keccak (c.caveatsInput keccak), c.salt]

/-- All that is hashed for it, the type strings apart. -/
def SignedContent.inputs (c : SignedContent) : List (List UInt8) :=
  c.input keccak :: c.caveatsInput keccak ::
    (c.caveats.map (SignedCaveat.input keccak) ++ c.caveats.map SignedCaveat.terms)

end Inputs

/-- The same content, in whatever spelling, args and signature. -/
structure SameSigned (d d' : Delegation) : Prop where
  delegate : normalizeAddress d.delegate = normalizeAddress d'.delegate
  delegator : normalizeAddress d.delegator = normalizeAddress d'.delegator
  authority : abiWord (.hex d.authority) = abiWord (.hex d'.authority)
  salt : d.salt = d'.salt
  caveats : List.Forall₂ (fun c c' => normalizeAddress c.enforcer = normalizeAddress c'.enforcer ∧
    hexToBytes c.terms = hexToBytes c'.terms) d.caveats d'.caveats

/-- A domain as it is signed. -/
structure DomainContent where
  name : String
  version : String
  chainId : List UInt8
  contract : List UInt8
  deriving DecidableEq

def domainContent (domain : Eip712Domain) : Except String DomainContent :=
  domain.chainId.toBigInt.bind fun chainId => (abiWord (.bigint chainId)).bind fun chainWord =>
    (addressWord domain.verifyingContract).map fun contract =>
      ⟨domainName domain, domainVersion domain, chainWord, contract⟩

/-- What is hashed for a domain. -/
def DomainContent.input (keccak : List UInt8 → List UInt8) (c : DomainContent) : List UInt8 :=
  concatBytes [keccak (textEncode eip712DomainTypeString), keccak (textEncode c.name),
    keccak (textEncode c.version), c.chainId, c.contract]

/-- All that is hashed for it, the type string apart. -/
def DomainContent.inputs (keccak : List UInt8 → List UInt8) (c : DomainContent) :
    List (List UInt8) :=
  [c.input keccak, textEncode c.name, textEncode c.version]

/-! ## The layout -/

theorem textEncode_injective : Function.Injective textEncode := by
  intro s t h
  have hbytes : s.toList.utf8Encode = t.toList.utf8Encode := by
    unfold List.utf8Encode
    unfold textEncode at h
    rw [h]
  rw [← String.toByteArray_ofList, ← String.toByteArray_ofList, String.ofList_toList,
    String.ofList_toList] at hbytes
  exact String.toByteArray_inj.1 hbytes

section Layout

variable {keccak : List UInt8 → List UInt8}

theorem caveatHash_eq (c : Caveat) :
    caveatHash keccak c = (signedCaveat c).map fun s => keccak (s.input keccak) := by
  unfold caveatHash signedCaveat addressWord
  cases hexToBytes c.terms with
  | error e => rfl
  | ok terms =>
      cases normalizeAddress c.enforcer with
      | error e => rfl
      | ok enforcer =>
          simp only [Except.bind, Except.map]
          cases abiWord (.hex enforcer) <;> rfl

theorem mapM_caveatHash (caveats : List Caveat) :
    caveats.mapM (caveatHash keccak) =
      (caveats.mapM signedCaveat).map fun cs => cs.map fun s => keccak (s.input keccak) := by
  induction caveats with
  | nil => rfl
  | cons c cs ih =>
      rw [List.mapM_cons, List.mapM_cons, ih, caveatHash_eq]
      cases signedCaveat c with
      | error e => rfl
      | ok s => cases cs.mapM signedCaveat <;> rfl

/-- **The struct hash is a hash of the content**, throwing where it does. -/
theorem delegationStructHash_eq (d : Delegation) :
    delegationStructHash keccak d =
      (signedContent d).map fun c => bytesToHex (keccak (c.input keccak)) := by
  unfold delegationStructHash signedContent addressWord
  rw [mapM_caveatHash]
  cases d.caveats.mapM signedCaveat with
  | error e => rfl
  | ok caveats =>
      simp only [Except.bind, Except.map]
      cases normalizeAddress d.delegate with
      | error e => rfl
      | ok delegate =>
          simp only
          cases abiWord (.hex delegate) with
          | error e => rfl
          | ok delegateWord =>
              simp only
              cases normalizeAddress d.delegator with
              | error e => rfl
              | ok delegator =>
                  simp only
                  cases abiWord (.hex delegator) with
                  | error e => rfl
                  | ok delegatorWord =>
                      simp only
                      cases abiWord (.hex d.authority) with
                      | error e => rfl
                      | ok authorityWord =>
                          simp only
                          cases abiWord (.bigint d.salt) <;> rfl

/-- The domain separator is a hash of the domain. -/
theorem domainSeparator_eq (domain : Eip712Domain) :
    domainSeparator keccak domain =
      (domainContent domain).map fun c => bytesToHex (keccak (c.input keccak)) := by
  unfold domainSeparator domainContent addressWord
  cases domain.chainId.toBigInt with
  | error e => rfl
  | ok chainId =>
      simp only [Except.bind, Except.map]
      cases abiWord (.bigint chainId) with
      | error e => rfl
      | ok chainWord =>
          simp only
          cases normalizeAddress domain.verifyingContract with
          | error e => rfl
          | ok contract =>
              simp only
              cases abiWord (.hex contract) <;> rfl

end Layout

/-! ## Widths -/

theorem length_abiWord {v : AbiValue} {word : List UInt8} (h : abiWord v = .ok word) :
    word.length = 32 := by
  obtain ⟨bytes, -, hpad⟩ := except_bind_eq_ok.1 h
  by_cases hlong : 32 < bytes.length
  · rw [if_pos hlong] at hpad
    cases hpad
  · rw [if_neg hlong] at hpad
    cases hpad
    rw [List.length_append, List.length_replicate]
    omega

theorem addressWord_ok {addr : String} {word : List UInt8} (h : addressWord addr = .ok word) :
    ∃ bytes : List UInt8, bytes.length = 20 ∧ normalizeAddress addr = .ok (bytesToHex bytes) ∧
      word = List.replicate 12 0 ++ bytes := by
  obtain ⟨a, hnorm, hword⟩ := except_bind_eq_ok.1 h
  obtain ⟨bytes, hlen, rfl⟩ := isAddress_of_normalize hnorm
  rw [abiWord_address hlen] at hword
  exact ⟨bytes, hlen, hnorm, (Except.ok.inj hword).symm⟩

/-- The word of an address is the address. -/
theorem addressWord_eq_iff {addr addr' : String} {word word' : List UInt8}
    (h : addressWord addr = .ok word) (h' : addressWord addr' = .ok word') :
    word = word' ↔ normalizeAddress addr = normalizeAddress addr' := by
  obtain ⟨bytes, hlen, hnorm, rfl⟩ := addressWord_ok h
  obtain ⟨bytes', hlen', hnorm', rfl⟩ := addressWord_ok h'
  rw [hnorm, hnorm', Except.ok.injEq, List.append_cancel_left_eq]
  constructor
  · intro heq
    rw [heq]
  · intro heq
    have hread := congrArg hexToBytes heq
    rw [hexToBytes_bytesToHex, hexToBytes_bytesToHex, Except.ok.injEq] at hread
    exact hread

theorem saltWord_eq_iff {salt salt' : Int} {word word' : List UInt8}
    (h : abiWord (.bigint salt) = .ok word) (h' : abiWord (.bigint salt') = .ok word') :
    word = word' ↔ salt = salt' := by
  obtain ⟨hpos, -, hvalue⟩ := abiWord_bigint h
  obtain ⟨hpos', -, hvalue'⟩ := abiWord_bigint h'
  constructor
  · intro heq
    rw [heq, hvalue'] at hvalue
    omega
  · intro heq
    rw [heq, h'] at h
    exact (Except.ok.inj h).symm

/-- The words of a content are words. -/
structure SignedContent.Words (c : SignedContent) : Prop where
  delegate : c.delegate.length = 32
  delegator : c.delegator.length = 32
  authority : c.authority.length = 32
  salt : c.salt.length = 32
  caveats : ∀ caveat ∈ c.caveats, caveat.enforcer.length = 32

theorem signedCaveat_ok {c : Caveat} {s : SignedCaveat} (h : signedCaveat c = .ok s) :
    hexToBytes c.terms = .ok s.terms ∧ addressWord c.enforcer = .ok s.enforcer := by
  obtain ⟨terms, hterms, hrest⟩ := except_bind_eq_ok.1 h
  obtain ⟨enforcer, henforcer, rfl⟩ := except_map_eq_ok.1 hrest
  exact ⟨hterms, henforcer⟩

theorem length_addressWord {addr : String} {word : List UInt8} (h : addressWord addr = .ok word) :
    word.length = 32 := by
  obtain ⟨a, -, hword⟩ := except_bind_eq_ok.1 h
  exact length_abiWord hword

/-- Reading caveats one by one. -/
theorem forall₂_of_mapM {caveats : List Caveat} {signed : List SignedCaveat}
    (h : caveats.mapM signedCaveat = .ok signed) :
    List.Forall₂ (fun c s => signedCaveat c = .ok s) caveats signed := by
  induction caveats generalizing signed with
  | nil =>
      cases h
      exact List.Forall₂.nil
  | cons c cs ih =>
      rw [List.mapM_cons] at h
      obtain ⟨s, hs, hrest⟩ := except_bind_eq_ok.1 h
      obtain ⟨ss, hss, heq⟩ := except_bind_eq_ok.1 hrest
      cases heq
      exact List.Forall₂.cons hs (ih hss)

/-- What a content that was read is made of. -/
structure Reads (d : Delegation) (c : SignedContent) : Prop where
  caveats : List.Forall₂ (fun x s => signedCaveat x = .ok s) d.caveats c.caveats
  delegate : addressWord d.delegate = .ok c.delegate
  delegator : addressWord d.delegator = .ok c.delegator
  authority : abiWord (.hex d.authority) = .ok c.authority
  salt : abiWord (.bigint d.salt) = .ok c.salt

theorem reads_of_ok {d : Delegation} {c : SignedContent} (h : signedContent d = .ok c) :
    Reads d c := by
  obtain ⟨caveats, hcaveats, h⟩ := except_bind_eq_ok.1 h
  obtain ⟨delegate, hdelegate, h⟩ := except_bind_eq_ok.1 h
  obtain ⟨delegator, hdelegator, h⟩ := except_bind_eq_ok.1 h
  obtain ⟨authority, hauthority, h⟩ := except_bind_eq_ok.1 h
  obtain ⟨salt, hsalt, rfl⟩ := except_map_eq_ok.1 h
  exact ⟨forall₂_of_mapM hcaveats, hdelegate, hdelegator, hauthority, hsalt⟩

theorem Reads.words {d : Delegation} {c : SignedContent} (h : Reads d c) : c.Words where
  delegate := length_addressWord h.delegate
  delegator := length_addressWord h.delegator
  authority := length_abiWord h.authority
  salt := length_abiWord h.salt
  caveats := by
    have hall : ∀ (caveats : List Caveat) (signed : List SignedCaveat),
        List.Forall₂ (fun x s => signedCaveat x = .ok s) caveats signed →
          ∀ s ∈ signed, s.enforcer.length = 32 := by
      intro caveats signed hread
      induction hread with
      | nil => simp
      | cons hx _ ih =>
          intro s hs
          cases List.mem_cons.1 hs with
          | inl heq =>
              rw [heq]
              exact length_addressWord (signedCaveat_ok hx).2
          | inr hmem => exact ih s hmem
    exact hall _ _ h.caveats

/-- Equal contents are those of the same fields. -/
theorem Reads.eq_iff {d d' : Delegation} {c c' : SignedContent} (h : Reads d c)
    (h' : Reads d' c') : c = c' ↔ SameSigned d d' := by
  have hcaveats : ∀ (xs ys : List Caveat) (ss ts : List SignedCaveat),
      List.Forall₂ (fun x s => signedCaveat x = .ok s) xs ss →
      List.Forall₂ (fun y t => signedCaveat y = .ok t) ys ts →
      (ss = ts ↔ List.Forall₂ (fun x y => normalizeAddress x.enforcer =
        normalizeAddress y.enforcer ∧ hexToBytes x.terms = hexToBytes y.terms) xs ys) := by
    intro xs ys ss ts hxs hys
    induction hxs generalizing ys ts with
    | nil =>
        cases hys with
        | nil => simp
        | cons _ _ => simp
    | cons hx _ ih =>
        cases hys with
        | nil => simp
        | cons hy hrest =>
            obtain ⟨hterms, henforcer⟩ := signedCaveat_ok hx
            obtain ⟨hterms', henforcer'⟩ := signedCaveat_ok hy
            rw [List.cons.injEq, List.forall₂_cons, ih _ _ hrest, SignedCaveat.mk.injEq,
              addressWord_eq_iff henforcer henforcer', hterms, hterms', Except.ok.injEq]
  constructor
  · intro heq
    subst heq
    exact ⟨(addressWord_eq_iff h.delegate h'.delegate).1 rfl,
      (addressWord_eq_iff h.delegator h'.delegator).1 rfl, h.authority.trans h'.authority.symm,
      (saltWord_eq_iff h.salt h'.salt).1 rfl, (hcaveats _ _ _ _ h.caveats h'.caveats).1 rfl⟩
  · intro hsame
    have hauthority := hsame.authority
    rw [h.authority, h'.authority, Except.ok.injEq] at hauthority
    cases c with
    | mk caveats delegate delegator authority salt =>
        cases c' with
        | mk caveats' delegate' delegator' authority' salt' =>
            rw [SignedContent.mk.injEq]
            exact ⟨(hcaveats _ _ _ _ h.caveats h'.caveats).2 hsame.caveats,
              (addressWord_eq_iff h.delegate h'.delegate).2 hsame.delegate,
              (addressWord_eq_iff h.delegator h'.delegator).2 hsame.delegator, hauthority,
              (saltWord_eq_iff h.salt h'.salt).2 hsame.salt⟩

/-! ## Commitment -/

section Commitment

variable {keccak : List UInt8 → List UInt8}

/-- Six words, one behind the other. -/
theorem input_eq_iff (hwidth : ∀ bytes, (keccak bytes).length = 32) {c c' : SignedContent}
    (h : c.Words) (h' : c'.Words) : c.input keccak = c'.input keccak ↔
      c.delegate = c'.delegate ∧ c.delegator = c'.delegator ∧ c.authority = c'.authority ∧
        keccak (c.caveatsInput keccak) = keccak (c'.caveatsInput keccak) ∧ c.salt = c'.salt := by
  unfold SignedContent.input concatBytes
  rw [flatten_inj_of_width (n := 32) (by decide)]
  · simp
  · simp [hwidth, h.delegate, h.delegator, h.authority, h.salt]
  · simp [hwidth, h'.delegate, h'.delegator, h'.authority, h'.salt]

theorem SignedCaveat.input_eq_iff (hwidth : ∀ bytes, (keccak bytes).length = 32)
    {c c' : SignedCaveat} (h : c.enforcer.length = 32) (h' : c'.enforcer.length = 32) :
    c.input keccak = c'.input keccak ↔
      c.enforcer = c'.enforcer ∧ keccak c.terms = keccak c'.terms := by
  unfold SignedCaveat.input concatBytes
  rw [flatten_inj_of_width (n := 32) (by decide)]
  · simp
  · simp [hwidth, h]
  · simp [hwidth, h']

/-- **The hash of a content is the content.** -/
theorem content_hash_iff (hwidth : ∀ bytes, (keccak bytes).length = 32) {c c' : SignedContent}
    (h : c.Words) (h' : c'.Words)
    (hfree : CollisionFree keccak (c.inputs keccak ++ c'.inputs keccak)) :
    keccak (c.input keccak) = keccak (c'.input keccak) ↔ c = c' := by
  have hmem : ∀ x, x ∈ c.inputs keccak → x ∈ c.inputs keccak ++ c'.inputs keccak :=
    fun x hx => List.mem_append_left _ hx
  have hmem' : ∀ x, x ∈ c'.inputs keccak → x ∈ c.inputs keccak ++ c'.inputs keccak :=
    fun x hx => List.mem_append_right _ hx
  constructor
  · intro heq
    have hinput := hfree _ (hmem _ (by simp [SignedContent.inputs])) _
      (hmem' _ (by simp [SignedContent.inputs])) heq
    obtain ⟨hdelegate, hdelegator, hauthority, hcaveats, hsalt⟩ :=
      (input_eq_iff hwidth h h').1 hinput
    have hblocks := hfree _ (hmem _ (by simp [SignedContent.inputs])) _
      (hmem' _ (by simp [SignedContent.inputs])) hcaveats
    have hlist : c.caveats = c'.caveats := by
      unfold SignedContent.caveatsInput concatBytes at hblocks
      rw [flatten_inj_of_width (n := 32) (by decide) (by simp [hwidth]) (by simp [hwidth])]
        at hblocks
      refine (map_eq_map_iff_of_inj ?_).1 hblocks
      intro s hs t ht hst
      have hin := hfree _ (hmem (s.input keccak) (by
        simp only [SignedContent.inputs, List.mem_cons, List.mem_append, List.mem_map]
        exact Or.inr (Or.inr (Or.inl ⟨s, hs, rfl⟩)))) _ (hmem' (t.input keccak) (by
        simp only [SignedContent.inputs, List.mem_cons, List.mem_append, List.mem_map]
        exact Or.inr (Or.inr (Or.inl ⟨t, ht, rfl⟩)))) hst
      obtain ⟨henforcer, hterms⟩ :=
        (SignedCaveat.input_eq_iff hwidth (h.caveats s hs) (h'.caveats t ht)).1 hin
      have hbytes := hfree _ (hmem s.terms (by
        simp only [SignedContent.inputs, List.mem_cons, List.mem_append, List.mem_map]
        exact Or.inr (Or.inr (Or.inr ⟨s, hs, rfl⟩)))) _ (hmem' t.terms (by
        simp only [SignedContent.inputs, List.mem_cons, List.mem_append, List.mem_map]
        exact Or.inr (Or.inr (Or.inr ⟨t, ht, rfl⟩)))) hterms
      cases s
      cases t
      rw [SignedCaveat.mk.injEq]
      exact ⟨henforcer, hbytes⟩
    cases c
    cases c'
    rw [SignedContent.mk.injEq]
    exact ⟨hlist, hdelegate, hdelegator, hauthority, hsalt⟩
  · intro heq
    rw [heq]

/-- **The struct hash commits to the delegation.**  Where no two of the inputs
hashed for two delegations collide, their struct hashes are equal exactly when
they have the same parties, authority and salt and, caveat for caveat, the same
enforcers and terms, however spelled; args and signatures do not enter. -/
theorem delegationStructHash_commits (hwidth : ∀ bytes, (keccak bytes).length = 32)
    {d d' : Delegation} {c c' : SignedContent} (hread : signedContent d = .ok c)
    (hread' : signedContent d' = .ok c')
    (hfree : CollisionFree keccak (c.inputs keccak ++ c'.inputs keccak)) :
    delegationStructHash keccak d = delegationStructHash keccak d' ↔ SameSigned d d' := by
  have h := reads_of_ok hread
  have h' := reads_of_ok hread'
  rw [delegationStructHash_eq, delegationStructHash_eq, hread, hread', ← h.eq_iff h',
    ← content_hash_iff hwidth h.words h'.words hfree]
  simp only [Except.map, Except.ok.injEq]
  constructor
  · intro heq
    have hbytes := congrArg hexToBytes heq
    rw [hexToBytes_bytesToHex, hexToBytes_bytesToHex, Except.ok.injEq] at hbytes
    exact hbytes
  · intro heq
    rw [heq]

/-- The words of a domain are words. -/
structure DomainContent.Words (c : DomainContent) : Prop where
  chainId : c.chainId.length = 32
  contract : c.contract.length = 32

theorem domainContent_words {domain : Eip712Domain} {c : DomainContent}
    (h : domainContent domain = .ok c) : c.Words := by
  obtain ⟨chainId, -, h⟩ := except_bind_eq_ok.1 h
  obtain ⟨chainWord, hchain, h⟩ := except_bind_eq_ok.1 h
  obtain ⟨contract, hcontract, rfl⟩ := except_map_eq_ok.1 h
  exact ⟨length_abiWord hchain, length_addressWord hcontract⟩

theorem domain_hash_iff (hwidth : ∀ bytes, (keccak bytes).length = 32) {c c' : DomainContent}
    (h : c.Words) (h' : c'.Words)
    (hfree : CollisionFree keccak (c.inputs keccak ++ c'.inputs keccak)) :
    keccak (c.input keccak) = keccak (c'.input keccak) ↔ c = c' := by
  constructor
  · intro heq
    have hinput := hfree _ (by simp [DomainContent.inputs]) _ (by simp [DomainContent.inputs]) heq
    unfold DomainContent.input concatBytes at hinput
    rw [flatten_inj_of_width (n := 32) (by decide) (by simp [hwidth, h.chainId, h.contract])
      (by simp [hwidth, h'.chainId, h'.contract])] at hinput
    simp only [List.cons.injEq, and_true, true_and] at hinput
    obtain ⟨hname, hversion, hchain, hcontract⟩ := hinput
    have hnames := hfree _ (by simp [DomainContent.inputs]) _ (by simp [DomainContent.inputs]) hname
    have hversions := hfree _ (by simp [DomainContent.inputs]) _ (by simp [DomainContent.inputs])
      hversion
    cases c
    cases c'
    rw [DomainContent.mk.injEq]
    exact ⟨textEncode_injective hnames, textEncode_injective hversions, hchain, hcontract⟩
  · intro heq
    rw [heq]

end Commitment

theorem addressWord_bytesToHex {bytes : List UInt8} (hlen : bytes.length = 20) :
    addressWord (bytesToHex bytes) = .ok (List.replicate 12 0 ++ bytes) := by
  unfold addressWord
  rw [normalizeAddress_of_bytes (hexToBytes_bytesToHex bytes) hlen, ← abiWord_address hlen]
  simp only [Except.bind]

namespace Sample

/-- The word of an address of one repeated byte. -/
def wordOf (byte : UInt8) : List UInt8 := List.replicate 12 0 ++ List.replicate 20 byte

/-- A root grant with one caveat. -/
def grant : Delegation where
  delegate := bytesToHex (List.replicate 20 0xaa)
  delegator := bytesToHex (List.replicate 20 0xbb)
  authority := bytesToHex (List.replicate 32 0xff)
  caveats := [⟨bytesToHex (List.replicate 20 0x11), bytesToHex [0x01, 0xff], "0x"⟩]
  salt := 1
  signature := "0x"

/-- The same grant in capitals, without the leading zero, and with args. -/
def respelled : Delegation :=
  { grant with
    delegate := String.ofList (List.replicate 40 'A')
    caveats := [⟨bytesToHex (List.replicate 20 0x11), "0x1FF", "0xbeef"⟩] }

def grantContent : SignedContent where
  caveats := [⟨wordOf 0x11, [0x01, 0xff]⟩]
  delegate := wordOf 0xaa
  delegator := wordOf 0xbb
  authority := List.replicate 32 0xff
  salt := List.replicate 31 0 ++ [1]

theorem abiWord_salt : abiWord (.bigint 1) = .ok (List.replicate 31 0 ++ [1]) := by
  rw [← except_toOption_eq_some]
  decide +kernel

theorem abiWord_root : abiWord (.hex (bytesToHex (List.replicate 32 0xff))) =
    .ok (List.replicate 32 0xff) := by
  simp only [abiWord, abiBytes, hexToBytes_bytesToHex, Except.bind]
  rfl

theorem signedContent_grant : signedContent grant = .ok grantContent := by
  unfold signedContent grant
  simp only [List.mapM_cons, List.mapM_nil, signedCaveat, hexToBytes_bytesToHex,
    addressWord_bytesToHex (List.length_replicate ..), abiWord_salt, abiWord_root]
  rfl

theorem signedContent_respelled : signedContent respelled = .ok grantContent := by
  have hterms : hexToBytes "0x1FF" = .ok [0x01, 0xff] := by
    rw [← except_toOption_eq_some]
    decide +kernel
  have hcapitals : addressWord (String.ofList (List.replicate 40 'A')) = .ok (wordOf 0xaa) := by
    rw [← except_toOption_eq_some]
    decide +kernel
  unfold signedContent respelled grant
  simp only [List.mapM_cons, List.mapM_nil, signedCaveat, hterms, hcapitals,
    addressWord_bytesToHex (List.length_replicate ..), abiWord_salt, abiWord_root]
  rfl

theorem grantContent_free :
    CollisionFree Keccak.keccak256 (grantContent.inputs Keccak.keccak256) :=
  CollisionFree.of_nodup (by decide +kernel)

end Sample

/-- Capitals, a leading zero and args make no difference to the hash. -/
theorem delegationStructHash_commits_respelled :
    delegationStructHash Keccak.keccak256 Sample.grant =
      delegationStructHash Keccak.keccak256 Sample.respelled := by
  have hfree : CollisionFree Keccak.keccak256
      (Sample.grantContent.inputs Keccak.keccak256 ++
        Sample.grantContent.inputs Keccak.keccak256) := by
    apply Sample.grantContent_free.subset
    intro x hx
    exact (List.mem_append.1 hx).elim id id
  refine (delegationStructHash_commits Keccak.length_keccak256 Sample.signedContent_grant
    Sample.signedContent_respelled hfree).2 ?_
  have hsame := (reads_of_ok Sample.signedContent_grant).eq_iff
    (reads_of_ok Sample.signedContent_respelled)
  exact hsame.1 rfl

end AgentWorth.Erc7710
