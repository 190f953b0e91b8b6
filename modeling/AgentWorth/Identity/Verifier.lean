import AgentWorth.Identity.SignatureBase

/-!
# The signed-request verifiers

`visaTapVerifier` of `src/identity/verifier.ts` and `erc8128Verifier` of
`src/identity/erc8128.ts`.  They share the parser, the freshness window and the
signature base and differ in the key a signature is checked with.  `Scheme` is
what they have in common, and each accepts exactly what its scheme accepts.
-/

namespace AgentWorth

open AgentWorth.Js

structure AgentIdentity where
  agentId : String
  principal : Option String
  attestation : Attestation
  capabilities : Option (List String)
  deriving DecidableEq

structure IdentityResult where
  verified : Bool
  identity : AgentIdentity
  reasons : List String
  deriving DecidableEq

/-- The `unverified` helper. -/
def unverified (reasons : List String) : IdentityResult where
  verified := false
  identity :=
    { agentId := "unknown", principal := none, attestation := .none, capabilities := none }
  reasons := reasons

/-- An identity known by its key alone. -/
def signedIdentity (agentId : String) : AgentIdentity where
  agentId := agentId
  principal := none
  attestation := .signed
  capabilities := none

/-! ## Freshness -/

/-- `Math.floor(now() / 1000)`. -/
def nowSeconds (now : JsNumber) : JsNumber :=
  match now / 1000 with
  | .fin q => .fin (q.floor : ℚ)
  | x => x

/-- The window of `created` and `expires` that both verifiers enforce: the
reason the request is not fresh. -/
def staleReason (now maxAge tolerance : JsNumber) (params : ParsedSignatureParams) :
    Option String :=
  let nowSec := nowSeconds now
  let ofCreated : Option String :=
    match params.created with
    | none => none
    | some created =>
        if nowSec + tolerance < created then some "signature created in the future"
        else if params.expires = none ∧ maxAge + tolerance < nowSec - created then
          some "signature too old (created beyond max-age)"
        else none
  match ofCreated with
  | some reason => some reason
  | none =>
      match params.expires with
      | none => none
      | some expires => if expires < nowSec - tolerance then some "signature expired" else none

/-- `opts.maxAgeSeconds ?? 300`. -/
def maxAgeOf (maxAgeSeconds : Option JsNumber) : JsNumber := maxAgeSeconds.getD 300

/-- `opts.toleranceSeconds ?? 30`. -/
def toleranceOf (toleranceSeconds : Option JsNumber) : JsNumber := toleranceSeconds.getD 30

/-! ## Visa TAP -/

/-- What the verifier takes from the host: base64 and Ed25519, where a check
that throws has failed. -/
structure EdCrypto (κ β : Type) where
  fromBase64 : String → β
  edVerify : κ → String → β → Bool

structure VisaTapOptions (κ : Type) where
  resolveKey : String → Option κ
  label : Option String
  maxAgeSeconds : Option JsNumber
  toleranceSeconds : Option JsNumber
  identityOf : Option (String → Option AgentIdentity)

/-- `visaTapVerifier(opts).verify` at a clock value. -/
def visaTapVerify {κ β : Type} (crypto : EdCrypto κ β) (opts : VisaTapOptions κ)
    (now : JsNumber) (signed : SignedRequest) : IdentityResult :=
  let maxAge := maxAgeOf opts.maxAgeSeconds
  let tolerance := toleranceOf opts.toleranceSeconds
  match parseSignatureInput signed.signatureInput opts.label with
  | none => unverified ["malformed or missing Signature-Input"]
  | some (label, params) =>
      if params.alg ≠ some "ed25519" then
        unverified ["unsupported alg \"" ++ params.alg.getD "none" ++ "\" (require ed25519)"]
      else if params.keyid.getD "" = "" then unverified ["Signature-Input missing keyid"]
      else
        match staleReason now maxAge tolerance params with
        | some reason => unverified [reason]
        | none =>
            match parseSignatureBytes crypto.fromBase64 signed.signature label with
            | none => unverified ["no signature value for label \"" ++ label ++ "\""]
            | some sigBytes =>
                match buildSignatureBase signed params with
                | none => unverified ["a covered component could not be reconstructed"]
                | some base =>
                    match opts.resolveKey (params.keyid.getD "") with
                    | none => unverified ["unknown keyid \"" ++ params.keyid.getD "" ++ "\""]
                    | some key =>
                        if crypto.edVerify key base sigBytes then
                          { verified := true
                            identity :=
                              (opts.identityOf.bind fun identityOf =>
                                identityOf (params.keyid.getD "")).getD
                                  (signedIdentity (params.keyid.getD ""))
                            reasons := ["RFC 9421 ed25519 signature verified"] }
                        else unverified ["RFC 9421 signature did not verify"]

/-! ## ERC-8128 -/

structure Erc8128KeyId where
  chainId : Nat
  address : String
  deriving DecidableEq

def isHexDigit (c : Char) : Bool :=
  c.isDigit || (('a' ≤ c && c ≤ 'f') || ('A' ≤ c && c ≤ 'F'))

/-- `/^erc8128:(\d+):(0x[a-fA-F0-9]{40})$/`, the address in lower case. -/
def parseErc8128KeyId (keyid : String) : Option Erc8128KeyId :=
  match cut ':' keyid.toList with
  | none => none
  | some (scheme, rest) =>
      if scheme ≠ "erc8128".toList then none
      else
        match cut ':' rest with
        | some (chain, '0' :: 'x' :: hex) =>
            if chain ≠ [] ∧ chain.all Char.isDigit ∧ hex.length = 40 ∧ hex.all isHexDigit then
              some
                { chainId := Nat.ofDigitChars 10 chain 0
                  address := toLowerCase (String.ofList ('0' :: 'x' :: hex)) }
            else none
        | _ => none

/-- What the verifier takes from the host: base64, and the curve and hash
libraries behind the recovery of a signer and the digest. -/
structure EthCrypto (δ β : Type) where
  fromBase64 : String → β
  /-- the signing address, or the message of the error -/
  recoverErc8128Address : String → β → Except String String
  eip191Hash : String → δ

structure Erc8128Options (δ β : Type) where
  maxAgeSeconds : Option JsNumber
  toleranceSeconds : Option JsNumber
  label : Option String
  identityOf : Option (String → Option AgentIdentity)
  resolveContractSig : Option (String → Nat → δ → β → Bool)

/-- The `bind` helper of `erc8128.ts`. -/
def bindAddress (address : String) (identityOf : Option (String → Option AgentIdentity)) :
    IdentityResult where
  verified := true
  identity := (identityOf.bind fun identityOf => identityOf address).getD (signedIdentity address)
  reasons := ["ERC-8128 EIP-191 signature verified; recovered address matches keyid"]

/-- The end of `erc8128Verifier.verify`: recover the signer, then ask the contract. -/
def checkSigner {δ β : Type} (crypto : EthCrypto δ β) (opts : Erc8128Options δ β)
    (key : Erc8128KeyId) (base : String) (sig : β) : IdentityResult :=
  match crypto.recoverErc8128Address base sig, opts.resolveContractSig with
  | .error message, none => unverified ["EIP-191 recovery failed: " ++ message]
  | .error _, some resolveContractSig =>
      if resolveContractSig key.address key.chainId (crypto.eip191Hash base) sig then
        bindAddress key.address opts.identityOf
      else unverified ["ERC-1271 contract signer rejected the signature"]
  | .ok recovered, none =>
      if recovered = key.address then bindAddress key.address opts.identityOf
      else unverified ["recovered address " ++ recovered ++
        " does not match keyid address " ++ key.address]
  | .ok recovered, some resolveContractSig =>
      if recovered = key.address then bindAddress key.address opts.identityOf
      else if resolveContractSig key.address key.chainId (crypto.eip191Hash base) sig then
        bindAddress key.address opts.identityOf
      else unverified ["ERC-1271 contract signer rejected the signature"]

/-- `erc8128Verifier(opts).verify` at a clock value. -/
def erc8128Verify {δ β : Type} (crypto : EthCrypto δ β) (opts : Erc8128Options δ β)
    (now : JsNumber) (signed : SignedRequest) : IdentityResult :=
  let maxAge := maxAgeOf opts.maxAgeSeconds
  let tolerance := toleranceOf opts.toleranceSeconds
  match parseSignatureInput signed.signatureInput opts.label with
  | none => unverified ["malformed or missing Signature-Input"]
  | some (label, params) =>
      if params.keyid.getD "" = "" then unverified ["Signature-Input missing keyid"]
      else
        match parseErc8128KeyId (params.keyid.getD "") with
        | none =>
            unverified ["keyid \"" ++ params.keyid.getD "" ++
              "\" is not an erc8128:<chainId>:<0xaddr> id"]
        | some key =>
            match staleReason now maxAge tolerance params with
            | some reason => unverified [reason]
            | none =>
                match parseSignatureBytes crypto.fromBase64 signed.signature label with
                | none => unverified ["no signature value for label \"" ++ label ++ "\""]
                | some sig =>
                    match buildSignatureBase signed params with
                    | none => unverified ["a covered component could not be reconstructed"]
                    | some base =>
                        checkSigner crypto opts key base sig

/-! ## What both accept -/

/-- A verifier of signed requests: which entry it reads, its window, and whether
it holds a signature over a base for one of the key that is named. -/
structure Scheme (β : Type) where
  label : Option String
  fromBase64 : String → β
  maxAge : JsNumber
  tolerance : JsNumber
  holds : ParsedSignatureParams → String → β → Prop

/-- All but the freshness of an accepted request. -/
structure Scheme.Genuine {β : Type} (S : Scheme β) (r : SignedRequest) (label : String)
    (params : ParsedSignatureParams) (base : String) (sig : β) : Prop where
  parsed : parseSignatureInput r.signatureInput S.label = some (label, params)
  signature : parseSignatureBytes S.fromBase64 r.signature label = some sig
  rebuilt : buildSignatureBase r params = some base
  holds : S.holds params base sig

def Scheme.Accepts {β : Type} (S : Scheme β) (now : JsNumber) (r : SignedRequest) : Prop :=
  ∃ label params base sig, S.Genuine r label params base sig ∧
    staleReason now S.maxAge S.tolerance params = none

def visaScheme {κ β : Type} (crypto : EdCrypto κ β) (opts : VisaTapOptions κ) : Scheme β where
  label := opts.label
  fromBase64 := crypto.fromBase64
  maxAge := maxAgeOf opts.maxAgeSeconds
  tolerance := toleranceOf opts.toleranceSeconds
  holds params base sig := params.alg = some "ed25519" ∧ params.keyid.getD "" ≠ "" ∧
    ∃ key, opts.resolveKey (params.keyid.getD "") = some key ∧
      crypto.edVerify key base sig = true

/-- The signer of a base is the address, or its contract takes the signature. -/
def SignedBy {δ β : Type} (crypto : EthCrypto δ β) (opts : Erc8128Options δ β)
    (key : Erc8128KeyId) (base : String) (sig : β) : Prop :=
  crypto.recoverErc8128Address base sig = .ok key.address ∨
    ∃ resolve, opts.resolveContractSig = some resolve ∧
      resolve key.address key.chainId (crypto.eip191Hash base) sig = true

def erc8128Scheme {δ β : Type} (crypto : EthCrypto δ β) (opts : Erc8128Options δ β) :
    Scheme β where
  label := opts.label
  fromBase64 := crypto.fromBase64
  maxAge := maxAgeOf opts.maxAgeSeconds
  tolerance := toleranceOf opts.toleranceSeconds
  holds params base sig := params.keyid.getD "" ≠ "" ∧
    ∃ key, parseErc8128KeyId (params.keyid.getD "") = some key ∧
      SignedBy crypto opts key base sig

@[simp] theorem unverified_verified (reasons : List String) :
    (unverified reasons).verified = false := rfl

@[simp] theorem bindAddress_verified (address : String)
    (identityOf : Option (String → Option AgentIdentity)) :
    (bindAddress address identityOf).verified = true := rfl

/-- **`visaTapVerifier` verifies what its scheme accepts.** -/
theorem visaTapVerify_iff {κ β : Type} (crypto : EdCrypto κ β) (opts : VisaTapOptions κ)
    (now : JsNumber) (r : SignedRequest) :
    (visaTapVerify crypto opts now r).verified = true ↔
      (visaScheme crypto opts).Accepts now r := by
  constructor
  · intro h
    unfold visaTapVerify at h
    cases hparse : parseSignatureInput r.signatureInput opts.label with
    | none => simp [hparse] at h
    | some entry =>
        obtain ⟨label, params⟩ := entry
        simp only [hparse] at h
        by_cases halg : params.alg = some "ed25519"
        swap
        · simp [halg] at h
        by_cases hkeyid : params.keyid.getD "" = ""
        · simp [halg, hkeyid] at h
        rw [if_neg (not_not.2 halg), if_neg hkeyid] at h
        cases hstale : staleReason now (maxAgeOf opts.maxAgeSeconds)
            (toleranceOf opts.toleranceSeconds) params with
        | some reason => simp [hstale] at h
        | none =>
            cases hsig : parseSignatureBytes crypto.fromBase64 r.signature label with
            | none => simp [hstale, hsig] at h
            | some sig =>
                cases hbase : buildSignatureBase r params with
                | none => simp [hstale, hsig, hbase] at h
                | some base =>
                    cases hkey : opts.resolveKey (params.keyid.getD "") with
                    | none => simp [hstale, hsig, hbase, hkey] at h
                    | some key =>
                        by_cases hverify : crypto.edVerify key base sig = true
                        · exact ⟨label, params, base, sig,
                            ⟨hparse, hsig, hbase, halg, hkeyid, key, hkey, hverify⟩, hstale⟩
                        · simp [hstale, hsig, hbase, hkey, hverify] at h
  · rintro ⟨label, params, base, sig, ⟨hparse, hsig, hbase, halg, hkeyid, key, hkey, hverify⟩,
      hstale⟩
    simp only [visaScheme] at hparse hsig hstale
    simp [visaTapVerify, hparse, halg, hkeyid, hstale, hsig, hbase, hkey, hverify]

/-- The signer check passes exactly for the signer. -/
theorem checkSigner_iff {δ β : Type} (crypto : EthCrypto δ β) (opts : Erc8128Options δ β)
    (key : Erc8128KeyId) (base : String) (sig : β) :
    (checkSigner crypto opts key base sig).verified = true ↔ SignedBy crypto opts key base sig := by
  unfold checkSigner SignedBy
  cases crypto.recoverErc8128Address base sig with
  | error message =>
      cases opts.resolveContractSig with
      | none => simp
      | some resolve =>
          by_cases hok : resolve key.address key.chainId (crypto.eip191Hash base) sig = true <;>
            simp [hok]
  | ok recovered =>
      by_cases hsigner : recovered = key.address
      · cases opts.resolveContractSig <;> simp [hsigner]
      · cases opts.resolveContractSig with
        | none => simp [hsigner]
        | some resolve =>
            by_cases hok : resolve key.address key.chainId (crypto.eip191Hash base) sig = true <;>
              simp [hsigner, hok]

/-- **`erc8128Verifier` verifies what its scheme accepts.** -/
theorem erc8128Verify_iff {δ β : Type} (crypto : EthCrypto δ β) (opts : Erc8128Options δ β)
    (now : JsNumber) (r : SignedRequest) :
    (erc8128Verify crypto opts now r).verified = true ↔
      (erc8128Scheme crypto opts).Accepts now r := by
  constructor
  · intro h
    unfold erc8128Verify at h
    cases hparse : parseSignatureInput r.signatureInput opts.label with
    | none => simp [hparse] at h
    | some entry =>
        obtain ⟨label, params⟩ := entry
        simp only [hparse] at h
        by_cases hkeyid : params.keyid.getD "" = ""
        · simp [hkeyid] at h
        rw [if_neg hkeyid] at h
        cases hkey : parseErc8128KeyId (params.keyid.getD "") with
        | none => simp [hkey] at h
        | some key =>
            cases hstale : staleReason now (maxAgeOf opts.maxAgeSeconds)
                (toleranceOf opts.toleranceSeconds) params with
            | some reason => simp [hkey, hstale] at h
            | none =>
                cases hsig : parseSignatureBytes crypto.fromBase64 r.signature label with
                | none => simp [hkey, hstale, hsig] at h
                | some sig =>
                    cases hbase : buildSignatureBase r params with
                    | none => simp [hkey, hstale, hsig, hbase] at h
                    | some base =>
                        simp only [hkey, hstale, hsig, hbase] at h
                        exact ⟨label, params, base, sig,
                          ⟨hparse, hsig, hbase, hkeyid, key, hkey,
                            (checkSigner_iff crypto opts key base sig).1 h⟩, hstale⟩
  · rintro ⟨label, params, base, sig, ⟨hparse, hsig, hbase, hkeyid, key, hkey, hsigned⟩, hstale⟩
    simp only [erc8128Scheme] at hparse hsig hstale
    simp only [erc8128Verify, hparse, hkeyid, hkey, hstale, hsig, hbase, if_false]
    exact (checkSigner_iff crypto opts key base sig).2 hsigned

end AgentWorth
