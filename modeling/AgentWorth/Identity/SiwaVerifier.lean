import AgentWorth.Identity.Siwa
import AgentWorth.Identity.Verifier
import AgentWorth.Lib.Timestamp

/-!
# The sign-in verifier

`verifySiwa` and `siwaIdentityVerifier` of `src/identity/siwa.ts`.  The
signature is checked over the text that the parsed message formats to, so a
presented text is bound by it only as far as the formatter writes the same.
-/

namespace AgentWorth

open AgentWorth.Js

/-- What a registry tells of an agent, as far as the verifier reads it. -/
structure RegistryEntry where
  owner : String
  services : Option (List String)

/-- `VerifySiwaOptions`, with the value of its clock. -/
structure VerifySiwaOptions (σ : Type) where
  expectedDomain : String
  nonceValid : String → Bool
  now : JsNumber
  recoverSigner : Option (SiwaMessage → σ → Except String String)
  resolveRegistry : Option (String → String → Option RegistryEntry)

section Verifier

variable {σ : Type} (recoverErc8128Address : String → σ → Except String String)

/-- The times of a message against the clock; a time that is no date is not
checked. -/
def siwaStaleReason (nowMs : JsNumber) (msg : SiwaMessage) : Option String :=
  if msg.expirationTime.any fun t => Date.getTime t < nowMs then
    some "SIWA message expired"
  else if msg.notBefore.any fun t => nowMs < Date.getTime t then
    some "SIWA message not yet valid"
  else none

/-- `opts.recoverSigner`, or else the recovery over the formatted message. -/
def recoverSiwaSigner (opts : VerifySiwaOptions σ) (msg : SiwaMessage) (signature : σ) :
    Except String String :=
  match opts.recoverSigner with
  | some recover => recover msg signature
  | none => recoverErc8128Address (formatSiwaMessage msg) signature

/-- What a valid signature says, with the registry's word if there is one. -/
def signedSiwaResult (opts : VerifySiwaOptions σ) (msg : SiwaMessage) (signer : String) :
    IdentityResult :=
  let base : AgentIdentity :=
    { agentId := msg.agentId, principal := some msg.address, attestation := .signed,
      capabilities := none }
  match opts.resolveRegistry.bind fun resolve => resolve msg.agentRegistry msg.agentId with
  | some entry =>
      if toLowerCase entry.owner = signer then
        { verified := true
          identity :=
            { base with
              principal := some entry.owner
              attestation := .registryAttested
              capabilities := entry.services }
          reasons := ["SIWA signature verified; agent registry owner matches signer"] }
      else
        { verified := true
          identity := base
          reasons :=
            ["SIWA signature verified; registry owner does not match signer (signed only)"] }
  | none =>
      { verified := true
        identity := base
        reasons := ["SIWA signature verified (no registry binding → signed)"] }

/-- `verifySiwa`. -/
def verifySiwa (msg : SiwaMessage) (signature : σ) (opts : VerifySiwaOptions σ) :
    IdentityResult :=
  if msg.domain ≠ opts.expectedDomain then
    unverified
      ["domain \"" ++ msg.domain ++ "\" != expected \"" ++ opts.expectedDomain ++ "\""]
  else if !opts.nonceValid msg.nonce then
    unverified ["nonce \"" ++ msg.nonce ++ "\" not valid/known"]
  else
    match siwaStaleReason opts.now msg with
    | some reason => unverified [reason]
    | none =>
        match recoverSiwaSigner recoverErc8128Address opts msg signature with
        | .error message => unverified ["EIP-191 recovery failed: " ++ message]
        | .ok recovered =>
            let signer := toLowerCase recovered
            if signer ≠ toLowerCase msg.address then
              unverified
                ["recovered signer " ++ signer ++ " != asserted address " ++ msg.address]
            else signedSiwaResult opts msg signer

/-- What is presented: a message or its text, with a signature. -/
inductive SiwaPresented (σ : Type) where
  | text (message : String) (signature : σ)
  | message (message : SiwaMessage) (signature : σ)
  | other

/-- `siwaIdentityVerifier(opts).verify`, which throws what the parser throws. -/
def siwaIdentityVerify (opts : VerifySiwaOptions σ) :
    SiwaPresented σ → Except String IdentityResult
  | .text message signature =>
      (parseSiwaMessage message).map fun msg =>
        verifySiwa recoverErc8128Address msg signature opts
  | .message message signature =>
      .ok (verifySiwa recoverErc8128Address message signature opts)
  | .other => .ok (unverified ["not a SIWA artifact (\x7b message, signature \x7d)"])

end Verifier

/-! ## What a presented text is bound to -/

/-- A recovery that finds an address only for the text that was signed. -/
def RecoversSigned {σ : Type} (recover : String → σ → Except String String)
    (signedText : σ → String) : Prop :=
  ∀ text signature address, recover text signature = .ok address → signedText signature = text

/-- Whoever has the text accepted holds a signature over this very text. -/
def SignatureBound (text : String) : Prop :=
  ∀ (σ : Type) (recover : String → σ → Except String String) (signedText : σ → String)
    (opts : VerifySiwaOptions σ) (signature : σ) (result : IdentityResult),
    RecoversSigned recover signedText → opts.recoverSigner = none →
      siwaIdentityVerify recover opts (.text text signature) = .ok result →
        result.verified = true → signedText signature = text

/-- An accepted message was signed in the formatter's words. -/
theorem signed_of_verifySiwa {σ : Type} {recover : String → σ → Except String String}
    {signedText : σ → String} (hsound : RecoversSigned recover signedText)
    {msg : SiwaMessage} {signature : σ} {opts : VerifySiwaOptions σ}
    (hdefault : opts.recoverSigner = none)
    (h : (verifySiwa recover msg signature opts).verified = true) :
    signedText signature = formatSiwaMessage msg := by
  unfold verifySiwa recoverSiwaSigner at h
  rw [hdefault] at h
  dsimp only at h
  split_ifs at h
  · cases h
  · cases h
  · split at h
    · cases h
    · split at h
      · cases h
      · next recovered hrecover => exact hsound _ _ _ hrecover

/-- Every message is accepted from someone who signed what it formats to. -/
theorem exists_accepting (msg : SiwaMessage) :
    ∃ (recover : String → Unit → Except String String) (opts : VerifySiwaOptions Unit),
      RecoversSigned recover (fun _ => formatSiwaMessage msg) ∧ opts.recoverSigner = none ∧
        (verifySiwa recover msg () opts).verified = true := by
  let recover : String → Unit → Except String String := fun text _ =>
    if text = formatSiwaMessage msg then .ok msg.address else .error "not the signed text"
  let opts : VerifySiwaOptions Unit :=
    { expectedDomain := msg.domain, nonceValid := fun _ => true, now := .nan,
      recoverSigner := none, resolveRegistry := none }
  refine ⟨recover, opts, ?_, rfl, ?_⟩
  · intro text signature address h
    by_cases htext : text = formatSiwaMessage msg
    · exact htext.symm
    · simp [recover, htext] at h
  · have hfresh : siwaStaleReason opts.now msg = none := by
      simp [siwaStaleReason, opts]
    simp [verifySiwa, recoverSiwaSigner, signedSiwaResult, hfresh, opts, recover]

/-- A text is bound exactly if the formatter gives it back. -/
theorem signatureBound_iff_format {text : String} {msg : SiwaMessage}
    (h : parseSiwaMessage text = .ok msg) :
    SignatureBound text ↔ formatSiwaMessage msg = text := by
  constructor
  · intro hbound
    obtain ⟨recover, opts, hsound, hdefault, haccepted⟩ := exists_accepting msg
    refine hbound Unit recover _ opts () _ hsound hdefault ?_ haccepted
    rw [siwaIdentityVerify, h]
    rfl
  · intro hformat σ recover signedText opts signature result hsound hdefault hverify haccepted
    rw [siwaIdentityVerify, h] at hverify
    cases hverify
    rw [← hformat]
    exact signed_of_verifySiwa hsound hdefault haccepted

/-! ## Which texts the parser takes -/

def requiredKeys : List String :=
  ["URI", "Agent ID", "Agent Registry", "Chain ID", "Nonce", "Issued At"]

/-- A header of the right form, an address, and no required field missing. -/
structure Presentable (lines : List (List Char)) : Prop where
  header : ∃ domain, lines[0]?.getD [] = domain ++ headerSuffix ∧
    ∀ c ∈ domain, isLineTerminator c = false
  address : lines[1]?.getD [] ≠ []
  required : ∀ key ∈ requiredKeys, ∃ v ∈ field lines key, v ≠ []

theorem requiredField_eq_some_iff {lines : List (List Char)} {key : String} {v : List Char} :
    requiredField lines key = some v ↔ field lines key = some v ∧ v ≠ [] := by
  rw [requiredField, Option.filter_eq_some_iff]
  simp

theorem exists_parse_iff {lines : List (List Char)} :
    (∃ m, parseSiwaLines lines = .ok m) ↔ Presentable lines := by
  constructor
  · rintro ⟨m, hm⟩
    have h := parseSiwaLines_eq_ok_iff.1 hm
    obtain ⟨chain, hchain, -⟩ := Option.map_eq_some_iff.1 h.chainId
    have hpresent : ∀ {key : String} {v : List Char}, requiredField lines key = some v →
        ∃ v ∈ field lines key, v ≠ [] := by
      intro key v hv
      obtain ⟨hfield, hne⟩ := requiredField_eq_some_iff.1 hv
      exact ⟨v, hfield, hne⟩
    refine ⟨⟨_, headerDomain_eq_some_iff.1 h.header⟩, ?_, ?_⟩
    · rw [h.address]
      exact fun hempty => h.address_ne (String.toList_injective hempty)
    · simp only [requiredKeys, List.forall_mem_cons, List.not_mem_nil, false_implies,
        implies_true, and_true]
      exact ⟨hpresent h.uri, hpresent h.agentId, hpresent h.agentRegistry, hpresent hchain,
        hpresent h.nonce, hpresent h.issuedAt⟩
  · rintro ⟨⟨domain, hdomain⟩, haddress, hrequired⟩
    have hpresent : ∀ key ∈ requiredKeys, ∃ v, requiredField lines key = some v := by
      intro key hkey
      obtain ⟨v, hfield, hne⟩ := hrequired key hkey
      exact ⟨v, requiredField_eq_some_iff.2 ⟨hfield, hne⟩⟩
    simp only [requiredKeys, List.forall_mem_cons, List.not_mem_nil, false_implies,
      implies_true, and_true] at hpresent
    obtain ⟨⟨uri, huri⟩, ⟨agent, hagent⟩, ⟨registry, hregistry⟩, ⟨chain, hchain⟩,
      ⟨nonce, hnonce⟩, ⟨issued, hissued⟩⟩ := hpresent
    unfold parseSiwaLines
    rw [headerDomain_eq_some_iff.2 hdomain, huri, hagent, hregistry, hchain, hnonce, hissued]
    dsimp only
    rw [if_neg haddress]
    exact ⟨_, rfl⟩

/-! ## What was parsed from lines is on lines -/

theorem Carries.oneLine {lines : List (List Char)} {m : SiwaMessage} (h : Carries lines m)
    (hlines : ∀ line ∈ lines, OneLine line) : m.OneLine := by
  have hline : ∀ i : Nat, OneLine (lines[i]?.getD []) := by
    intro i
    cases hi : lines[i]? with
    | none => exact oneLine_nil
    | some line => exact hlines line (List.mem_of_getElem? hi)
  have hfield : ∀ {key : String} {v : List Char}, field lines key = some v → OneLine v :=
    fun hv => (oneLine_append.1 (hlines _ (mem_of_field hv))).2
  have hrequired : ∀ {key : String} {v : List Char}, requiredField lines key = some v →
      OneLine v := fun hv => hfield (requiredField_eq_some_iff.1 hv).1
  have hoptional : ∀ {key : String} {o : Option String}, field lines key = o.map String.toList →
      ∀ t ∈ o, OneLine t.toList := by
    intro key o ho t ht
    rw [Option.mem_def.1 ht] at ho
    exact hfield ho
  have hheader := hline 0
  rw [(headerDomain_eq_some_iff.1 h.header).1] at hheader
  exact
    { domain := (oneLine_append.1 hheader).1
      address := h.address ▸ hline 1
      uri := hrequired h.uri
      agentId := hrequired h.agentId
      agentRegistry := hrequired h.agentRegistry
      nonce := hrequired h.nonce
      issuedAt := hrequired h.issuedAt
      expirationTime := hoptional h.expirationTime
      notBefore := hoptional h.notBefore
      requestId := hoptional h.requestId
      statement := by
        intro t ht
        have hthird := h.statement
        rw [Option.mem_def.1 ht, statementLine, Option.map_some, Option.filter_eq_some_iff]
          at hthird
        exact hlines _ (List.mem_of_getElem? hthird.1) }

theorem Carries.filled {lines : List (List Char)} {m : SiwaMessage} (h : Carries lines m) :
    m.Filled := by
  have hne : ∀ {key : String} {s : String}, requiredField lines key = some s.toList →
      s ≠ "" := by
    rintro key s hs rfl
    exact (requiredField_eq_some_iff.1 hs).2 rfl
  exact ⟨(headerDomain_eq_some_iff.1 h.header).2, h.address_ne, hne h.uri, hne h.agentId,
    hne h.agentRegistry, hne h.nonce, hne h.issuedAt⟩

/-- A text as the formatter writes it, for a message that nothing shadows and
whose chain is spelled as its number prints. -/
def SigningText (text : String) : Prop :=
  ∃ m : SiwaMessage, text = formatSiwaMessage m ∧ m.OneLine ∧ m.Filled ∧ m.Unshadowed ∧
    m.ChainReadable

theorem format_parse_iff {text : String} {msg : SiwaMessage}
    (h : parseSiwaMessage text = .ok msg) :
    formatSiwaMessage msg = text ↔ SigningText text := by
  constructor
  · intro hformat
    have hcarries := parseSiwaLines_eq_ok_iff.1 h
    have hline := hcarries.oneLine fun line hmem => oneLine_of_mem_splitOn hmem
    have hfilled := hcarries.filled
    rw [← hformat] at h
    obtain ⟨hshadow, hread⟩ := (parse_formatSiwaMessage_iff hline hfilled).1 h
    exact ⟨msg, hformat.symm, hline, hfilled, hshadow, hread⟩
  · rintro ⟨m, rfl, hline, hfilled, hshadow, hread⟩
    rw [(parse_formatSiwaMessage_iff hline hfilled).2 ⟨hshadow, hread⟩] at h
    rw [Except.ok.inj h]

/-- **A signature binds the presented text exactly if the parser refuses the
text or the formatter writes it.** -/
theorem signatureBound_iff (text : String) :
    SignatureBound text ↔
      (Presentable (text.toList.splitOn '\n') → SigningText text) := by
  rw [← exists_parse_iff]
  constructor
  · rintro hbound ⟨msg, hparse⟩
    exact (format_parse_iff hparse).1 ((signatureBound_iff_format hparse).1 hbound)
  · intro h
    cases hparse : parseSiwaMessage text with
    | ok msg =>
        exact (signatureBound_iff_format hparse).2 ((format_parse_iff hparse).2 (h ⟨msg, hparse⟩))
    | error message =>
        intro σ recover signedText opts signature result _ _ hverify _
        rw [siwaIdentityVerify, hparse] at hverify
        cases hverify

namespace Sample

/-- A signed message with a line more, another version and another spelling of
the chain. -/
def alteredLines : List (List Char) :=
  ["app.example.com wants you to sign in with your Agent account:", "0xabc", "",
    "URI: https://app.example.com/login", "Version: 2", "Agent ID: 42",
    "Agent Registry: eip155:8453:0xdef", "Chain ID: 0x2105", "Nonce: abc12345",
    "Issued At: 2026-06-25T11:59:00Z", "Resources: everything"].map String.toList

def altered : String := String.ofList (['\n'].intercalate alteredLines)

theorem splitOn_altered : altered.toList.splitOn '\n' = alteredLines := by
  rw [altered, String.toList_ofList]
  exact List.splitOn_intercalate '\n' (by decide +kernel) (by decide)

end Sample

open Sample in
/-- It is accepted with the signature over the message without them. -/
theorem altered_text_unbound : ¬ SignatureBound altered := by
  intro hbound
  obtain ⟨msg, hparse⟩ : ∃ msg, parseSiwaLines alteredLines = .ok msg := by
    cases h : parseSiwaLines alteredLines with
    | ok msg => exact ⟨msg, rfl⟩
    | error message =>
        have hok : (parseSiwaLines alteredLines).toOption.isSome = true := by decide +kernel
        rw [h] at hok
        cases hok
  have hline : msg.OneLine :=
    (parseSiwaLines_eq_ok_iff.1 hparse).oneLine (by decide +kernel)
  rw [← splitOn_altered] at hparse
  have hlines := splitOn_formatSiwaMessage hline
  rw [(signatureBound_iff_format hparse).1 hbound, splitOn_altered] at hlines
  -- the formatter writes the version it knows
  have hversion : fieldLine ("Version", "1".toList) ∈ msg.lines := by
    simp [SiwaMessage.lines, SiwaMessage.fields]
  rw [← hlines] at hversion
  exact absurd hversion (by decide +kernel)

end AgentWorth
