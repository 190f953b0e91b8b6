import AgentWorth.Identity.Verifier
import Mathlib.Algebra.Order.Floor.Ring
import Mathlib.Tactic.Linarith

/-!
# When a signed request expires

The window is put together from two optional parameters that `Number()` reads
out of the presented text.  It closes exactly when one of the comparisons it is
made of can come out true, and that depends on which parameters are there and
on whether they are numbers.
-/

namespace AgentWorth

open AgentWorth.Js

/-- The window of the parameters closes: without `expires`, `created` must be a
number; with it, `expires` must be one and not infinite, unless `created` keeps
the request in the future for good. -/
def Lapses (params : ParsedSignatureParams) : Prop :=
  match params.expires with
  | none => ∃ created, params.created = some created ∧ created ≠ .nan
  | some expires => (expires ≠ .nan ∧ expires ≠ .posInf) ∨ params.created = some .posInf

/-! ## The window at a clock value -/

theorem nowSeconds_fin (q : ℚ) : nowSeconds (.fin q) = .fin ((q / 1000).floor : ℚ) := by
  have hdiv : (JsNumber.fin q / 1000 : JsNumber) = .fin (q / 1000) := by
    show JsNumber.fin q / .fin ((1000 : Nat) : ℚ) = _
    rw [JsNumber.fin_div_fin _ (by norm_num), Nat.cast_ofNat]
  rw [nowSeconds, hdiv]

theorem staleReason_eq_none_iff {now maxAge tolerance : JsNumber}
    {params : ParsedSignatureParams} :
    staleReason now maxAge tolerance params = none ↔
      (∀ created, params.created = some created → ¬ nowSeconds now + tolerance < created ∧
        (params.expires = none → ¬ maxAge + tolerance < nowSeconds now - created)) ∧
      ∀ expires, params.expires = some expires → ¬ expires < nowSeconds now - tolerance := by
  unfold staleReason
  cases params.created with
  | none => cases params.expires <;> simp
  | some created =>
      by_cases hfuture : nowSeconds now + tolerance < created
      · simp [hfuture]
      · cases params.expires with
        | none =>
            by_cases hold : maxAge + tolerance < nowSeconds now - created <;> simp [hfuture, hold]
        | some expires => simp [hfuture]

/-- Seconds that come after a bound once the clock is a second past it. -/
private theorem lt_floor {bound now : ℚ} (h : 1000 * (bound + 1) < now) :
    bound < ((now / 1000).floor : ℚ) := by
  have hfloor : now / 1000 < ((now / 1000).floor : ℚ) + 1 := Int.lt_floor_add_one _
  have hdiv : bound + 1 < now / 1000 := by
    rw [lt_div_iff₀ (by norm_num)]
    linarith
  linarith

section Window

variable {maxAge tolerance : ℚ} {params : ParsedSignatureParams}

/-- A window that closes does so at some time. -/
theorem stale_of_lapses (h : Lapses params) :
    ∃ T : ℚ, ∀ now : ℚ, T < now →
      staleReason (.fin now) (.fin maxAge) (.fin tolerance) params ≠ none := by
  have hnever : ∀ {now : ℚ}, params.created = some .posInf →
      staleReason (.fin now) (.fin maxAge) (.fin tolerance) params ≠ none := by
    intro now hcreated hfresh
    have hfuture := ((staleReason_eq_none_iff.1 hfresh).1 _ hcreated).1
    rw [nowSeconds_fin] at hfuture
    exact hfuture rfl
  unfold Lapses at h
  cases hexpires : params.expires with
  | none =>
      rw [hexpires] at h
      obtain ⟨created, hcreated, hnum⟩ := h
      cases created with
      | nan => exact absurd rfl hnum
      | posInf => exact ⟨0, fun now _ => hnever hcreated⟩
      | negInf =>
          refine ⟨0, fun now _ hfresh => ?_⟩
          have hold := ((staleReason_eq_none_iff.1 hfresh).1 _ hcreated).2 hexpires
          rw [nowSeconds_fin] at hold
          exact hold rfl
      | fin c =>
          refine ⟨1000 * (maxAge + tolerance + c + 1), fun now hnow hfresh => ?_⟩
          have hold := ((staleReason_eq_none_iff.1 hfresh).1 _ hcreated).2 hexpires
          rw [nowSeconds_fin, JsNumber.fin_add_fin, JsNumber.fin_sub_fin,
            JsNumber.fin_lt_fin] at hold
          have := lt_floor hnow
          exact hold (by linarith)
  | some expires =>
      rw [hexpires] at h
      rcases h with ⟨hnum, hfinite⟩ | hcreated
      · cases expires with
        | nan => exact absurd rfl hnum
        | posInf => exact absurd rfl hfinite
        | negInf =>
            refine ⟨0, fun now _ hfresh => ?_⟩
            have hlate := (staleReason_eq_none_iff.1 hfresh).2 _ hexpires
            rw [nowSeconds_fin] at hlate
            exact hlate rfl
        | fin e =>
            refine ⟨1000 * (e + tolerance + 1), fun now hnow hfresh => ?_⟩
            have hlate := (staleReason_eq_none_iff.1 hfresh).2 _ hexpires
            rw [nowSeconds_fin, JsNumber.fin_sub_fin, JsNumber.fin_lt_fin] at hlate
            have := lt_floor hnow
            exact hlate (by linarith)
      · exact ⟨0, fun now _ => hnever hcreated⟩

/-- A number that finite times get past, or that compares with none. -/
private theorem exists_not_lt {created : JsNumber} (h : created ≠ .posInf) (T : ℚ) :
    ∃ now : ℚ, T < now ∧ ¬ nowSeconds (.fin now) + .fin tolerance < created := by
  cases created with
  | nan => exact ⟨T + 1, by linarith, JsNumber.not_lt_nan _⟩
  | posInf => exact absurd rfl h
  | negInf =>
      refine ⟨T + 1, by linarith, ?_⟩
      rw [nowSeconds_fin]
      exact Bool.false_ne_true
  | fin c =>
      refine ⟨max (T + 1) (1000 * (c - tolerance + 1) + 1), ?_, ?_⟩
      · exact lt_of_lt_of_le (by linarith) (le_max_left _ _)
      · have hlate : 1000 * (c - tolerance + 1) < max (T + 1) (1000 * (c - tolerance + 1) + 1) :=
          lt_of_lt_of_le (by linarith) (le_max_right _ _)
        have hpast := lt_floor hlate
        rw [nowSeconds_fin, JsNumber.fin_add_fin, JsNumber.fin_lt_fin]
        linarith

/-- A window that does not close is open after any time. -/
theorem fresh_of_not_lapses (h : ¬ Lapses params) (T : ℚ) :
    ∃ now : ℚ, T < now ∧
      staleReason (.fin now) (.fin maxAge) (.fin tolerance) params = none := by
  simp only [staleReason_eq_none_iff]
  unfold Lapses at h
  cases hexpires : params.expires with
  | none =>
      rw [hexpires] at h
      refine ⟨T + 1, by linarith, ?_, fun _ he => by cases he⟩
      intro created hcreated
      have hnan : created = .nan := by
        by_contra hnum
        exact h ⟨created, hcreated, hnum⟩
      rw [hnan]
      refine ⟨JsNumber.not_lt_nan _, fun _ => ?_⟩
      rw [nowSeconds_fin]
      exact JsNumber.not_lt_nan _
  | some expires =>
      rw [hexpires] at h
      obtain ⟨hopen, hcreated⟩ := not_or.1 h
      have hnever : ∀ now : ℚ, ¬ expires < nowSeconds (.fin now) - .fin tolerance := by
        intro now
        cases expires with
        | nan => exact JsNumber.not_nan_lt _
        | posInf =>
            rw [nowSeconds_fin]
            exact Bool.false_ne_true
        | negInf => exact absurd ⟨JsNumber.noConfusion, JsNumber.noConfusion⟩ hopen
        | fin e => exact absurd ⟨JsNumber.noConfusion, JsNumber.noConfusion⟩ hopen
      cases hc : params.created with
      | none =>
          refine ⟨T + 1, by linarith, ?_, ?_⟩
          · intro created hc'
            cases hc'
          · intro e he
            cases he
            exact hnever _
      | some created =>
          have hinf : created ≠ .posInf := fun heq => hcreated (by rw [hc, heq])
          obtain ⟨now, hnow, hpast⟩ := @exists_not_lt tolerance _ hinf T
          refine ⟨now, hnow, ?_, ?_⟩
          · intro c hc'
            cases hc'
            exact ⟨hpast, fun hnone => by cases hnone⟩
          · intro e he
            cases he
            exact hnever now

/-- Before `created`, less the tolerance, the request is in the future. -/
theorem stale_before_created {created : JsNumber} (hcreated : params.created = some created)
    {now : ℚ} (hearly : JsNumber.fin (now / 1000) < created - .fin tolerance) :
    staleReason (.fin now) (.fin maxAge) (.fin tolerance) params ≠ none := by
  intro hfresh
  have hfuture := ((staleReason_eq_none_iff.1 hfresh).1 _ hcreated).1
  rw [nowSeconds_fin, JsNumber.fin_add_fin] at hfuture
  cases created with
  | nan => exact absurd hearly (JsNumber.not_lt_nan _)
  | posInf => exact hfuture rfl
  | negInf => exact absurd hearly Bool.false_ne_true
  | fin c =>
      rw [JsNumber.fin_lt_fin] at hfuture
      rw [JsNumber.fin_sub_fin, JsNumber.fin_lt_fin] at hearly
      have hfloor : ((now / 1000).floor : ℚ) ≤ now / 1000 := Int.floor_le _
      exact hfuture (by linarith)

end Window

/-! ## The verifiers -/

/-- From some time on the request is rejected, and it is rejected whenever the
clock is more than the tolerance before its `created`. -/
def Perishable (verify : JsNumber → SignedRequest → IdentityResult) (label : Option String)
    (tolerance : JsNumber) (r : SignedRequest) : Prop :=
  (∃ T : ℚ, ∀ now : ℚ, T < now → (verify (.fin now) r).verified = false) ∧
    ∀ name params created (now : ℚ),
      parseSignatureInput r.signatureInput label = some (name, params) →
      params.created = some created → JsNumber.fin (now / 1000) < created - tolerance →
      (verify (.fin now) r).verified = false

/-- A verifier that accepts by a scheme lets the requests expire whose window
closes, and those that it would never accept. -/
theorem Scheme.perishable_iff {β : Type} {S : Scheme β}
    {verify : JsNumber → SignedRequest → IdentityResult}
    (hverify : ∀ now r, (verify now r).verified = true ↔ S.Accepts now r)
    (hmax : S.maxAge.isFinite = true) (htol : S.tolerance.isFinite = true) (r : SignedRequest) :
    Perishable verify S.label S.tolerance r ↔
      ∀ label params base sig, S.Genuine r label params base sig → Lapses params := by
  obtain ⟨maxAge, hmaxAge⟩ := JsNumber.isFinite_iff.1 hmax
  obtain ⟨tolerance, htolerance⟩ := JsNumber.isFinite_iff.1 htol
  have hrejected : ∀ now : ℚ, (verify (.fin now) r).verified = false ↔
      ¬ ∃ label params base sig, S.Genuine r label params base sig ∧
        staleReason (.fin now) (.fin maxAge) (.fin tolerance) params = none := by
    intro now
    rw [← Bool.not_eq_true, hverify]
    unfold Scheme.Accepts
    rw [hmaxAge, htolerance]
  constructor
  · rintro ⟨⟨T, hT⟩, -⟩ label params base sig hgenuine
    by_contra hopen
    obtain ⟨now, hnow, hfresh⟩ := fresh_of_not_lapses hopen T
    exact (hrejected now).1 (hT now hnow) ⟨label, params, base, sig, hgenuine, hfresh⟩
  · intro hlapses
    constructor
    · by_cases hgenuine : ∃ label params base sig, S.Genuine r label params base sig
      · obtain ⟨label, params, base, sig, hgenuine⟩ := hgenuine
        obtain ⟨T, hT⟩ := stale_of_lapses (hlapses label params base sig hgenuine)
        refine ⟨T, fun now hnow => (hrejected now).2 ?_⟩
        rintro ⟨label', params', base', sig', hgenuine', hfresh⟩
        cases hgenuine.parsed.symm.trans hgenuine'.parsed
        exact hT now hnow hfresh
      · refine ⟨0, fun now _ => (hrejected now).2 ?_⟩
        rintro ⟨label, params, base, sig, hgenuine', -⟩
        exact hgenuine ⟨label, params, base, sig, hgenuine'⟩
    · intro name params created now hparsed hcreated hearly
      rw [htolerance] at hearly
      refine (hrejected now).2 ?_
      rintro ⟨label, params', base, sig, hgenuine, hfresh⟩
      cases hparsed.symm.trans hgenuine.parsed
      exact stale_before_created hcreated hearly hfresh

/-- **Exactly the requests whose window closes expire**, for both verifiers. -/
theorem requests_expire_iff {κ β δ γ : Type} (ed : EdCrypto κ β) (visa : VisaTapOptions κ)
    (eth : EthCrypto δ γ) (erc : Erc8128Options δ γ)
    (hvisaAge : (maxAgeOf visa.maxAgeSeconds).isFinite = true)
    (hvisaTolerance : (toleranceOf visa.toleranceSeconds).isFinite = true)
    (hercAge : (maxAgeOf erc.maxAgeSeconds).isFinite = true)
    (hercTolerance : (toleranceOf erc.toleranceSeconds).isFinite = true) :
    (∀ r, Perishable (visaTapVerify ed visa) visa.label (toleranceOf visa.toleranceSeconds) r ↔
      ∀ label params base sig, (visaScheme ed visa).Genuine r label params base sig →
        Lapses params) ∧
    ∀ r, Perishable (erc8128Verify eth erc) erc.label (toleranceOf erc.toleranceSeconds) r ↔
      ∀ label params base sig, (erc8128Scheme eth erc).Genuine r label params base sig →
        Lapses params := by
  constructor
  · exact (visaScheme ed visa).perishable_iff (visaTapVerify_iff ed visa) hvisaAge hvisaTolerance
  · exact (erc8128Scheme eth erc).perishable_iff (erc8128Verify_iff eth erc) hercAge hercTolerance

namespace Sample

/-- A registry of one key, which signed one text. -/
def edCrypto (base : String) : EdCrypto Unit String where
  fromBase64 := id
  edVerify _ text sig := text == base && sig == "AAAA"

def visaOptions : VisaTapOptions Unit where
  resolveKey keyid := if keyid = "k" then some () else none
  label := none
  maxAgeSeconds := none
  toleranceSeconds := none
  identityOf := none

def ethCrypto : EthCrypto Unit String where
  fromBase64 := id
  recoverErc8128Address _ _ := .error "ERC-8128 signature must be 65 bytes (got 3)"
  eip191Hash _ := ()

def ercOptions : Erc8128Options Unit String where
  maxAgeSeconds := none
  toleranceSeconds := none
  label := none
  identityOf := none
  resolveContractSig := none

def signedRequest (signatureInput method : String) : SignedRequest where
  method := method
  authority := "api.example.com"
  path := "/agent/pay"
  headers _ := none
  signatureInput := signatureInput
  signature := "sig1=:AAAA:"

/-- Neither `created` nor `expires`. -/
def undatedInput : String :=
  "sig1=(\"@method\" \"@authority\" \"@path\");keyid=\"k\";alg=\"ed25519\""

def undatedBase : String :=
  "\"@method\": POST\n\"@authority\": api.example.com\n\"@path\": /agent/pay\n" ++
    "\"@signature-params\": (\"@method\" \"@authority\" \"@path\");keyid=\"k\";alg=\"ed25519\""

end Sample

open Sample in
theorem requests_expire_iff_defaults :
    (∀ r, Perishable (visaTapVerify (edCrypto undatedBase) visaOptions) none 30 r ↔
      ∀ label params base sig,
        (visaScheme (edCrypto undatedBase) visaOptions).Genuine r label params base sig →
          Lapses params) ∧
    ∀ r, Perishable (erc8128Verify ethCrypto ercOptions) none 30 r ↔
      ∀ label params base sig,
        (erc8128Scheme ethCrypto ercOptions).Genuine r label params base sig → Lapses params :=
  requests_expire_iff (edCrypto undatedBase) visaOptions ethCrypto ercOptions rfl rfl rfl rfl

open Sample in
/-- A signature without either time is accepted for good. -/
theorem undated_request_never_expires :
    ¬ Perishable (visaTapVerify (edCrypto undatedBase) visaOptions) none 30
      (signedRequest undatedInput "POST") := by
  rintro ⟨⟨T, hT⟩, -⟩
  have hrun : (visaTapVerify (edCrypto undatedBase) visaOptions 0
      (signedRequest undatedInput "POST")).verified = true := by decide +kernel
  obtain ⟨label, params, base, sig, hgenuine, -⟩ := (visaTapVerify_iff _ _ _ _).1 hrun
  have htimes : ((parseSignatureInput undatedInput none).map fun e =>
      (e.2.created, e.2.expires)) = some (none, none) := by decide +kernel
  have hparsed : parseSignatureInput undatedInput none = some (label, params) := hgenuine.parsed
  rw [hparsed] at htimes
  obtain ⟨hcreated, hexpires⟩ := Prod.mk.inj (Option.some.inj htimes)
  have hopen : ¬ Lapses params := by
    unfold Lapses
    simp only at hcreated hexpires
    rw [hexpires]
    rintro ⟨created, h, -⟩
    rw [hcreated] at h
    cases h
  obtain ⟨now, hnow, hfresh⟩ := @fresh_of_not_lapses 300 30 params hopen T
  have hverified := (visaTapVerify_iff _ _ _ _).2 ⟨label, params, base, sig, hgenuine, hfresh⟩
  rw [hT now hnow] at hverified
  cases hverified

end AgentWorth
