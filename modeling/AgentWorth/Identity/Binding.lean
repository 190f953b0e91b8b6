import AgentWorth.Identity.Freshness
import AgentWorth.Lib.Lines

/-!
# What a signature is bound to

A captured signature can be presented with any other request for which the same
`Signature-Input` rebuilds the same text.  Values without line breaks are read
back from that text, so the components that are named are bound; a component
that is not named is free.
-/

namespace AgentWorth

open AgentWorth.Js

/-! ## Reading labelled lines back -/

theorem count_labelledLines (lines : List (List Char × List Char)) (last : List Char) :
    (labelledLines lines last).count '\n' =
      (lines.map fun line => line.1.count '\n' + (line.2.count '\n' + 1)).sum +
        last.count '\n' := by
  induction lines with
  | nil => simp [labelledLines]
  | cons line lines ih =>
      obtain ⟨id, v⟩ := line
      have hsep : List.count '\n' ": ".toList = 0 := by decide
      simp only [labelledLines, List.count_append, List.count_cons_self, ih, hsep, List.map_cons,
        List.sum_cons]
      omega

/-- Under one sequence of labels, a text with as few line breaks as another has
its values on one line too. -/
private theorem oneLine_of_count_le {lines lines' : List (List Char × List Char)}
    (hids : lines'.map Prod.fst = lines.map Prod.fst) (hlines : ∀ line ∈ lines, OneLine line.2)
    (hcount : (lines'.map fun line => line.1.count '\n' + (line.2.count '\n' + 1)).sum ≤
      (lines.map fun line => line.1.count '\n' + (line.2.count '\n' + 1)).sum) :
    ∀ line ∈ lines', OneLine line.2 := by
  have hle : ∀ (xs ys : List (List Char × List Char)), ys.map Prod.fst = xs.map Prod.fst →
      (∀ line ∈ xs, OneLine line.2) →
      (xs.map fun line => line.1.count '\n' + (line.2.count '\n' + 1)).sum +
          (ys.map fun line => line.2.count '\n').sum =
        (ys.map fun line => line.1.count '\n' + (line.2.count '\n' + 1)).sum := by
    intro xs
    induction xs with
    | nil =>
        intro ys hys _
        rw [List.map_nil, List.map_eq_nil_iff] at hys
        rw [hys]
        rfl
    | cons x xs ih =>
        intro ys hys hxs
        cases ys with
        | nil => cases hys
        | cons y ys =>
            obtain ⟨hid, hrest⟩ := List.cons.inj hys
            have hx : x.2.count '\n' = 0 := List.count_eq_zero.2 (hxs x (List.mem_cons_self ..))
            have ihStep := ih ys hrest fun line hline => hxs line (List.mem_cons_of_mem _ hline)
            simp only [List.map_cons, List.sum_cons]
            rw [hid, hx]
            omega
  have hsum := hle lines lines' hids hlines
  have hzero : (lines'.map fun line => line.2.count '\n').sum = 0 := by omega
  intro line hline
  rw [List.sum_eq_zero_iff] at hzero
  exact List.count_eq_zero.1 (hzero _ (List.mem_map_of_mem hline))

private theorem labelledLines_cancel {lines lines' : List (List Char × List Char)}
    {last : List Char} (hids : lines'.map Prod.fst = lines.map Prod.fst)
    (hlines : ∀ line ∈ lines, OneLine line.2) (hlines' : ∀ line ∈ lines', OneLine line.2)
    (h : labelledLines lines last = labelledLines lines' last) : lines = lines' := by
  induction lines generalizing lines' with
  | nil =>
      rw [List.map_nil, List.map_eq_nil_iff] at hids
      exact hids.symm
  | cons line lines ih =>
      cases lines' with
      | nil => cases hids
      | cons line' lines' =>
          obtain ⟨id, v⟩ := line
          obtain ⟨id', v'⟩ := line'
          obtain ⟨hid, hrest⟩ := List.cons.inj hids
          have hid' : id' = id := hid
          subst hid'
          have hvalue := List.append_cancel_left (List.append_cancel_left h)
          obtain ⟨hv, htail⟩ := firstLine_inj (hlines _ (List.mem_cons_self ..))
            (hlines' _ (List.mem_cons_self ..)) hvalue
          have hv' : v = v' := hv
          rw [hv', ih hrest (fun line hline => hlines line (List.mem_cons_of_mem _ hline))
            (fun line hline => hlines' line (List.mem_cons_of_mem _ hline)) htail]

/-- **Values on one line are determined by the text**, even against values that
are not. -/
theorem labelledLines_inj {lines lines' : List (List Char × List Char)} {last : List Char}
    (hids : lines'.map Prod.fst = lines.map Prod.fst) (hlines : ∀ line ∈ lines, OneLine line.2)
    (h : labelledLines lines last = labelledLines lines' last) : lines = lines' := by
  refine labelledLines_cancel hids hlines (oneLine_of_count_le hids hlines ?_) h
  have hcount := congrArg (List.count '\n') h
  rw [count_labelledLines, count_labelledLines] at hcount
  omega

/-! ## Covered components -/

theorem coveredValues_eq_some {req : SignedRequest} {ids : List (List Char)}
    {lines : List (List Char × List Char)} (h : coveredValues req ids = some lines) :
    lines.map Prod.fst = ids ∧
      ∀ line ∈ lines, componentValue line.1 req = some (String.ofList line.2) := by
  induction ids generalizing lines with
  | nil =>
      cases h
      exact ⟨rfl, fun _ hline => absurd hline List.not_mem_nil⟩
  | cons id ids ih =>
      obtain ⟨v, hv, hrest⟩ := Option.bind_eq_some_iff.1 h
      obtain ⟨tail, htail, rfl⟩ := Option.map_eq_some_iff.1 hrest
      obtain ⟨hids, hvalues⟩ := ih htail
      refine ⟨by rw [List.map_cons, hids], ?_⟩
      intro line hline
      rcases List.mem_cons.1 hline with rfl | hline
      · rw [String.ofList_toList]
        exact hv
      · exact hvalues line hline

theorem coveredValues_congr {req req' : SignedRequest} {ids : List (List Char)}
    (h : ∀ id ∈ ids, componentValue id req' = componentValue id req) :
    coveredValues req' ids = coveredValues req ids := by
  induction ids with
  | nil => rfl
  | cons id ids ih =>
      rw [coveredValues, coveredValues, h id (List.mem_cons_self ..),
        ih fun id' hid' => h id' (List.mem_cons_of_mem _ hid')]

/-- One text under one `Signature-Input` gives the covered components one
value. -/
theorem componentValue_of_base {req req' : SignedRequest} {params : ParsedSignatureParams}
    {base : String}
    (hlines : ∀ id ∈ params.components, ∀ v, componentValue id req = some v → OneLine v.toList)
    (hbase : buildSignatureBase req params = some base)
    (hbase' : buildSignatureBase req' params = some base) :
    ∀ id ∈ params.components, componentValue id req' = componentValue id req := by
  obtain ⟨lines, hvalues, htext⟩ := Option.map_eq_some_iff.1 hbase
  obtain ⟨lines', hvalues', htext'⟩ := Option.map_eq_some_iff.1 hbase'
  obtain ⟨hids, hread⟩ := coveredValues_eq_some hvalues
  obtain ⟨hids', hread'⟩ := coveredValues_eq_some hvalues'
  have hone : ∀ line ∈ lines, OneLine line.2 := by
    intro line hline
    have hid : line.1 ∈ params.components := by
      rw [← hids]
      exact List.mem_map_of_mem hline
    have hv := hlines line.1 hid _ (hread line hline)
    rwa [String.toList_ofList] at hv
  have hsame : lines = lines' :=
    labelledLines_inj (hids'.trans hids.symm) hone
      (String.ofList_injective (htext.trans htext'.symm))
  intro id hid
  rw [← hids, List.mem_map] at hid
  obtain ⟨line, hline, rfl⟩ := hid
  rw [hread line hline, hread' line (hsame ▸ hline)]

/-! ## Binding -/

/-- Method and authority up to case, and the path. -/
structure SameTarget (r r' : SignedRequest) : Prop where
  method : toUpperCase r.method = toUpperCase r'.method
  authority : toLowerCase r.authority = toLowerCase r'.authority
  path : r.path = r'.path

/-- The component list names a derived component. -/
def NamesComponent (params : ParsedSignatureParams) (name : String) : Prop :=
  ∃ id ∈ params.components, componentName id = name

/-- The entry that is read covers the whole target of a request. -/
def CoversTarget (label : Option String) (signatureInput : String) : Prop :=
  ∀ name params, parseSignatureInput signatureInput label = some (name, params) →
    NamesComponent params "@method" ∧ NamesComponent params "@authority" ∧
      NamesComponent params "@path"

/-- No covered value has a line break, as those of HTTP have none. -/
def PlainValues (label : Option String) (r : SignedRequest) : Prop :=
  ∀ name params, parseSignatureInput r.signatureInput label = some (name, params) →
    ∀ id ∈ params.components, ∀ v, componentValue id r = some v → OneLine v.toList

/-- The signature of a request verifies with requests for its target only. -/
def BoundToTarget (verify : JsNumber → SignedRequest → IdentityResult) (r : SignedRequest) :
    Prop :=
  ∀ now r', r'.signatureInput = r.signatureInput → r'.signature = r.signature →
    (verify now r').verified = true → SameTarget r r'

theorem componentValue_method {id : List Char} (h : componentName id = "@method")
    (r : SignedRequest) : componentValue id r = some (toUpperCase r.method) := by
  rw [componentValue, h]
  rfl

theorem componentValue_authority {id : List Char} (h : componentName id = "@authority")
    (r : SignedRequest) : componentValue id r = some (toLowerCase r.authority) := by
  rw [componentValue, h]
  rfl

theorem componentValue_path {id : List Char} (h : componentName id = "@path")
    (r : SignedRequest) : componentValue id r = some r.path := by
  rw [componentValue, h]
  rfl

theorem sameTarget_of_covers {r r' : SignedRequest} {params : ParsedSignatureParams}
    (hmethod : NamesComponent params "@method") (hauthority : NamesComponent params "@authority")
    (hpath : NamesComponent params "@path")
    (h : ∀ id ∈ params.components, componentValue id r' = componentValue id r) :
    SameTarget r r' := by
  obtain ⟨m, hm, hmName⟩ := hmethod
  obtain ⟨a, ha, haName⟩ := hauthority
  obtain ⟨p, hp, hpName⟩ := hpath
  have hmValue := h m hm
  have haValue := h a ha
  have hpValue := h p hp
  rw [componentValue_method hmName, componentValue_method hmName, Option.some.injEq] at hmValue
  rw [componentValue_authority haName, componentValue_authority haName,
    Option.some.injEq] at haValue
  rw [componentValue_path hpName, componentValue_path hpName, Option.some.injEq] at hpValue
  exact ⟨hmValue.symm, haValue.symm, hpValue.symm⟩

/-- A longer text is another one, in either case. -/
private theorem map_append_ne (f : Char → Char) (s : String) :
    String.ofList (s.toList.map f) ≠ String.ofList ((s ++ "x").toList.map f) := by
  intro h
  have hlength := congrArg List.length (String.ofList_injective h)
  simp at hlength

/-- What is not covered can be changed under the signature. -/
theorem covers_of_unchanged {r r' : SignedRequest} {params : ParsedSignatureParams}
    {name : String} (hsame : ∀ id, componentName id ≠ name →
      componentValue id r' = componentValue id r)
    (hbound : buildSignatureBase r' params = buildSignatureBase r params → False) :
    NamesComponent params name := by
  by_contra hfree
  refine hbound ?_
  unfold buildSignatureBase
  rw [coveredValues_congr fun id hid => hsame id fun hname => hfree ⟨id, hid, hname⟩]

/-- **What an accepted signature binds**: every request it binds to its target
covers the target, and one that covers it, in values without line breaks, is
bound. -/
theorem Scheme.binding {β : Type} {S : Scheme β}
    {verify : JsNumber → SignedRequest → IdentityResult}
    (hverify : ∀ now r, (verify now r).verified = true ↔ S.Accepts now r)
    (hscheme : ∀ params base base' sig, S.holds params base sig → S.holds params base' sig →
      base = base') {now : JsNumber} {r : SignedRequest} (haccepts : S.Accepts now r) :
    (BoundToTarget verify r → CoversTarget S.label r.signatureInput) ∧
      (CoversTarget S.label r.signatureInput → PlainValues S.label r →
        BoundToTarget verify r) := by
  obtain ⟨label, params, base, sig, ⟨hparsed, hsignature, hbase, hholds⟩, hfresh⟩ := haccepts
  constructor
  · intro hbound name params' hparsed'
    cases hparsed.symm.trans hparsed'
    have hreplay : ∀ r' : SignedRequest, r'.signatureInput = r.signatureInput →
        r'.signature = r.signature → ¬ SameTarget r r' →
        buildSignatureBase r' params = buildSignatureBase r params → False := by
      intro r' hinput hsig hother hsame
      refine hother (hbound now r' hinput hsig ((hverify now r').2 ?_))
      refine ⟨label, params, base, sig, ⟨?_, ?_, hsame.trans hbase, hholds⟩, hfresh⟩
      · rw [hinput]
        exact hparsed
      · rw [hsig]
        exact hsignature
    refine ⟨?_, ?_, ?_⟩
    · refine covers_of_unchanged ?_
        (hreplay { r with method := r.method ++ "x" } rfl rfl fun h => map_append_ne _ _ h.method)
      intro id hname
      simp only [componentValue, if_neg hname]
    · refine covers_of_unchanged ?_
        (hreplay { r with authority := r.authority ++ "x" } rfl rfl
          fun h => map_append_ne _ _ h.authority)
      intro id hname
      simp only [componentValue, if_neg hname]
    · refine covers_of_unchanged ?_
        (hreplay { r with path := r.path ++ "x" } rfl rfl ?_)
      · intro id hname
        simp only [componentValue, if_neg hname]
      · intro h
        have hlength := congrArg String.length h.path
        simp at hlength
  · intro hcovers hplain now' r' hinput hsig hverified
    obtain ⟨label', params', base', sig', ⟨hparsed', hsignature', hbase', hholds'⟩, -⟩ :=
      (hverify now' r').1 hverified
    rw [hinput] at hparsed'
    cases hparsed.symm.trans hparsed'
    rw [hsig] at hsignature'
    cases hsignature.symm.trans hsignature'
    cases hscheme params base base' sig hholds hholds'
    obtain ⟨hmethod, hauthority, hpath⟩ := hcovers label params hparsed
    exact sameTarget_of_covers hmethod hauthority hpath
      (componentValue_of_base (hplain label params hparsed) hbase hbase')

/-- **A captured signature is bound to its target exactly where it covers it**,
for both verifiers. -/
theorem signature_binds_target {κ β δ γ : Type} (ed : EdCrypto κ β) (visa : VisaTapOptions κ)
    (eth : EthCrypto δ γ) (erc : Erc8128Options δ γ)
    (hed : ∀ key base base' sig, ed.edVerify key base sig = true →
      ed.edVerify key base' sig = true → base = base')
    (heth : ∀ key base base' sig, SignedBy eth erc key base sig →
      SignedBy eth erc key base' sig → base = base') :
    (∀ now r, (visaTapVerify ed visa now r).verified = true →
      (BoundToTarget (visaTapVerify ed visa) r → CoversTarget visa.label r.signatureInput) ∧
        (CoversTarget visa.label r.signatureInput → PlainValues visa.label r →
          BoundToTarget (visaTapVerify ed visa) r)) ∧
    ∀ now r, (erc8128Verify eth erc now r).verified = true →
      (BoundToTarget (erc8128Verify eth erc) r → CoversTarget erc.label r.signatureInput) ∧
        (CoversTarget erc.label r.signatureInput → PlainValues erc.label r →
          BoundToTarget (erc8128Verify eth erc) r) := by
  constructor
  · intro now r hverified
    refine (visaScheme ed visa).binding (visaTapVerify_iff ed visa) ?_
      ((visaTapVerify_iff ed visa now r).1 hverified)
    rintro params base base' sig ⟨-, -, key, hkey, hbase⟩ ⟨-, -, key', hkey', hbase'⟩
    cases hkey.symm.trans hkey'
    exact hed key base base' sig hbase hbase'
  · intro now r hverified
    refine (erc8128Scheme eth erc).binding (erc8128Verify_iff eth erc) ?_
      ((erc8128Verify_iff eth erc now r).1 hverified)
    rintro params base base' sig ⟨-, key, hkey, hbase⟩ ⟨-, key', hkey', hbase'⟩
    cases hkey.symm.trans hkey'
    exact heth key base base' sig hbase hbase'

namespace Sample

/-- Recovers the address that signed one text. -/
def signerOf (base : String) : EthCrypto Unit String where
  fromBase64 := id
  recoverErc8128Address text sig :=
    if text = base ∧ sig = "AAAA" then .ok "0x00000000000000000000000000000000000000aa"
    else .error "ERC-8128 signature must be 65 bytes (got 3)"
  eip191Hash _ := ()

/-- No component is covered. -/
def bareInput : String := "sig1=();created=1000;keyid=\"k\";alg=\"ed25519\""

def bareBase : String :=
  "\"@signature-params\": ();created=1000;keyid=\"k\";alg=\"ed25519\""

end Sample

open Sample in
theorem edCrypto_one_base (base : String) : ∀ (key : Unit) (text text' : String) (sig : String),
    (edCrypto base).edVerify key text sig = true → (edCrypto base).edVerify key text' sig = true →
      text = text' := by
  intro key text text' sig h h'
  simp only [edCrypto, Bool.and_eq_true, beq_iff_eq] at h h'
  rw [h.1, h'.1]

open Sample in
theorem signerOf_one_base (base : String) : ∀ key text text' sig,
    SignedBy (signerOf base) ercOptions key text sig →
      SignedBy (signerOf base) ercOptions key text' sig → text = text' := by
  have hbase : ∀ key text sig, SignedBy (signerOf base) ercOptions key text sig →
      text = base := by
    rintro key text sig (h | ⟨resolve, h, -⟩)
    · by_contra hother
      simp only [signerOf, hother, false_and, if_false] at h
      cases h
    · cases h
  intro key text text' sig h h'
  rw [hbase key text sig h, hbase key text' sig h']

open Sample in
theorem signature_binds_target_undated :
    (∀ now r, (visaTapVerify (edCrypto undatedBase) visaOptions now r).verified = true →
      (BoundToTarget (visaTapVerify (edCrypto undatedBase) visaOptions) r →
        CoversTarget none r.signatureInput) ∧
        (CoversTarget none r.signatureInput → PlainValues none r →
          BoundToTarget (visaTapVerify (edCrypto undatedBase) visaOptions) r)) ∧
    ∀ now r, (erc8128Verify (signerOf undatedBase) ercOptions now r).verified = true →
      (BoundToTarget (erc8128Verify (signerOf undatedBase) ercOptions) r →
        CoversTarget none r.signatureInput) ∧
        (CoversTarget none r.signatureInput → PlainValues none r →
          BoundToTarget (erc8128Verify (signerOf undatedBase) ercOptions) r) :=
  signature_binds_target (edCrypto undatedBase) visaOptions (signerOf undatedBase) ercOptions
    (edCrypto_one_base undatedBase) (signerOf_one_base undatedBase)

open Sample in
/-- A signature over no component verifies with any request. -/
theorem bare_signature_moves :
    (∀ key text text' sig, (edCrypto bareBase).edVerify key text sig = true →
      (edCrypto bareBase).edVerify key text' sig = true → text = text') ∧
    (visaTapVerify (edCrypto bareBase) visaOptions 1000000
      (signedRequest bareInput "GET")).verified = true ∧
    (visaTapVerify (edCrypto bareBase) visaOptions 1000000
      (signedRequest bareInput "POST")).verified = true ∧
    ¬ SameTarget (signedRequest bareInput "GET") (signedRequest bareInput "POST") := by
  refine ⟨edCrypto_one_base bareBase, by decide +kernel, by decide +kernel, ?_⟩
  intro h
  exact absurd h.method (by decide)

end AgentWorth
