import AgentWorth.Identity.Binding
import AgentWorth.Identity.SignatureInput

/-!
# The signature base is injective

The last line of a base is the text its parameters were read from, and the
parameters are a function of that text; the lines before it are then the values
of known components.
-/

namespace AgentWorth

open AgentWorth.Js

/-- The target and the headers of a request are on one line each, as HTTP has
them. -/
structure OneLineRequest (r : SignedRequest) : Prop where
  method : OneLine r.method.toList
  authority : OneLine r.authority.toList
  path : OneLine r.path.toList
  headers : ∀ name v, r.headers name = some v → OneLine v.toList

theorem oneLine_map {f : Char → Char} (hf : ∀ c, f c = '\n' → c = '\n') {cs : List Char}
    (h : OneLine cs) : OneLine (cs.map f) := by
  intro hmem
  obtain ⟨c, hc, hbreak⟩ := List.mem_map.1 hmem
  exact h (hf c hbreak ▸ hc)

/-- A shift of a letter that lands on a line break came from no letter. -/
private theorem shift_ne_break {v shift : UInt32} (hlo : 65 ≤ v.toNat) (hhi : v.toNat ≤ 122)
    (hshift : shift.toNat = 32 ∨ shift.toNat = 4294967264) : v + shift ≠ 10 := by
  intro h
  have hsum := congrArg UInt32.toNat h
  rw [UInt32.toNat_add] at hsum
  have hten : (10 : UInt32).toNat = 10 := rfl
  omega

theorem toUpper_eq_break {c : Char} (h : c.toUpper = '\n') : c = '\n' := by
  unfold Char.toUpper at h
  split at h
  · next hlower =>
      have hlo : 97 ≤ c.val.toNat := UInt32.le_iff_toNat_le.1 hlower.1
      have hhi : c.val.toNat ≤ 122 := UInt32.le_iff_toNat_le.1 hlower.2
      refine absurd (congrArg Char.val h) (shift_ne_break ?_ hhi (.inr ?_))
      · omega
      · decide
  · exact h

theorem toLower_eq_break {c : Char} (h : c.toLower = '\n') : c = '\n' := by
  unfold Char.toLower at h
  split at h
  · next hupper =>
      have hlo : 65 ≤ c.val.toNat := UInt32.le_iff_toNat_le.1 hupper.1
      have hhi : c.val.toNat ≤ 90 := UInt32.le_iff_toNat_le.1 hupper.2
      refine absurd (congrArg Char.val h) (shift_ne_break hlo ?_ (.inl ?_))
      · omega
      · decide
  · exact h

theorem OneLineRequest.componentValue {r : SignedRequest} (h : OneLineRequest r)
    {id : List Char} {v : String} (hv : componentValue id r = some v) : OneLine v.toList := by
  unfold AgentWorth.componentValue at hv
  dsimp only at hv
  split_ifs at hv
  · cases hv
    rw [toUpperCase, String.toList_ofList]
    exact oneLine_map (fun _ => toUpper_eq_break) h.method
  · cases hv
    rw [toLowerCase, String.toList_ofList]
    exact oneLine_map (fun _ => toLower_eq_break) h.authority
  · cases hv
    exact h.path
  · exact h.headers _ v hv

/-- The lines of a base end in its last line. -/
theorem labelledLines_last (lines : List (List Char × List Char)) (last : List Char) :
    labelledLines lines last = last ∨
      ∃ before, labelledLines lines last = before ++ '\n' :: last := by
  induction lines with
  | nil => exact .inl rfl
  | cons line lines ih =>
      obtain ⟨id, v⟩ := line
      right
      rcases ih with h | ⟨before, h⟩
      · exact ⟨id ++ (": ".toList ++ v), by rw [labelledLines, h]; simp⟩
      · exact ⟨id ++ (": ".toList ++ (v ++ '\n' :: before)), by rw [labelledLines, h]; simp⟩

/-- Last lines without a break are read off the text. -/
theorem labelledLines_last_inj {lines lines' : List (List Char × List Char)}
    {last last' : List Char} (hlast : OneLine last) (hlast' : OneLine last')
    (h : labelledLines lines last = labelledLines lines' last') : last = last' := by
  rcases labelledLines_last lines last with h1 | ⟨before, h1⟩
  · rcases labelledLines_last lines' last' with h2 | ⟨before', h2⟩
    · rw [← h1, h, h2]
    · rw [h1, h2] at h
      exact absurd (h ▸ hlast) (by simp [OneLine])
  · rcases labelledLines_last lines' last' with h2 | ⟨before', h2⟩
    · rw [h1, h2] at h
      exact absurd (h ▸ hlast') (by simp [OneLine])
    · rw [h1, h2] at h
      exact (lastLine_inj hlast hlast' h).2

/-- **Requests with one base are one request as far as it covers them**: the
parameters, the components and the value of each. -/
theorem signature_base_injective {req req' : SignedRequest} {value value' : String}
    {label label' : Option String} {name name' base : String}
    {params params' : ParsedSignatureParams} (hreq : OneLineRequest req)
    (hvalue : OneLine value.toList) (hvalue' : OneLine value'.toList)
    (hparse : parseSignatureInput value label = some (name, params))
    (hparse' : parseSignatureInput value' label' = some (name', params'))
    (hbase : buildSignatureBase req params = some base)
    (hbase' : buildSignatureBase req' params' = some base) :
    params.raw = params'.raw ∧ params.components = params'.components ∧
      ∀ id ∈ params.components, componentValue id req = componentValue id req' := by
  obtain ⟨hread, hchars⟩ := readEntry_of_parse hparse
  obtain ⟨hread', hchars'⟩ := readEntry_of_parse hparse'
  obtain ⟨lines, -, htext⟩ := Option.map_eq_some_iff.1 hbase
  obtain ⟨lines', -, htext'⟩ := Option.map_eq_some_iff.1 hbase'
  have honeLine : ∀ {p : ParsedSignatureParams} {v : String}, OneLine v.toList →
      (∀ c ∈ p.raw, c ∈ v.toList) → OneLine (signatureParamsLine p) := by
    intro p v hv hp
    exact oneLine_append.2 ⟨by decide, fun hbreak => hv (hp _ hbreak)⟩
  have hlast := labelledLines_last_inj (honeLine hvalue hchars) (honeLine hvalue' hchars')
    (String.ofList_injective (htext.trans htext'.symm))
  have hraw : params.raw = params'.raw := List.append_cancel_left hlast
  -- the components are read from the text of the parameters
  have hparams : params = params' := by
    rw [← hraw, hread] at hread'
    exact Option.some.inj hread'
  subst hparams
  refine ⟨rfl, rfl, fun id hid => ?_⟩
  exact (componentValue_of_base (fun id' _ v hv => hreq.componentValue hv) hbase hbase' id hid).symm

namespace Sample

/-- One component is covered. -/
def methodInput : String := "sig1=(\"@method\");keyid=\"k\""

def methodBase : String :=
  "\"@method\": POST\n\"@signature-params\": (\"@method\");keyid=\"k\""

/-- Requests that differ in what is not covered. -/
def pathRequest (method path : String) : SignedRequest where
  method := method
  authority := "api.example.com"
  path := path
  headers _ := none
  signatureInput := methodInput
  signature := "sig1=:AAAA:"

theorem oneLineRequest_pathRequest {method path : String} (hmethod : OneLine method.toList)
    (hpath : OneLine path.toList) : OneLineRequest (pathRequest method path) where
  method := hmethod
  authority := (by decide : OneLine "api.example.com".toList)
  path := hpath
  headers := fun name v hv => by cases hv

end Sample

open Sample in
theorem signature_base_injective_method :
    ∃ params base, parseSignatureInput methodInput none = some ("sig1", params) ∧
      buildSignatureBase (pathRequest "post" "/a") params = some base ∧
      buildSignatureBase (pathRequest "POST" "/b") params = some base ∧
      ∀ id ∈ params.components,
        componentValue id (pathRequest "post" "/a") =
          componentValue id (pathRequest "POST" "/b") := by
  obtain ⟨entry, hentry⟩ : ∃ entry, parseSignatureInput methodInput none = some entry :=
    Option.isSome_iff_exists.1 (by decide +kernel)
  obtain ⟨name, params⟩ := entry
  have hname : name = "sig1" := by
    have hfst : (parseSignatureInput methodInput none).map Prod.fst = some "sig1" := by
      decide +kernel
    rw [hentry] at hfst
    exact Option.some.inj hfst
  subst hname
  have hcomponents : (parseSignatureInput methodInput none).map
      (fun e => (buildSignatureBase (pathRequest "post" "/a") e.2,
        buildSignatureBase (pathRequest "POST" "/b") e.2)) =
      some (some methodBase, some methodBase) := by
    decide +kernel
  rw [hentry, Option.map_some, Option.some.injEq, Prod.mk.injEq] at hcomponents
  exact ⟨params, methodBase, hentry, hcomponents.1, hcomponents.2,
    (signature_base_injective (oneLineRequest_pathRequest (by decide) (by decide)) (by decide)
      (by decide) hentry hentry hcomponents.1 hcomponents.2).2.2⟩

end AgentWorth
