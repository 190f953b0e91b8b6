import AgentWorth.Core.PolicyHash
import AgentWorth.Lib.Sorting

/-!
# What the policy hash commits to

Under a collision-free hash and a serializer whose text determines the value,
two policies have one hash exactly if they agree in all that the normal form
keeps: mandates as a set, their rails and the rule ids as multisets, everything
else in place.
-/

namespace AgentWorth

open AgentWorth.Js

/-- An RFC 8785 serializer: the text of a JSON value determines it up to the
order of members. -/
def SerializesJson (jcs : JsValue → String) : Prop :=
  ∀ v w, v.Stable → w.Stable → jcs v = jcs w → v.inKeyOrder = w.inKeyOrder

/-- A number with a JSON text, as every finite double. -/
def IsJsonNumber : JsNumber → Prop
  | .fin q => JsNumber.Terminates q
  | _ => False

/-- The serializer has a text for the numbers of the policy; on the others it
throws. -/
structure EffectivePolicy.Serializable (P : EffectivePolicy) : Prop where
  caps : ∀ m ∈ P.mandates, IsJsonNumber m.perTxCap ∧ IsJsonNumber m.perPeriodCap
  minRationaleChars : IsJsonNumber P.gateConfig.minRationaleChars
  gateWindow : IsJsonNumber P.gateConfig.velocityWindowMinutes
  gateCount : IsJsonNumber P.gateConfig.velocityMaxCount
  gateAnomaly : IsJsonNumber P.gateConfig.anomalyMultiple
  riskWindow : IsJsonNumber P.riskConfig.velocityWindowMinutes
  riskCount : IsJsonNumber P.riskConfig.velocityMaxCount
  riskAnomaly : IsJsonNumber P.riskConfig.anomalyMultiple

/-- Mandates that differ at most in label, grant date and the order of their
rails. -/
structure SameCommitted (m m' : Mandate) : Prop where
  id_eq : m.id = m'.id
  scope_eq : m.scope = m'.scope
  currency_eq : m.currency = m'.currency
  rails : m.allowedRails.Perm m'.allowedRails
  perTxCap_eq : m.perTxCap = m'.perTxCap
  perPeriodCap_eq : m.perPeriodCap = m'.perPeriodCap
  period_eq : m.period = m'.period
  expiresAt_eq : m.expiresAt = m'.expiresAt
  status_eq : m.status = m'.status

/-- Policies that agree in what the hash commits to. -/
structure SamePolicy (P Q : EffectivePolicy) : Prop where
  left : ∀ m ∈ P.mandates, ∃ m' ∈ Q.mandates, SameCommitted m m'
  right : ∀ m' ∈ Q.mandates, ∃ m ∈ P.mandates, SameCommitted m m'
  gateConfig_eq : P.gateConfig = Q.gateConfig
  riskConfig_eq : P.riskConfig = Q.riskConfig
  denyRuleIds : P.denyRuleIds.Perm Q.denyRuleIds

/-! ## One normal form -/

theorem mandateValue_of_sameCommitted {m m' : Mandate} (h : SameCommitted m m') :
    mandateValue m = mandateValue m' := by
  have hrails : sortByKey id (m.allowedRails.map RailKind.text) =
      sortByKey id (m'.allowedRails.map RailKind.text) :=
    sortByKey_id_eq_iff.2 (h.rails.map RailKind.text)
  simp only [mandateValue, h.id_eq, h.scope_eq, h.currency_eq, hrails, h.perTxCap_eq,
    h.perPeriodCap_eq, h.period_eq, h.expiresAt_eq, h.status_eq]

/-- Mandates of distinct ids come to one sorted list. -/
theorem sorted_mandateValues_eq {ms ms' : List Mandate} (hids : (ms.map Mandate.id).Nodup)
    (hids' : (ms'.map Mandate.id).Nodup)
    (hleft : ∀ m ∈ ms, ∃ m' ∈ ms', SameCommitted m m')
    (hright : ∀ m' ∈ ms', ∃ m ∈ ms, SameCommitted m m') :
    (sortByKey Mandate.id ms).map mandateValue = (sortByKey Mandate.id ms').map mandateValue := by
  let tagged := fun m : Mandate => (m.id, mandateValue m)
  have hnodup : ∀ {ns : List Mandate}, (ns.map Mandate.id).Nodup →
      ((ns.map tagged).map Prod.fst).Nodup := by
    intro ns hns
    rwa [List.map_map]
  have hperm : (ms.map tagged).Perm (ms'.map tagged) := by
    rw [List.perm_ext_iff_of_nodup (hnodup hids).of_map (hnodup hids').of_map]
    intro p
    rw [List.mem_map, List.mem_map]
    constructor
    · rintro ⟨m, hm, rfl⟩
      obtain ⟨m', hm', hsame⟩ := hleft m hm
      exact ⟨m', hm', Prod.ext hsame.id_eq.symm (mandateValue_of_sameCommitted hsame).symm⟩
    · rintro ⟨m', hm', rfl⟩
      obtain ⟨m, hm, hsame⟩ := hright m' hm'
      exact ⟨m, hm, Prod.ext hsame.id_eq (mandateValue_of_sameCommitted hsame)⟩
  have hsorted : sortByKey Prod.fst (ms.map tagged) = sortByKey Prod.fst (ms'.map tagged) :=
    sortByKey_eq_of_perm (List.inj_on_of_nodup_map (hnodup hids)) hperm
  rw [sortByKey_map, sortByKey_map] at hsorted
  have hvalues := congrArg (List.map Prod.snd) hsorted
  rwa [List.map_map, List.map_map] at hvalues

theorem normalizedPolicy_of_samePolicy {P Q : EffectivePolicy}
    (hP : (P.mandates.map Mandate.id).Nodup) (hQ : (Q.mandates.map Mandate.id).Nodup)
    (h : SamePolicy P Q) : normalizedPolicy P = normalizedPolicy Q := by
  have hmandates := sorted_mandateValues_eq hP hQ h.left h.right
  have hids := sortByKey_id_eq_iff.2 h.denyRuleIds
  simp only [normalizedPolicy, hmandates, hids, h.gateConfig_eq, h.riskConfig_eq]

/-! ## Read off the normal form -/

theorem exists_of_forall₂_left {α β : Type} {R : α → β → Prop} {xs : List α} {ys : List β}
    (h : List.Forall₂ R xs ys) : ∀ x ∈ xs, ∃ y ∈ ys, R x y := by
  induction h with
  | nil => simp
  | @cons x y xs ys hxy _ ih =>
      intro z hz
      rcases List.mem_cons.1 hz with rfl | hmem
      · exact ⟨y, List.mem_cons_self, hxy⟩
      · obtain ⟨w, hw, hzw⟩ := ih z hmem
        exact ⟨w, List.mem_cons_of_mem y hw, hzw⟩

theorem inKeyOrder_ofStrings (ss : List String) :
    (JsValue.ofStrings ss).inKeyOrder = .ofStrings ss := by
  unfold JsValue.ofStrings
  rw [JsValue.inKeyOrder, JsValue.inKeyOrderItems_eq, List.map_map]
  rfl

theorem scope_of_inKeyOrder {scope scope' : PayeeScope}
    (h : (scopeValue scope).inKeyOrder = (scopeValue scope').inKeyOrder) : scope = scope' := by
  cases scope with
  | «class» value =>
      cases scope' with
      | «class» value' =>
          have hvalue : JsValue.str value = .str value' :=
            JsValue.inKeyOrder_get_eq (by simp) (by simp) h "value"
          rw [JsValue.str.inj hvalue]
      | allowlist values' =>
          have hkind : JsValue.str "class" = .str "allowlist" :=
            JsValue.inKeyOrder_get_eq (by simp) (by simp) h "kind"
          exact absurd (JsValue.str.inj hkind) (by decide)
  | allowlist values =>
      cases scope' with
      | «class» value' =>
          have hkind : JsValue.str "allowlist" = .str "class" :=
            JsValue.inKeyOrder_get_eq (by simp) (by simp) h "kind"
          exact absurd (JsValue.str.inj hkind) (by decide)
      | allowlist values' =>
          have hvalues : (JsValue.ofStrings values).inKeyOrder =
              (JsValue.ofStrings values').inKeyOrder :=
            JsValue.inKeyOrder_get_eq (by simp) (by simp) h "values"
          rw [inKeyOrder_ofStrings, inKeyOrder_ofStrings] at hvalues
          rw [ofStrings_injective hvalues]

theorem periodText_injective : Function.Injective Period.text := by
  intro p p' h
  cases p <;> cases p' <;> first | rfl | exact absurd h (by decide)

/-- Each field of a mandate is a member of its value. -/
theorem sameCommitted_of_inKeyOrder {m m' : Mandate}
    (h : (mandateValue m).inKeyOrder = (mandateValue m').inKeyOrder) : SameCommitted m m' := by
  have hget := JsValue.inKeyOrder_get_eq (by simp) (by simp) h
  have hid : JsValue.str m.id = .str m'.id := hget "id"
  have hcurrency : JsValue.str m.currency = .str m'.currency := hget "currency"
  have hrails : (JsValue.ofStrings (sortByKey id (m.allowedRails.map RailKind.text))).inKeyOrder =
      (JsValue.ofStrings (sortByKey id (m'.allowedRails.map RailKind.text))).inKeyOrder :=
    hget "allowedRails"
  have hperTx : JsValue.num m.perTxCap = .num m'.perTxCap := hget "perTxCap"
  have hperPeriod : JsValue.num m.perPeriodCap = .num m'.perPeriodCap := hget "perPeriodCap"
  have hperiod : JsValue.str m.period.text = .str m'.period.text := hget "period"
  have hexpires : JsValue.str m.expiresAt = .str m'.expiresAt := hget "expiresAt"
  have hstatus : JsValue.str m.status.text = .str m'.status.text := hget "status"
  rw [inKeyOrder_ofStrings, inKeyOrder_ofStrings] at hrails
  exact
    { id_eq := JsValue.str.inj hid
      scope_eq := scope_of_inKeyOrder (hget "scope")
      currency_eq := JsValue.str.inj hcurrency
      rails := (List.map_perm_map_iff railText_injective).1
        (sortByKey_id_eq_iff.1 (ofStrings_injective hrails))
      perTxCap_eq := JsValue.num.inj hperTx
      perPeriodCap_eq := JsValue.num.inj hperPeriod
      period_eq := periodText_injective (JsValue.str.inj hperiod)
      expiresAt_eq := JsValue.str.inj hexpires
      status_eq := statusText_injective (JsValue.str.inj hstatus) }

theorem samePolicy_of_inKeyOrder {P Q : EffectivePolicy}
    (h : (normalizedPolicy P).inKeyOrder = (normalizedPolicy Q).inKeyOrder) :
    SamePolicy P Q := by
  have hget := JsValue.inKeyOrder_get_eq (by simp) (by simp) h
  have hmandates := JsValue.inKeyOrder_arr_eq (hget "mandates")
  have hgate := JsValue.inKeyOrder_get_eq (by simp) (by simp) (hget "gateConfig")
  have hrisk := JsValue.inKeyOrder_get_eq (by simp) (by simp) (hget "riskConfig")
  have hids : (JsValue.ofStrings (sortByKey id P.denyRuleIds)).inKeyOrder =
      (JsValue.ofStrings (sortByKey id Q.denyRuleIds)).inKeyOrder := hget "denyRuleIds"
  rw [inKeyOrder_ofStrings, inKeyOrder_ofStrings] at hids
  -- the sorted mandates correspond one by one
  have hrel : List.Forall₂ SameCommitted (sortByKey Mandate.id P.mandates)
      (sortByKey Mandate.id Q.mandates) := by
    rw [List.map_map, List.map_map] at hmandates
    have hforall := List.forall₂_eq_eq_eq ▸ hmandates
    rw [List.forall₂_map_left_iff, List.forall₂_map_right_iff] at hforall
    exact hforall.imp fun _ _ hvalue => sameCommitted_of_inKeyOrder hvalue
  have hgateChars : JsValue.num P.gateConfig.minRationaleChars =
      .num Q.gateConfig.minRationaleChars := hgate "minRationaleChars"
  have hgateWindow : JsValue.num P.gateConfig.velocityWindowMinutes =
      .num Q.gateConfig.velocityWindowMinutes := hgate "velocityWindowMinutes"
  have hgateCount : JsValue.num P.gateConfig.velocityMaxCount =
      .num Q.gateConfig.velocityMaxCount := hgate "velocityMaxCount"
  have hgateAnomaly : JsValue.num P.gateConfig.anomalyMultiple =
      .num Q.gateConfig.anomalyMultiple := hgate "anomalyMultiple"
  have hriskWindow : JsValue.num P.riskConfig.velocityWindowMinutes =
      .num Q.riskConfig.velocityWindowMinutes := hrisk "velocityWindowMinutes"
  have hriskCount : JsValue.num P.riskConfig.velocityMaxCount =
      .num Q.riskConfig.velocityMaxCount := hrisk "velocityMaxCount"
  have hriskAnomaly : JsValue.num P.riskConfig.anomalyMultiple =
      .num Q.riskConfig.anomalyMultiple := hrisk "anomalyMultiple"
  exact
    { left := fun m hm => by
        obtain ⟨m', hm', hsame⟩ := exists_of_forall₂_left hrel m ((mem_sortByKey _).2 hm)
        exact ⟨m', (mem_sortByKey _).1 hm', hsame⟩
      right := fun m' hm' => by
        obtain ⟨m, hm, hsame⟩ := exists_of_forall₂_left hrel.flip m' ((mem_sortByKey _).2 hm')
        exact ⟨m, (mem_sortByKey _).1 hm, hsame⟩
      gateConfig_eq := by
        cases hP : P.gateConfig
        cases hQ : Q.gateConfig
        simp_all
      riskConfig_eq := by
        cases hP : P.riskConfig
        cases hQ : Q.riskConfig
        simp_all
      denyRuleIds := sortByKey_id_eq_iff.1 (ofStrings_injective hids) }

/-! ## The normal form is JSON -/

theorem stable_jsonNumber {x : JsNumber} (h : IsJsonNumber x) : (JsValue.num x).Stable := by
  cases x with
  | fin q => exact JsValue.stable_num h
  | _ => exact h.elim

theorem stable_ofStrings (ss : List String) : (JsValue.ofStrings ss).Stable := by
  refine JsValue.stable_arr fun v hv => ?_
  obtain ⟨s, -, rfl⟩ := List.mem_map.1 hv
  exact JsValue.stable_str s

theorem stable_scopeValue (scope : PayeeScope) : (scopeValue scope).Stable := by
  cases scope with
  | «class» value =>
      refine JsValue.stable_obj (by simp) fun m hm => ?_
      simp only [List.mem_cons, List.not_mem_nil, or_false] at hm
      rcases hm with rfl | rfl
      · exact JsValue.stable_str _
      · exact JsValue.stable_str _
  | allowlist values =>
      refine JsValue.stable_obj (by simp) fun m hm => ?_
      simp only [List.mem_cons, List.not_mem_nil, or_false] at hm
      rcases hm with rfl | rfl
      · exact JsValue.stable_str _
      · exact stable_ofStrings _

theorem stable_mandateValue {m : Mandate}
    (h : IsJsonNumber m.perTxCap ∧ IsJsonNumber m.perPeriodCap) : (mandateValue m).Stable := by
  refine JsValue.stable_obj (by simp) fun member hmember => ?_
  simp only [List.mem_cons, List.not_mem_nil, or_false] at hmember
  rcases hmember with rfl | rfl | rfl | rfl | rfl | rfl | rfl | rfl | rfl
  · exact JsValue.stable_str _
  · exact stable_scopeValue _
  · exact JsValue.stable_str _
  · exact stable_ofStrings _
  · exact stable_jsonNumber h.1
  · exact stable_jsonNumber h.2
  · exact JsValue.stable_str _
  · exact JsValue.stable_str _
  · exact JsValue.stable_str _

theorem stable_normalizedPolicy {P : EffectivePolicy} (h : P.Serializable) :
    (normalizedPolicy P).Stable := by
  have hgate : ∀ member ∈ [("minRationaleChars", JsValue.num P.gateConfig.minRationaleChars),
      ("velocityWindowMinutes", .num P.gateConfig.velocityWindowMinutes),
      ("velocityMaxCount", .num P.gateConfig.velocityMaxCount),
      ("anomalyMultiple", .num P.gateConfig.anomalyMultiple)], member.2.Stable := by
    intro member hmember
    simp only [List.mem_cons, List.not_mem_nil, or_false] at hmember
    rcases hmember with rfl | rfl | rfl | rfl
    · exact stable_jsonNumber h.minRationaleChars
    · exact stable_jsonNumber h.gateWindow
    · exact stable_jsonNumber h.gateCount
    · exact stable_jsonNumber h.gateAnomaly
  have hrisk : ∀ member ∈ [("velocityWindowMinutes",
        JsValue.num P.riskConfig.velocityWindowMinutes),
      ("velocityMaxCount", .num P.riskConfig.velocityMaxCount),
      ("anomalyMultiple", .num P.riskConfig.anomalyMultiple)], member.2.Stable := by
    intro member hmember
    simp only [List.mem_cons, List.not_mem_nil, or_false] at hmember
    rcases hmember with rfl | rfl | rfl
    · exact stable_jsonNumber h.riskWindow
    · exact stable_jsonNumber h.riskCount
    · exact stable_jsonNumber h.riskAnomaly
  refine JsValue.stable_obj (by simp) fun member hmember => ?_
  simp only [List.mem_cons, List.not_mem_nil, or_false] at hmember
  rcases hmember with rfl | rfl | rfl | rfl
  · refine JsValue.stable_arr fun v hv => ?_
    obtain ⟨m, hm, rfl⟩ := List.mem_map.1 hv
    exact stable_mandateValue (h.caps m ((mem_sortByKey _).1 hm))
  · exact JsValue.stable_obj (by simp) hgate
  · exact stable_ofStrings _
  · exact JsValue.stable_obj (by simp) hrisk

/-- **The hash commits to exactly the normal form**: two policies of distinct
mandate ids hash alike if and only if they agree in what it keeps. -/
theorem policy_hash_commits_iff {crypto : Crypto} (hsha : Function.Injective crypto.sha256)
    (hjcs : SerializesJson crypto.jcs) {P Q : EffectivePolicy} (hP : P.Serializable)
    (hQ : Q.Serializable) (hPids : (P.mandates.map Mandate.id).Nodup)
    (hQids : (Q.mandates.map Mandate.id).Nodup) :
    computePolicyHash crypto P = computePolicyHash crypto Q ↔ SamePolicy P Q := by
  constructor
  · intro h
    exact samePolicy_of_inKeyOrder (hjcs _ _ (stable_normalizedPolicy hP)
      (stable_normalizedPolicy hQ) (hsha h))
  · intro h
    unfold computePolicyHash
    rw [normalizedPolicy_of_samePolicy hPids hQids h]

/-! ## A serializer -/

namespace Sample

/-- Compact JSON with the members of objects in the order of their names. -/
def canonicalText (v : JsValue) : String :=
  (Json.stringify 0 v.inKeyOrder).getD ""

theorem serializesJson_canonicalText : SerializesJson canonicalText := by
  intro v w hv hw h
  have hparse : ∀ u : JsValue, u.Stable →
      Json.parse (canonicalText u) = some u.inKeyOrder := by
    intro u hu
    have hsorted := hu.inKeyOrder
    have htext : Json.stringify 0 u.inKeyOrder = some (canonicalText u) := by
      unfold canonicalText Json.stringify
      rw [if_neg (by simp [hsorted.kept]), Option.getD_some]
    rw [Json.parse_stringify hsorted.wellFormed htext, hsorted.persisted_eq]
  have hsame := hparse w hw
  rw [← h, hparse v hv] at hsame
  exact Option.some.inj hsame

def plainCommitment : Crypto where
  sha256 := id
  hmacSha256 _ text := text
  jcs := canonicalText

theorem isJsonNumber_of_intCast (n : ℤ) : IsJsonNumber (.fin n) :=
  JsNumber.terminates_intCast n

theorem serializable_policyOf {ms : List Mandate}
    (h : ∀ m ∈ ms, IsJsonNumber m.perTxCap ∧ IsJsonNumber m.perPeriodCap) :
    (policyOf ms).Serializable where
  caps := h
  minRationaleChars := isJsonNumber_of_intCast 10
  gateWindow := isJsonNumber_of_intCast 60
  gateCount := isJsonNumber_of_intCast 5
  gateAnomaly := isJsonNumber_of_intCast 3
  riskWindow := isJsonNumber_of_intCast 60
  riskCount := isJsonNumber_of_intCast 5
  riskAnomaly := isJsonNumber_of_intCast 3

theorem capsJson : ∀ m ∈ [narrow, wide], IsJsonNumber m.perTxCap ∧ IsJsonNumber m.perPeriodCap := by
  intro m hm
  rcases List.mem_cons.1 hm with rfl | hm
  · exact ⟨isJsonNumber_of_intCast 5, isJsonNumber_of_intCast 100⟩
  · rw [List.mem_singleton.1 hm]
    exact ⟨isJsonNumber_of_intCast 60, isJsonNumber_of_intCast 100⟩

theorem sameCommitted_refl (m : Mandate) : SameCommitted m m :=
  ⟨rfl, rfl, rfl, List.Perm.refl _, rfl, rfl, rfl, rfl, rfl⟩

end Sample

open Sample in
/-- The order of the mandates does not reach the hash. -/
theorem policy_hash_commits_reordered :
    computePolicyHash plainCommitment (policyOf [narrow, wide]) =
      computePolicyHash plainCommitment (policyOf [wide, narrow]) := by
  have hswap : ∀ m, m ∈ [wide, narrow] ↔ m ∈ [narrow, wide] :=
    fun m => (List.Perm.swap narrow wide []).mem_iff
  refine (policy_hash_commits_iff (P := policyOf [narrow, wide]) (Q := policyOf [wide, narrow])
    Function.injective_id serializesJson_canonicalText (serializable_policyOf capsJson)
    (serializable_policyOf fun m hm => capsJson m ((hswap m).1 hm)) (by decide) (by decide)).2 ?_
  exact ⟨fun m hm => ⟨m, (hswap m).2 hm, sameCommitted_refl m⟩,
    fun m hm => ⟨m, (hswap m).1 hm, sameCommitted_refl m⟩, rfl, rfl, List.Perm.refl _⟩

end AgentWorth
