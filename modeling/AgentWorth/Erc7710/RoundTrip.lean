import AgentWorth.Erc7710.Delegation

/-!
# A mandate through a delegation

A mandate written as a delegation and read back for a redemption is the same
authority: the gate decides under the decoded mandate what it decides under the
mandate itself.
-/

namespace AgentWorth.Erc7710

open AgentWorth.Js AgentWorth.Lib

/-! ## Mandates of one authority -/

/-- What a decision rules, without the texts of its reasons. -/
structure Ruling where
  outcome : GateOutcome
  mandateId : Option String
  risk : SpendRisk
  remainingPeriodBudget : Option JsNumber

def rulingOf (decision : GateDecision) : Ruling where
  outcome := decision.outcome
  mandateId := decision.mandateId
  risk := decision.risk
  remainingPeriodBudget := decision.remainingPeriodBudget

/-- The context with one mandate. -/
def under (ctx : GateContext) (m : Mandate) : GateContext := { ctx with mandates := [m] }

/-- Two mandates that give the same authority over an intent. -/
structure SameAuthority (intent : PaymentIntent) (m m' : Mandate) : Prop where
  id : m'.id = m.id
  currency : m'.currency = m.currency
  perTxCap : m'.perTxCap = m.perTxCap
  perPeriodCap : m'.perPeriodCap = m.perPeriodCap
  live : ∀ now, isLiveMandate m' now = isLiveMandate m now
  covers : ∀ convert, covers m' intent convert = covers m intent convert

section Gate

variable {intent : PaymentIntent} {m m' : Mandate}

theorem evaluateUnderMandate_ruling (h : SameAuthority intent m m') (ctx : GateContext)
    (periodSpend : List PriorSpend) :
    (evaluateUnderMandate intent (under ctx m') m' periodSpend).map rulingOf =
      (evaluateUnderMandate intent (under ctx m) m periodSpend).map rulingOf := by
  have hamount : amountInMandate intent (under ctx m') m' =
      amountInMandate intent (under ctx m) m := by
    unfold amountInMandate
    rw [h.currency]
    rfl
  have hrisk : gateRisk intent (under ctx m') periodSpend =
      gateRisk intent (under ctx m) periodSpend := rfl
  have hwindow : velocityWindowStart (under ctx m') = velocityWindowStart (under ctx m) := rfl
  have helevated : elevatedReasons intent (under ctx m') periodSpend =
      elevatedReasons intent (under ctx m) periodSpend := rfl
  unfold evaluateUnderMandate
  simp only [hamount, hrisk, hwindow, helevated, h.perTxCap, h.perPeriodCap, h.id]
  by_cases hcap : m.perTxCap < amountInMandate intent (under ctx m) m
  · rw [if_pos hcap, if_pos hcap]
    rfl
  · rw [if_neg hcap, if_neg hcap]
    by_cases hrem : m.perPeriodCap - spentTotal periodSpend -
        amountInMandate intent (under ctx m) m < 0
    · rw [if_pos hrem, if_pos hrem]
      rfl
    · rw [if_neg hrem, if_neg hrem]

/-- **Mandates of one authority are ruled alike.** -/
theorem evaluateGate_ruling (h : SameAuthority intent m m') (ctx : GateContext) :
    (evaluateGate intent (under ctx m')).map rulingOf =
      (evaluateGate intent (under ctx m)).map rulingOf := by
  have hselect : ∀ mandate, selectMandate intent (under ctx mandate) =
      if isLiveMandate mandate ctx.now && covers mandate intent ctx.convert then some mandate
      else none := by
    intro mandate
    unfold selectMandate
    exact List.find?_singleton
  have hdeny : denyingRule intent (under ctx m') = denyingRule intent (under ctx m) := rfl
  have hconfig : (under ctx m').config = (under ctx m).config := rfl
  unfold evaluateGate
  rw [hdeny, hselect m, hselect m', h.live, h.covers, hconfig]
  by_cases hbad : badAmount intent = true
  · rw [if_pos hbad, if_pos hbad]
  · rw [if_neg hbad, if_neg hbad]
    by_cases hshort : shortRationale intent (under ctx m).config = true
    · rw [if_pos hshort, if_pos hshort]
    · rw [if_neg hshort, if_neg hshort]
      cases denyingRule intent (under ctx m) with
      | some rule => rfl
      | none =>
          by_cases hcovers : (isLiveMandate m ctx.now && covers m intent ctx.convert) = true
          · simp only [if_pos hcovers, h.id]
            show ((ctx.periodSpendByMandate m.id).bind _).map rulingOf =
              ((ctx.periodSpendByMandate m.id).bind _).map rulingOf
            cases ctx.periodSpendByMandate m.id with
            | error e => rfl
            | ok spend => exact evaluateUnderMandate_ruling h ctx spend
          · simp only [if_neg hcovers]

end Gate

/-! ## Caveats of distinct enforcers -/

/-- Every configured enforcer is an address, and no two are the same. -/
structure DistinctEnforcers (e : EnforcerAddresses) : Prop where
  valid : ∀ kind, ∃ key, norm (e.get kind) = .ok key
  distinct : ∀ kind kind' key, norm (e.get kind) = .ok (some key) →
    norm (e.get kind') = .ok (some key) → kind = kind'

/-- The caveat is one of the enforcer of that kind, under its normalised
address. -/
structure Tagged (e : EnforcerAddresses) (kind : EnforcerKind) (c : Caveat) : Prop where
  key : norm (e.get kind) = .ok (some c.enforcer)
  address : IsAddress c.enforcer

section Tags

variable {e : EnforcerAddresses}

theorem isFor_tagged {kind kind' : EnforcerKind} {c : Caveat} (he : DistinctEnforcers e)
    (h : Tagged e kind c) : isFor e kind' c = true ↔ kind' = kind := by
  rw [isFor_iff]
  constructor
  · rintro ⟨key, hkey, haddress⟩
    rw [h.address.normalize] at haddress
    cases haddress
    exact he.distinct _ _ _ hkey h.key
  · rintro rfl
    exact ⟨c.enforcer, h.key, h.address.normalize⟩

/-- Among caveats of different kinds, the last of a kind is the one there is. -/
theorem lastFor_tagged {tagged : List (EnforcerKind × Caveat)} (he : DistinctEnforcers e)
    (h : ∀ p ∈ tagged, Tagged e p.1 p.2) (hnodup : (tagged.map Prod.fst).Nodup)
    (kind : EnforcerKind) : lastFor e kind (tagged.map Prod.snd) = tagged.lookup kind := by
  induction tagged with
  | nil => rfl
  | cons p rest ih =>
      rw [List.map_cons, List.nodup_cons] at hnodup
      have hp := h p List.mem_cons_self
      have ih := ih (fun q hq => h q (List.mem_cons_of_mem _ hq)) hnodup.2
      unfold lastFor at ih ⊢
      rw [List.map_cons, List.lookup_cons]
      by_cases hkind : kind = p.1
      · subst hkind
        have hrest : (rest.map Prod.snd).filter (isFor e p.1) = [] := by
          rw [List.filter_eq_nil_iff]
          intro c hc
          obtain ⟨q, hq, rfl⟩ := List.mem_map.1 hc
          rw [isFor_tagged he (h q (List.mem_cons_of_mem _ hq))]
          exact fun heq => hnodup.1 (heq ▸ List.mem_map_of_mem hq)
        rw [List.filter_cons_of_pos ((isFor_tagged he hp).2 rfl), hrest, beq_self_eq_true]
        rfl
      · have hother : (kind == p.1) = false := beq_eq_false_iff_ne.2 hkind
        rw [List.filter_cons_of_neg (fun hfor => hkind ((isFor_tagged he hp).1 hfor)), ih, hother]

theorem caveatsByAddress_ok {caveats : List Caveat}
    (h : ∀ c ∈ caveats, IsAddress c.enforcer) :
    ∃ byAddr, caveatsByAddress caveats = .ok byAddr := by
  induction caveats using List.reverseRecOn with
  | nil => exact ⟨_, rfl⟩
  | append_singleton caveats c ih =>
      obtain ⟨byAddr, hmap⟩ := ih fun c hc => h c (List.mem_append_left _ hc)
      have haddress := (h c (by simp)).normalize
      rw [caveatsByAddress_snoc, hmap]
      simp only [Except.bind, haddress]
      exact ⟨_, rfl⟩

/-- What the last caveats decode to, the function returns. -/
theorem decodeCaveats_of_decodes {caveats : List Caveat} {caps : DecodedCaveats}
    (he : DistinctEnforcers e) (haddress : ∀ c ∈ caveats, IsAddress c.enforcer)
    (h : Decodes e caveats caps) : decodeCaveats e caveats = .ok caps := by
  obtain ⟨byAddr, hmap⟩ := caveatsByAddress_ok haddress
  have hat : ∀ kind, caveatAt byAddr (e.get kind) = .ok (lastFor e kind caveats) := by
    intro kind
    obtain ⟨key, hkey⟩ := he.valid kind
    have hfound : caveatAt byAddr (e.get kind) = .ok (byAddr.get (key.getD "")) := by
      unfold caveatAt
      rw [hkey]
      rfl
    rw [hfound, caveatAt_eq_lastFor hmap hfound]
  have hts := hat .timestamp
  have herc20 := hat .erc20TransferAmount
  have hnative := hat .nativeTokenTransferAmount
  have herc20Per := hat .erc20PeriodTransfer
  have hnativePer := hat .nativeTokenPeriodTransfer
  have htargets := hat .allowedTargets
  simp only [EnforcerAddresses.get] at hts herc20 hnative herc20Per hnativePer htargets
  unfold decodeCaveats
  simp only [bind, Except.bind, hmap, hts, herc20, hnative, herc20Per, hnativePer, htargets,
    h.expires, h.perTx, h.perPeriod, h.targets]
  rfl

end Tags

/-! ## The caveats of a mandate -/

theorem caveatOf_ok {enforcer : Option String} {missing : String}
    {terms : Except String (List UInt8)} {c : Caveat}
    (h : caveatOf enforcer missing terms = .ok c) :
    norm enforcer = .ok (some c.enforcer) ∧ IsAddress c.enforcer ∧
      ∃ bytes, terms = .ok bytes ∧ c.terms = bytesToHex bytes := by
  unfold caveatOf at h
  cases henforcer : truthy enforcer with
  | none =>
      rw [henforcer] at h
      cases h
  | some address =>
      rw [henforcer] at h
      obtain ⟨normal, hnormal, h⟩ := except_bind_eq_ok.1 h
      obtain ⟨bytes, hbytes, h⟩ := except_bind_eq_ok.1 h
      cases h
      have haddress := isAddress_of_normalize hnormal
      refine ⟨?_, haddress, bytes, hbytes, rfl⟩
      unfold norm
      simp only [henforcer, hnormal, Except.map, haddress.toLowerCase]

/-- A mandate whose fields enforcer terms can hold: active, whole-second dates
from 1970 on as the clock writes them, safe-integer caps, an allowlist of
lower-case addresses or a class. -/
structure Expressible (m : Mandate) : Prop where
  active : m.status = .active
  grantedAt : ∃ s : Nat, Date.FourDigitYear (1000 * s) ∧ m.grantedAt = Date.toIso (1000 * s)
  expiresAt : ∃ s : Nat, Date.FourDigitYear (1000 * s) ∧ m.expiresAt = Date.toIso (1000 * s)
  perTxCap : ∃ n : Nat, n < 2 ^ 53 ∧ m.perTxCap = (n : JsNumber)
  perPeriodCap : ∃ n : Nat, n < 2 ^ 53 ∧ m.perPeriodCap = (n : JsNumber)
  scope : ∀ values, m.scope = .allowlist values → values ≠ [] ∧ ∀ a ∈ values, IsAddress a

/-- The redemption names the mandate's currency and id, one of its rails and
its class, and an address as its target. -/
structure Redeems (m : Mandate) (e : EnforcerAddresses) (redemption : DelegationRedemptionOpts) :
    Prop where
  currency : redemption.currency = m.currency
  rail : redemptionRail redemption ∈ m.allowedRails
  payeeClass : ∀ value, m.scope = .class value → redemptionClass redemption = value
  mandateId : redemption.mandateId = some m.id
  enforcers : redemption.enforcers = e
  target : ∃ target, normalizeAddress redemption.target = .ok target

/-- The kind of a cap's enforcer, ERC-20 or native. -/
def transferKind (erc20 : Bool) : EnforcerKind :=
  if erc20 then .erc20TransferAmount else .nativeTokenTransferAmount

def periodKind (erc20 : Bool) : EnforcerKind :=
  if erc20 then .erc20PeriodTransfer else .nativeTokenPeriodTransfer

/-- A caveat where it is of the kind asked for. -/
def given (here : Bool) (c : Caveat) : Option Caveat := if here then some c else none

theorem unixSeconds_toIso {s : Nat} (h : Date.FourDigitYear (1000 * s)) :
    unixSeconds (Date.toIso (1000 * s)) = (s : JsNumber) := by
  have hdiv : (JsNumber.fin ((1000 * s : Int) : ℚ)) / .fin 1000 = .fin (s : ℚ) := by
    have hquot : ((1000 * s : Int) : ℚ) / 1000 = s := by
      push_cast
      field_simp
    rw [JsNumber.fin_div_fin _ (by norm_num), hquot]
  have hfloor : (s : ℚ).floor = (s : Int) := by
    rw [← Int.cast_natCast, Rat.floor_intCast]
  unfold unixSeconds
  rw [Date.getTime_toIso h, hdiv, JsNumber.natCast_eq_fin]
  simp only [mathFloor, hfloor, Int.cast_natCast]

/-- Years of four digits end below `2 ^ 53` seconds. -/
theorem seconds_lt {s : Nat} (h : Date.FourDigitYear (1000 * s)) : s < 2 ^ 53 := by
  have hmax := Date.natAbs_le_maxTime h
  unfold Date.maxTime at hmax
  omega

/-- The second count of a decoded date, back in milliseconds. -/
theorem toISOString_seconds {s : Nat} (h : Date.FourDigitYear (1000 * s)) :
    Date.toISOString (ofBigInt s * .fin 1000) = .ok (Date.toIso (1000 * s)) := by
  rw [toISOString_unix, mul_comm (s : Int), if_pos]
  have hrange := Date.natAbs_le_maxTime h
  unfold Date.maxTime at hrange ⊢
  omega

section Encoded

variable {m : Mandate} {opts : MandateToDelegationOpts} {c : Caveat}

theorem timestampCaveat_ok {s : Nat} (hyear : Date.FourDigitYear (1000 * s))
    (hdate : m.expiresAt = Date.toIso (1000 * s))
    (h : timestampCaveat m opts.enforcers = .ok c) :
    Tagged opts.enforcers .timestamp c ∧
      expiry (some c) = .ok (some (ofBigInt s)) := by
  obtain ⟨-, -, h⟩ := except_bind_eq_ok.1 h
  obtain ⟨enforcer, henforcer, h⟩ := except_bind_eq_ok.1 h
  obtain ⟨bytes, hbytes, h⟩ := except_bind_eq_ok.1 h
  cases h
  have haddress := isAddress_of_normalize henforcer
  rw [hdate, unixSeconds_toIso hyear] at hbytes
  have hlt : s < 2 ^ 128 := lt_trans (seconds_lt hyear) (by norm_num)
  have hterms := decodeTimestampTerms_encode hlt (by norm_num : (0 : Nat) < 2 ^ 128) hbytes
  refine ⟨⟨?_, haddress⟩, ?_⟩
  · have hne : opts.enforcers.timestamp ≠ "" := by
      intro hempty
      rw [hempty] at henforcer
      have hnone : normalizeAddress "" ≠ .ok enforcer := by
        rw [show normalizeAddress "" = .error "invalid address (expected 20 bytes): " from by
          decide +kernel]
        exact fun heq => by cases heq
      exact hnone henforcer
    unfold norm
    simp only [EnforcerAddresses.get, truthy, Option.filter, hne, ne_eq, not_false_eq_true,
      decide_true, if_true, henforcer, Except.map, haddress.toLowerCase]
  · simp only [expiry, hterms, Except.map]

theorem transferAmountCaveat_ok {n : Nat} (hn : m.perTxCap = (n : JsNumber))
    (h : transferAmountCaveat m opts = .ok c) :
    ∃ erc20, Tagged opts.enforcers (transferKind erc20) c ∧
      transferCap (given erc20 c) (given (!erc20) c) = .ok (some (ofBigInt n)) := by
  unfold transferAmountCaveat at h
  rw [hn, toBigInt_natCast] at h
  cases htoken : truthy opts.token with
  | some token =>
      rw [htoken] at h
      obtain ⟨hkey, haddress, bytes, hbytes, hterms⟩ := caveatOf_ok h
      obtain ⟨address, -, hdecode⟩ := decodeErc20AmountTerms_encode hbytes
      refine ⟨true, ⟨hkey, haddress⟩, ?_⟩
      show transferCap (some c) none = _
      simp only [transferCap, hterms, hdecode, Except.map, Int.toNat_natCast]
  | none =>
      rw [htoken] at h
      obtain ⟨hkey, haddress, bytes, hbytes, hterms⟩ := caveatOf_ok h
      have hdecode := decodeNativeAmountTerms_encode hbytes
      refine ⟨false, ⟨hkey, haddress⟩, ?_⟩
      show transferCap none (some c) = _
      simp only [transferCap, hterms, hdecode, Except.map, Int.toNat_natCast]

/-- What is encoded has a whole number of seconds as its duration. -/
theorem duration_of_encode {token : String} {cap : Int} {duration start : JsNumber}
    {bytes : List UInt8} (h : encodePeriodTerms token cap duration start = .ok bytes ∨
      encodeNativePeriodTerms cap duration start = .ok bytes) :
    ∃ d : Nat, duration = (d : JsNumber) := by
  rcases h with h | h
  · obtain ⟨-, -, h⟩ := except_bind_eq_ok.1 h
    obtain ⟨_, hduration, _⟩ := except_bind_eq_ok.1 h
    exact requireInteger_ok hduration
  · obtain ⟨-, -, h⟩ := except_bind_eq_ok.1 h
    obtain ⟨_, hduration, _⟩ := except_bind_eq_ok.1 h
    exact requireInteger_ok hduration

theorem periodTransferCaveat_ok {n s : Nat} (hn : m.perPeriodCap = (n : JsNumber))
    (hyear : Date.FourDigitYear (1000 * s)) (hdate : m.grantedAt = Date.toIso (1000 * s))
    (h : periodTransferCaveat m opts = .ok c) :
    ∃ period erc20, Tagged opts.enforcers (periodKind erc20) c ∧
      periodCap (given erc20 c) (given (!erc20) c) =
        .ok (some ⟨ofBigInt n, period, ofBigInt s⟩) := by
  obtain ⟨-, -, h⟩ := except_bind_eq_ok.1 h
  simp only [hn, toBigInt_natCast, hdate, unixSeconds_toIso hyear, Except.bind] at h
  cases htoken : truthy opts.token with
  | some token =>
      rw [htoken] at h
      obtain ⟨hkey, haddress, bytes, hbytes, hterms⟩ := caveatOf_ok h
      obtain ⟨d, hd⟩ := duration_of_encode (Or.inl hbytes)
      rw [hd] at hbytes
      obtain ⟨address, -, hdecode⟩ := decodePeriodTerms_encode hbytes
      refine ⟨periodFromSeconds (ofBigInt d), true, ⟨hkey, haddress⟩, ?_⟩
      show periodCap (some c) none = _
      simp only [periodCap, hterms, hdecode, Except.map, Int.toNat_natCast]
  | none =>
      rw [htoken] at h
      obtain ⟨hkey, haddress, bytes, hbytes, hterms⟩ := caveatOf_ok h
      obtain ⟨d, hd⟩ := @duration_of_encode "" _ _ _ _ (Or.inr hbytes)
      rw [hd] at hbytes
      have hdecode := decodeNativePeriodTerms_encode hbytes
      refine ⟨periodFromSeconds (ofBigInt d), false, ⟨hkey, haddress⟩, ?_⟩
      show periodCap none (some c) = _
      simp only [periodCap, hterms, hdecode, Except.map, Int.toNat_natCast]

/-- An allowlist has one caveat, which decodes to it; a class has none. -/
theorem allowedTargetsCaveats_ok {caveats : List Caveat}
    (hscope : ∀ values, m.scope = .allowlist values → ∀ a ∈ values, IsAddress a)
    (h : allowedTargetsCaveats m opts.enforcers = .ok caveats) :
    (∃ value, m.scope = .class value ∧ caveats = []) ∨
      ∃ values c, m.scope = .allowlist values ∧ caveats = [c] ∧
        Tagged opts.enforcers .allowedTargets c ∧ allowlist (some c) = .ok (some values) := by
  unfold allowedTargetsCaveats at h
  cases hkind : m.scope with
  | «class» value =>
      rw [hkind] at h
      cases h
      exact Or.inl ⟨value, rfl, rfl⟩
  | allowlist values =>
      rw [hkind] at h
      obtain ⟨c, hc, rfl⟩ := except_map_eq_ok.1 h
      obtain ⟨hkey, haddress, bytes, hbytes, hterms⟩ := caveatOf_ok hc
      have haddresses := hscope values hkind
      have hdecode := decodeAllowedTargetsTerms_encode haddresses hbytes
      have hlower : values.map toLowerCase = values := by
        refine (List.map_congr_left ?_).trans (List.map_id _)
        exact fun a ha => (haddresses a ha).toLowerCase
      refine Or.inr ⟨values, c, rfl, rfl, ⟨hkey, haddress⟩, ?_⟩
      simp only [allowlist, hterms, hdecode, Except.map, hlower]

end Encoded

/-! ## The decoded mandate is the mandate's authority -/

/-- What the caveats of a mandate decode to together. -/
theorem decodeCaveats_of_tagged {e : EnforcerAddresses} (he : DistinctEnforcers e)
    {expiryC transferC periodC : Caveat} {targets : Option (Caveat × List String)}
    {before perTx : JsNumber} {cap : PeriodCap} {erc20 erc20' : Bool}
    (hexpiry : Tagged e .timestamp expiryC ∧ expiry (some expiryC) = .ok (some before))
    (htransfer : Tagged e (transferKind erc20) transferC ∧
      transferCap (given erc20 transferC) (given (!erc20) transferC) = .ok (some perTx))
    (hperiod : Tagged e (periodKind erc20') periodC ∧
      periodCap (given erc20' periodC) (given (!erc20') periodC) = .ok (some cap))
    (htargets : ∀ p ∈ targets, Tagged e .allowedTargets p.1 ∧
      allowlist (some p.1) = .ok (some p.2)) :
    decodeCaveats e ([expiryC, transferC, periodC] ++ (targets.map Prod.fst).toList) =
      .ok { expiresUnix := some before, perTxCap := some perTx, period := some cap,
            allowlist := targets.map Prod.snd } := by
  obtain ⟨tagged, htagged⟩ : ∃ tagged : List (EnforcerKind × Caveat), tagged =
      [(.timestamp, expiryC), (transferKind erc20, transferC), (periodKind erc20', periodC)] ++
        (targets.map fun p => (EnforcerKind.allowedTargets, p.1)).toList := ⟨_, rfl⟩
  have hcaveats : [expiryC, transferC, periodC] ++ (targets.map Prod.fst).toList =
      tagged.map Prod.snd := by
    rw [htagged]
    cases targets <;> rfl
  have hall : ∀ p ∈ tagged, Tagged e p.1 p.2 := by
    intro p hp
    simp only [htagged, List.mem_append, List.mem_cons, List.not_mem_nil, or_false,
      Option.mem_toList, Option.map_eq_some_iff] at hp
    rcases hp with (rfl | rfl | rfl) | ⟨q, hq, rfl⟩
    · exact hexpiry.1
    · exact htransfer.1
    · exact hperiod.1
    · exact (htargets q hq).1
  have hnodup : (tagged.map Prod.fst).Nodup := by
    rw [htagged]
    cases erc20 <;> cases erc20' <;> cases targets <;> simp [transferKind, periodKind]
  have hlast := lastFor_tagged he hall hnodup
  rw [hcaveats]
  refine decodeCaveats_of_decodes he ?_ ?_
  · intro c hc
    obtain ⟨p, hp, rfl⟩ := List.mem_map.1 hc
    exact (hall p hp).address
  constructor
  case expires =>
      rw [hlast, htagged]
      exact hexpiry.2
  case perTx =>
      rw [hlast, hlast, htagged]
      cases erc20 <;> cases erc20' <;> cases targets <;> exact htransfer.2
  case perPeriod =>
      rw [hlast, hlast, htagged]
      cases erc20 <;> cases erc20' <;> cases targets <;> exact hperiod.2
  case targets =>
      rw [hlast, htagged]
      cases targets with
      | none => cases erc20 <;> cases erc20' <;> rfl
      | some p => cases erc20 <;> cases erc20' <;> exact (htargets p rfl).2

/-- The caveats of an expressible mandate decode to its own fields. -/
theorem decodeCaveats_of_mandate {m : Mandate} {opts : MandateToDelegationOpts}
    {delegation : Delegation} {expires granted perTx perPeriod : Nat} (hm : Expressible m)
    (hexpires : Date.FourDigitYear (1000 * expires) ∧ m.expiresAt = Date.toIso (1000 * expires))
    (hgranted : Date.FourDigitYear (1000 * granted) ∧ m.grantedAt = Date.toIso (1000 * granted))
    (hperTx : m.perTxCap = (perTx : JsNumber))
    (hperPeriod : m.perPeriodCap = (perPeriod : JsNumber)) (he : DistinctEnforcers opts.enforcers)
    (h : mandateToDelegation m opts = .ok delegation) :
    ∃ period values, decodeCaveats opts.enforcers delegation.caveats =
        .ok { expiresUnix := some (ofBigInt expires), perTxCap := some (ofBigInt perTx)
              period := some ⟨ofBigInt perPeriod, period, ofBigInt granted⟩
              allowlist := values } ∧
      ((∃ value, m.scope = .class value ∧ values = none) ∨
        ∃ listed, m.scope = .allowlist listed ∧ values = some listed) := by
  obtain ⟨expiryC, hexpiryC, h⟩ := except_bind_eq_ok.1 h
  obtain ⟨transferC, htransferC, h⟩ := except_bind_eq_ok.1 h
  obtain ⟨periodC, hperiodC, h⟩ := except_bind_eq_ok.1 h
  obtain ⟨targetCs, htargetCs, h⟩ := except_bind_eq_ok.1 h
  obtain ⟨delegate, -, h⟩ := except_bind_eq_ok.1 h
  obtain ⟨delegator, -, h⟩ := except_bind_eq_ok.1 h
  cases h
  have hexpiry := timestampCaveat_ok hexpires.1 hexpires.2 hexpiryC
  obtain ⟨erc20, htransfer⟩ := transferAmountCaveat_ok hperTx htransferC
  obtain ⟨period, erc20', hperiod⟩ :=
    periodTransferCaveat_ok hperPeriod hgranted.1 hgranted.2 hperiodC
  refine ⟨period, ?_⟩
  rcases allowedTargetsCaveats_ok (fun values hv => (hm.scope values hv).2) htargetCs with
    ⟨value, hscope, rfl⟩ | ⟨values, c, hscope, rfl, htargets⟩
  · have hnone : ∀ p ∈ (none : Option (Caveat × List String)),
        Tagged opts.enforcers .allowedTargets p.1 ∧ allowlist (some p.1) = .ok (some p.2) := by
      intro p hp
      cases hp
    have hdecode := decodeCaveats_of_tagged he hexpiry htransfer hperiod hnone
    simp only [Option.map_none, Option.toList_none] at hdecode
    exact ⟨none, hdecode, Or.inl ⟨value, hscope, rfl⟩⟩
  · have hsome : ∀ p ∈ some (c, values),
        Tagged opts.enforcers .allowedTargets p.1 ∧ allowlist (some p.1) = .ok (some p.2) := by
      intro p hp
      cases hp
      exact htargets
    have hdecode := decodeCaveats_of_tagged he hexpiry htransfer hperiod hsome
    simp only [Option.map_some, Option.toList_some] at hdecode
    exact ⟨some values, hdecode, Or.inr ⟨values, hscope, rfl⟩⟩

/-- **The decoded mandate has the mandate's authority over the redemption.** -/
theorem sameAuthority_decoded {m : Mandate} {opts : MandateToDelegationOpts}
    {delegation : Delegation} {redemption : DelegationRedemptionOpts}
    (hm : Expressible m) (he : DistinctEnforcers opts.enforcers)
    (hdelegation : mandateToDelegation m opts = .ok delegation)
    (hr : Redeems m opts.enforcers redemption) :
    ∃ caps decoded, decodeCaveats opts.enforcers delegation.caveats = .ok caps ∧
      decodedMandate delegation redemption caps = .ok decoded ∧
      ∀ target now, SameAuthority (redemptionIntent delegation redemption caps target now) m
        decoded := by
  obtain ⟨granted, hgyear, hgranted⟩ := hm.grantedAt
  obtain ⟨expires, heyear, hexpires⟩ := hm.expiresAt
  obtain ⟨perTx, htxlt, hperTx⟩ := hm.perTxCap
  obtain ⟨perPeriod, hperiodlt, hperPeriod⟩ := hm.perPeriodCap
  obtain ⟨period, values, hcaps, hscope⟩ := decodeCaveats_of_mandate hm ⟨heyear, hexpires⟩
    ⟨hgyear, hgranted⟩ hperTx hperPeriod he hdelegation
  have hsame : decodedScope redemption values = m.scope := by
    rcases hscope with ⟨value, hvalue, hnone⟩ | ⟨listed, hlisted, hsome⟩
    · rw [hnone, hvalue, ← hr.payeeClass value hvalue]
      rfl
    · rw [hsome, hlisted]
      rfl
  obtain ⟨decoded, hdecoded⟩ : ∃ decoded, decodedMandate delegation redemption
      { expiresUnix := some (ofBigInt expires), perTxCap := some (ofBigInt perTx)
        period := some ⟨ofBigInt perPeriod, period, ofBigInt granted⟩
        allowlist := values } = .ok decoded := by
    unfold decodedMandate
    simp only [bind, Except.bind, Option.map_some, Option.getD_some,
      toISOString_seconds hgyear, toISOString_seconds heyear]
    exact ⟨_, rfl⟩
  obtain ⟨hexpiry, hid, hcurrency, htx, hper, hstatus, hrails, hdscope⟩ :=
    decodedMandate_ok hdecoded
  have hexpiresAt : decoded.expiresAt = m.expiresAt := by
    rw [Option.getD_some, toISOString_seconds heyear] at hexpiry
    rw [hexpires]
    exact (Except.ok.inj hexpiry).symm
  refine ⟨_, decoded, hcaps, hdecoded, ?_⟩
  intro target now
  constructor
  case id =>
      rw [hid, decodedMandateId, hr.mandateId]
      rfl
  case currency => exact hcurrency.trans hr.currency
  case perTxCap => exact htx.trans ((ofBigInt_of_lt htxlt).trans hperTx.symm)
  case perPeriodCap => exact hper.trans ((ofBigInt_of_lt hperiodlt).trans hperPeriod.symm)
  case live =>
      intro now
      unfold isLiveMandate
      rw [hstatus, hm.active, hexpiresAt]
  case covers =>
      intro convert
      have hrail : m.allowedRails.contains (redemptionRail redemption) = true :=
        List.contains_iff_mem.2 hr.rail
      simp only [covers, redemptionIntent, hdscope, hsame, hrails, hrail, hcurrency, hr.currency,
        List.contains_cons, beq_self_eq_true, Bool.true_or, Bool.true_and]

/-- **A redemption under a mandate's delegation is ruled as the mandate rules
it**, with the same intent, or throws as the gate does. -/
theorem redemption_agrees_with_mandate {m : Mandate} {opts : MandateToDelegationOpts}
    {delegation : Delegation} {redemption : DelegationRedemptionOpts} {ctx : GateContext}
    (hm : Expressible m) (he : DistinctEnforcers opts.enforcers)
    (hdelegation : mandateToDelegation m opts = .ok delegation)
    (hr : Redeems m opts.enforcers redemption) (hctx : ctx.mandates = []) :
    ∃ intent, (gateDelegationRedemption delegation redemption ctx).map
        (fun result => (result.1, rulingOf result.2)) =
      (evaluateGate intent { ctx with mandates := [m] }).map
        (fun decision => (intent, rulingOf decision)) := by
  obtain ⟨target, htarget⟩ := hr.target
  obtain ⟨caps, decoded, hcaps, hdecoded, hsame⟩ := sameAuthority_decoded hm he hdelegation hr
  refine ⟨redemptionIntent delegation redemption caps target ctx.now, ?_⟩
  have hcontext : redemptionContext ctx decoded = under ctx decoded := by
    unfold redemptionContext under
    rw [hctx, List.nil_append]
  have hruling := evaluateGate_ruling (hsame target ctx.now) ctx
  unfold gateDelegationRedemption
  rw [hr.enforcers]
  simp only [bind, Except.bind, htarget, hcaps, hdecoded, hcontext]
  show _ = (evaluateGate _ (under ctx m)).map _
  cases hd : evaluateGate (redemptionIntent delegation redemption caps target ctx.now)
      (under ctx decoded) with
  | error message =>
      rw [hd] at hruling
      cases hgate : evaluateGate (redemptionIntent delegation redemption caps target ctx.now)
          (under ctx m) with
      | error message' =>
          rw [hgate] at hruling
          cases hruling
          rfl
      | ok decision' =>
          rw [hgate] at hruling
          cases hruling
  | ok decision =>
      rw [hd] at hruling
      cases hgate : evaluateGate (redemptionIntent delegation redemption caps target ctx.now)
          (under ctx m) with
      | error message' =>
          rw [hgate] at hruling
          cases hruling
      | ok decision' =>
          rw [hgate] at hruling
          have hrule : rulingOf decision = rulingOf decision' := Except.ok.inj hruling
          show Except.ok (_, rulingOf decision) = Except.ok (_, rulingOf decision')
          rw [hrule]

namespace Sample

/-- A weekly grocery mandate over one address. -/
def weekly : Mandate where
  id := "mandate-1"
  label := "groceries"
  scope := .allowlist [address 'c']
  currency := "USDC"
  allowedRails := [.onchain]
  perTxCap := 50000
  perPeriodCap := 200000
  period := .week
  grantedAt := "2026-01-01T00:00:00.000Z"
  expiresAt := "2027-01-01T00:00:00.000Z"
  status := .active

def digitOf : EnforcerKind → Char
  | .timestamp => '1'
  | .nativeTokenTransferAmount => '2'
  | .erc20TransferAmount => '3'
  | .erc20PeriodTransfer => '4'
  | .nativeTokenPeriodTransfer => '5'
  | .allowedTargets => '6'

def deployment : EnforcerAddresses where
  timestamp := address '1'
  nativeTokenTransferAmount := some (address '2')
  erc20TransferAmount := some (address '3')
  erc20PeriodTransfer := some (address '4')
  nativeTokenPeriodTransfer := some (address '5')
  allowedTargets := some (address '6')

def tokenOpts : MandateToDelegationOpts where
  delegate := address 'a'
  delegator := address 'b'
  enforcers := deployment
  token := some (address 'd')
  salt := none
  periodSecondsOverride := none

def groceries : DelegationRedemptionOpts where
  target := address 'c'
  amount := 40000
  currency := "USDC"
  rail := none
  rationale := "weekly grocery run"
  payeeClass := none
  intentId := none
  enforcers := deployment
  mandateId := some "mandate-1"
  mandateLabel := none

def weekContext : GateContext where
  now := "2026-01-08T00:00:00.000Z"
  mandates := []
  periodSpendByMandate _ := .ok []
  knownPayees := setOf [address 'c']
  trustOf := none
  convert := none
  attestation := none
  reputationOf := none
  denyRules := []
  config := defaultGateConfig
  reversibility := none

theorem expressible_weekly : Expressible weekly where
  active := rfl
  grantedAt := ⟨1767225600, by unfold Date.FourDigitYear; decide +kernel, by decide +kernel⟩
  expiresAt := ⟨1798761600, by unfold Date.FourDigitYear; decide +kernel, by decide +kernel⟩
  perTxCap := ⟨50000, by decide, rfl⟩
  perPeriodCap := ⟨200000, by decide, rfl⟩
  scope := by
    rintro values ⟨⟩
    refine ⟨by simp, ?_⟩
    intro a ha
    rw [List.mem_singleton] at ha
    exact ⟨List.replicate 20 0xcc, by decide, by rw [ha]; decide +kernel⟩

theorem key_deployment (kind : EnforcerKind) :
    norm (deployment.get kind) = .ok (some (address (digitOf kind))) := by
  cases kind <;> decide +kernel

theorem distinct_deployment : DistinctEnforcers deployment where
  valid := fun kind => ⟨_, key_deployment kind⟩
  distinct := by
    intro kind kind' key h h'
    rw [key_deployment] at h h'
    have hkey := Option.some.inj (Except.ok.inj (h.trans h'.symm))
    have hdigit : digitOf kind = digitOf kind' := by
      have htail := congrArg (fun s : String => s.toList.getLast?) hkey
      simpa [address] using htail
    cases kind <;> cases kind' <;> first | rfl | exact absurd hdigit (by decide)

theorem redeems_groceries : Redeems weekly deployment groceries where
  currency := rfl
  rail := by decide
  payeeClass := fun value hscope => by cases hscope
  mandateId := rfl
  enforcers := rfl
  target := ⟨address 'c', by decide +kernel⟩

end Sample

/-- An ERC-20 delegation of an allowlist mandate, redeemed within it. -/
theorem redemption_agrees_with_mandate_weekly :
    ∃ delegation, mandateToDelegation Sample.weekly Sample.tokenOpts = .ok delegation ∧
      ∃ intent, (gateDelegationRedemption delegation Sample.groceries Sample.weekContext).map
          (fun result => (result.1, rulingOf result.2)) =
        (evaluateGate intent { Sample.weekContext with mandates := [Sample.weekly] }).map
          (fun decision => (intent, rulingOf decision)) := by
  have hrun : (mandateToDelegation Sample.weekly Sample.tokenOpts).toOption.isSome = true := by
    decide +kernel
  obtain ⟨delegation, hdelegation⟩ := Option.isSome_iff_exists.1 hrun
  have hok := except_toOption_eq_some.1 hdelegation
  exact ⟨delegation, hok, redemption_agrees_with_mandate Sample.expressible_weekly
    Sample.distinct_deployment hok Sample.redeems_groceries rfl⟩

end AgentWorth.Erc7710
