import AgentWorth.Erc7710.Bounds

/-!
# Dates on chain

The start date and the threshold of a delegation are integers of up to 256
bits; a redemption makes dates of them and compares the dates as text.  Both
work within limits: a date must be one JavaScript can hold, a year past 9999 is
written before every other, and what has no threshold is given the year 3000.
-/

namespace AgentWorth.Erc7710

open AgentWorth.Js AgentWorth.Lib

/-! ## The integers of the terms -/

def termBytes (c : Caveat) : List UInt8 := (hexToBytes c.terms).toOption.getD []

/-- `beforeThreshold` of the timestamp caveat. -/
def beforeThreshold (e : EnforcerAddresses) (caveats : List Caveat) : Option Nat :=
  (lastFor e .timestamp caveats).map fun c => bytesToBigint (slice (termBytes c) 16 32)

/-- `startDate` of the period caveat, an ERC-20 one first. -/
def startDate (e : EnforcerAddresses) (caveats : List Caveat) : Option Nat :=
  match lastFor e .erc20PeriodTransfer caveats with
  | some c => some (bytesToBigint (slice (termBytes c) 84 116))
  | none =>
      (lastFor e .nativeTokenPeriodTransfer caveats).map fun c =>
        bytesToBigint (slice (termBytes c) 64 96)

/-- The expiry of the synthesized mandate, in seconds: the threshold, or the
year 3000. -/
def expirySeconds (e : EnforcerAddresses) (caveats : List Caveat) : Nat :=
  (beforeThreshold e caveats).getD 32503680000

theorem termBytes_of_ok {c : Caveat} {name : String} {length : Nat} {bytes : List UInt8}
    (h : termsOfLength name length c.terms = .ok bytes) : termBytes c = bytes := by
  obtain ⟨read, hread, h⟩ := except_bind_eq_ok.1 h
  split at h
  · cases h
  · cases h
    unfold termBytes
    rw [hread]
    rfl

theorem expiresUnix_eq {e : EnforcerAddresses} {caveats : List Caveat} {caps : DecodedCaveats}
    (h : Decodes e caveats caps) :
    caps.expiresUnix = (beforeThreshold e caveats).map ofBigInt := by
  have hexpires := h.expires
  unfold beforeThreshold
  cases hlast : lastFor e .timestamp caveats with
  | none =>
      rw [hlast] at hexpires
      exact (Except.ok.inj hexpires).symm
  | some c =>
      rw [hlast] at hexpires
      obtain ⟨terms, hterms, hunix⟩ := except_map_eq_ok.1 hexpires
      obtain ⟨bytes, hbytes, rfl⟩ := except_map_eq_ok.1 hterms
      rw [← hunix, Option.map_some, Option.map_some, termBytes_of_ok hbytes]

theorem grantedUnix_eq {e : EnforcerAddresses} {caveats : List Caveat} {caps : DecodedCaveats}
    (h : Decodes e caveats caps) :
    caps.period.map PeriodCap.grantedUnix = (startDate e caveats).map ofBigInt := by
  have hperiod := h.perPeriod
  unfold startDate
  cases herc20 : lastFor e .erc20PeriodTransfer caveats with
  | some c =>
      rw [herc20] at hperiod
      obtain ⟨terms, hterms, hcap⟩ := except_map_eq_ok.1 hperiod
      obtain ⟨bytes, hbytes, rfl⟩ := except_map_eq_ok.1 hterms
      rw [← hcap, Option.map_some, Option.map_some, termBytes_of_ok hbytes]
  | none =>
      rw [herc20] at hperiod
      cases hnative : lastFor e .nativeTokenPeriodTransfer caveats with
      | none =>
          rw [hnative] at hperiod
          rw [← Except.ok.inj hperiod]
          rfl
      | some c =>
          rw [hnative] at hperiod
          obtain ⟨terms, hterms, hcap⟩ := except_map_eq_ok.1 hperiod
          obtain ⟨bytes, hbytes, rfl⟩ := except_map_eq_ok.1 hterms
          rw [← hcap, Option.map_some, Option.map_some, Option.map_some, termBytes_of_ok hbytes]

/-! ## What a redemption comes to -/

section Redemption

variable (delegation : Delegation) (opts : DelegationRedemptionOpts) (ctx : GateContext)

/-- The target is an address, and the terms of the caveats can be decoded. -/
structure Redeemable : Prop where
  target : ∃ target, normalizeAddress opts.target = .ok target
  caveats : ∃ caps, decodeCaveats opts.enforcers delegation.caveats = .ok caps

/-- A decision is returned, and the mandate behind it is live exactly before the
threshold. -/
structure HandlesExpiry (t : Int) : Prop where
  decides : ∃ answer, gateDelegationRedemption delegation opts ctx = .ok answer
  live_iff : ∀ caps decoded, decodeCaveats opts.enforcers delegation.caveats = .ok caps →
    decodedMandate delegation opts caps = .ok decoded →
      (isLiveMandate decoded ctx.now = true ↔
        ∀ before ∈ beforeThreshold opts.enforcers delegation.caveats, t < before * 1000)

/-- The dates of the delegation are in the range of their use. -/
structure DatesInRange (t : Int) : Prop where
  /-- a date of JavaScript -/
  start : ∀ start ∈ startDate opts.enforcers delegation.caveats,
    (start : Int) * 1000 ≤ Date.maxTime
  /-- before the year 10000 -/
  before : ∀ before ∈ beforeThreshold opts.enforcers delegation.caveats,
    (before : Int) * 1000 < 253402300800000
  /-- before the year 3000 -/
  unbounded : beforeThreshold opts.enforcers delegation.caveats = none → t < 32503680000000
  answered : ∀ target caps decoded, normalizeAddress opts.target = .ok target →
    decodeCaveats opts.enforcers delegation.caveats = .ok caps →
      decodedMandate delegation opts caps = .ok decoded →
        Answered (redemptionIntent delegation opts caps target ctx.now)
          (redemptionContext ctx decoded)

end Redemption

variable {delegation : Delegation} {opts : DelegationRedemptionOpts} {ctx : GateContext}

/-- The start date as a date, the epoch where there is none. -/
theorem grantedAt_eq {caps : DecodedCaveats}
    (h : Decodes opts.enforcers delegation.caveats caps) :
    Date.toISOString ((caps.period.map PeriodCap.grantedUnix).getD 0 * .fin 1000) =
      if (∀ start ∈ startDate opts.enforcers delegation.caveats,
          (start : Int) * 1000 ≤ Date.maxTime) then
        .ok (Date.toIso (((startDate opts.enforcers delegation.caveats).getD 0 : Nat) * 1000))
      else .error "Invalid time value" := by
  rw [grantedUnix_eq h]
  cases startDate opts.enforcers delegation.caveats with
  | none =>
      have hzero := toISOString_unix 0
      rw [ofBigInt_of_lt (by norm_num)] at hzero
      exact hzero
  | some start =>
      rw [Option.map_some, Option.getD_some, toISOString_unix]
      simp

theorem expiresAt_eq {caps : DecodedCaveats}
    (h : Decodes opts.enforcers delegation.caveats caps) :
    Date.toISOString (caps.expiresUnix.getD (.fin 32503680000) * .fin 1000) =
      if (expirySeconds opts.enforcers delegation.caveats : Int) * 1000 ≤ Date.maxTime then
        .ok (Date.toIso ((expirySeconds opts.enforcers delegation.caveats : Int) * 1000))
      else .error "Invalid time value" := by
  rw [expiresUnix_eq h, expirySeconds]
  cases beforeThreshold opts.enforcers delegation.caveats with
  | none =>
      have hdefault := toISOString_unix 32503680000
      rw [ofBigInt_of_lt (by norm_num)] at hdefault
      exact hdefault
  | some before => exact toISOString_unix before

theorem decodedMandate_decides_iff {caps : DecodedCaveats}
    (h : Decodes opts.enforcers delegation.caveats caps) :
    (∃ decoded, decodedMandate delegation opts caps = .ok decoded) ↔
      (∀ start ∈ startDate opts.enforcers delegation.caveats,
        (start : Int) * 1000 ≤ Date.maxTime) ∧
      (expirySeconds opts.enforcers delegation.caveats : Int) * 1000 ≤ Date.maxTime := by
  constructor
  · rintro ⟨decoded, hdecoded⟩
    obtain ⟨grantedAt, hgranted, hrest⟩ := except_bind_eq_ok.1 hdecoded
    obtain ⟨expiresAt, hexpires, -⟩ := except_bind_eq_ok.1 hrest
    rw [grantedAt_eq h] at hgranted
    rw [expiresAt_eq h] at hexpires
    constructor
    · by_contra hstart
      rw [if_neg hstart] at hgranted
      cases hgranted
    · by_contra hbefore
      rw [if_neg hbefore] at hexpires
      cases hexpires
  · rintro ⟨hstart, hbefore⟩
    have hgranted := grantedAt_eq h
    have hexpires := expiresAt_eq h
    rw [if_pos hstart] at hgranted
    rw [if_pos hbefore] at hexpires
    unfold decodedMandate
    simp only [hgranted, hexpires, bind, Except.bind]
    exact ⟨_, rfl⟩

/-- Liveness is the order of the texts of two instants. -/
theorem live_decoded_iff {caps : DecodedCaveats} {decoded : Mandate} {t : Int}
    (h : Decodes opts.enforcers delegation.caveats caps)
    (hdecoded : decodedMandate delegation opts caps = .ok decoded)
    (hyear : Date.FourDigitYear t) :
    isLiveMandate decoded (Date.toIso t) = true ↔
      t < (expirySeconds opts.enforcers delegation.caveats : Int) * 1000 ∧
        (expirySeconds opts.enforcers delegation.caveats : Int) * 1000 < 253402300800000 := by
  have hrange := ((decodedMandate_decides_iff h).1 ⟨decoded, hdecoded⟩).2
  obtain ⟨hexpires, -, -, -, -, hstatus, -, -⟩ := decodedMandate_ok hdecoded
  rw [expiresAt_eq h] at hexpires
  have htext := Except.ok.inj ((if_pos hrange).symm.trans hexpires)
  have hlive : isLiveMandate decoded (Date.toIso t) = true ↔ strLt (Date.toIso t)
      (Date.toIso ((expirySeconds opts.enforcers delegation.caveats : Int) * 1000)) = true := by
    unfold isLiveMandate
    rw [hstatus, ← htext]
    simp
  rw [hlive]
  by_cases hfour : (expirySeconds opts.enforcers delegation.caveats : Int) * 1000 <
      253402300800000
  · have hexpiry : Date.FourDigitYear
        ((expirySeconds opts.enforcers delegation.caveats : Int) * 1000) :=
      Date.fourDigitYear_iff.2 ⟨by omega, hfour⟩
    rw [Date.strLt_toIso hyear hexpiry]
    exact (and_iff_left hfour).symm
  · have hsigned : ¬ Date.FourDigitYear
        ((expirySeconds opts.enforcers delegation.caveats : Int) * 1000) :=
      fun hexpiry => hfour (Date.fourDigitYear_iff.1 hexpiry).2
    rw [Date.strLt_toIso_signed hyear hsigned]
    simp [hfour]

theorem redemption_decides_iff {target : String} {caps : DecodedCaveats}
    (htarget : normalizeAddress opts.target = .ok target)
    (hcaps : decodeCaveats opts.enforcers delegation.caveats = .ok caps) :
    (∃ answer, gateDelegationRedemption delegation opts ctx = .ok answer) ↔
      ∃ decoded, decodedMandate delegation opts caps = .ok decoded ∧
        Answered (redemptionIntent delegation opts caps target ctx.now)
          (redemptionContext ctx decoded) := by
  constructor
  · rintro ⟨⟨intent, decision⟩, hanswer⟩
    obtain ⟨target', htarget', h⟩ := except_bind_eq_ok.1 hanswer
    obtain ⟨caps', hcaps', h⟩ := except_bind_eq_ok.1 h
    obtain ⟨decoded, hdecoded, h⟩ := except_bind_eq_ok.1 h
    obtain ⟨decision', hgate, -⟩ := except_bind_eq_ok.1 h
    cases htarget.symm.trans htarget'
    cases hcaps.symm.trans hcaps'
    exact ⟨decoded, hdecoded, (evaluateGate_decides_iff _ _).1 ⟨decision', hgate⟩⟩
  · rintro ⟨decoded, hdecoded, hanswered⟩
    obtain ⟨decision, hgate⟩ := (evaluateGate_decides_iff _ _).2 hanswered
    unfold gateDelegationRedemption
    simp only [htarget, hcaps, hdecoded, hgate, bind, Except.bind]
    exact ⟨_, rfl⟩

/-- **Expiry is handled exactly for dates in range**: start dates that are
dates, thresholds before the year 10000, and no threshold at all only before
the year 3000. -/
theorem redemption_handles_expiry_iff {t : Int} (hwf : Redeemable delegation opts)
    (hnow : ctx.now = Date.toIso t) (h1970 : 0 ≤ t) (h9999 : t < 253402300800000) :
    HandlesExpiry delegation opts ctx t ↔ DatesInRange delegation opts ctx t := by
  obtain ⟨target, htarget⟩ := hwf.target
  obtain ⟨caps, hcaps⟩ := hwf.caveats
  have hdec := decodes_of_ok hcaps
  have hyear : Date.FourDigitYear t := Date.fourDigitYear_iff.2 ⟨by omega, h9999⟩
  have hseconds : ∀ {before : Nat},
      beforeThreshold opts.enforcers delegation.caveats = some before →
        expirySeconds opts.enforcers delegation.caveats = before := by
    intro before hbefore
    rw [expirySeconds, hbefore, Option.getD_some]
  have hdefault : beforeThreshold opts.enforcers delegation.caveats = none →
      expirySeconds opts.enforcers delegation.caveats = 32503680000 := by
    intro hnone
    rw [expirySeconds, hnone, Option.getD_none]
  constructor
  · intro h
    obtain ⟨decoded, hdecoded, hanswered⟩ := (redemption_decides_iff htarget hcaps).1 h.decides
    have hlive := h.live_iff caps decoded hcaps hdecoded
    rw [hnow, live_decoded_iff hdec hdecoded hyear] at hlive
    constructor
    case start => exact ((decodedMandate_decides_iff hdec).1 ⟨decoded, hdecoded⟩).1
    case before =>
        intro before hbefore
        rw [hseconds hbefore] at hlive
        by_contra hlate
        have hbound := (hlive.2 fun b hb => by
          cases (Option.mem_def.1 hbefore).symm.trans hb
          omega).2
        omega
    case unbounded =>
        intro hnone
        rw [hdefault hnone] at hlive
        have hbound := (hlive.2 fun b hb => by
          rw [hnone] at hb
          cases hb).1
        omega
    case answered =>
        intro target' caps' decoded' htarget' hcaps' hdecoded'
        cases htarget.symm.trans htarget'
        cases hcaps.symm.trans hcaps'
        cases hdecoded.symm.trans hdecoded'
        exact hanswered
  · intro h
    have hrange : (expirySeconds opts.enforcers delegation.caveats : Int) * 1000 ≤
        Date.maxTime := by
      unfold Date.maxTime
      cases hbefore : beforeThreshold opts.enforcers delegation.caveats with
      | none =>
          rw [hdefault hbefore]
          omega
      | some before =>
          have hbound := h.before before hbefore
          rw [hseconds hbefore]
          omega
    obtain ⟨decoded, hdecoded⟩ := (decodedMandate_decides_iff hdec).2 ⟨h.start, hrange⟩
    constructor
    case decides =>
        exact (redemption_decides_iff htarget hcaps).2
          ⟨decoded, hdecoded, h.answered target caps decoded htarget hcaps hdecoded⟩
    case live_iff =>
        intro caps' decoded' hcaps' hdecoded'
        cases hcaps.symm.trans hcaps'
        cases hdecoded.symm.trans hdecoded'
        rw [hnow, live_decoded_iff hdec hdecoded hyear]
        cases hbefore : beforeThreshold opts.enforcers delegation.caveats with
        | none =>
            have hbound := h.unbounded hbefore
            rw [hdefault hbefore]
            simpa using hbound
        | some before =>
            have hbound := h.before before hbefore
            rw [hseconds hbefore]
            simpa using fun _ => hbound

namespace Sample

/-- An allowance until a threshold of sixteen bytes. -/
def expiring (threshold : List UInt8) : Delegation where
  delegate := address 'a'
  delegator := address 'b'
  authority := rootAuthority
  caveats :=
    [{ enforcer := address '1'
       terms := bytesToHex (List.replicate 16 0 ++ threshold)
       args := emptyArgs },
      allowanceCaveat 200]
  salt := 1
  signature := "0x"

/-- The time value of the sample contexts. -/
def noon : Int := 1767830400000

theorem knownTarget_now : knownTarget.now = Date.toIso noon := by decide +kernel

/-- The greatest threshold, for a delegation without an end. -/
def endless : Delegation := expiring (List.replicate 16 255)

/-- The last second of 32 bits. -/
def until2038 : Delegation := expiring (List.replicate 12 0 ++ [127, 255, 255, 255])

theorem redeemable_expiring {threshold : List UInt8}
    (h : (decodeCaveats enforcers (expiring threshold).caveats).toOption.isSome = true) :
    Redeemable (expiring threshold) redemption where
  target := ⟨address 'c', by decide +kernel⟩
  caveats := by
    obtain ⟨caps, hcaps⟩ := Option.isSome_iff_exists.1 h
    exact ⟨caps, except_toOption_eq_some.1 hcaps⟩

end Sample

theorem redemption_handles_expiry_2038 :
    HandlesExpiry Sample.until2038 Sample.redemption Sample.knownTarget Sample.noon := by
  have hthreshold : beforeThreshold Sample.redemption.enforcers Sample.until2038.caveats =
      some 2147483647 := by decide +kernel
  have hstart : startDate Sample.redemption.enforcers Sample.until2038.caveats = none := by
    decide +kernel
  have hwf : Redeemable Sample.until2038 Sample.redemption :=
    Sample.redeemable_expiring (by decide +kernel)
  refine (redemption_handles_expiry_iff hwf Sample.knownTarget_now (by decide)
    (by decide)).2 ?_
  constructor
  case start =>
      rw [hstart]
      rintro start ⟨⟩
  case before =>
      rw [hthreshold]
      rintro before ⟨⟩
      decide
  case unbounded =>
      rw [hthreshold]
      rintro ⟨⟩
  case answered =>
      intro target caps decoded _ _ _ mandate _ _
      have hwindow : (velocityWindowStart Sample.knownTarget).toOption.isSome = true := by
        decide +kernel
      obtain ⟨windowStart, hstart⟩ := Option.isSome_iff_exists.1 hwindow
      exact ⟨[], rfl, .inr ⟨windowStart, except_toOption_eq_some.1 hstart⟩⟩

/-- A delegation meant not to expire makes the gate throw. -/
theorem endless_delegation_throws :
    Redeemable Sample.endless Sample.redemption ∧
      Sample.knownTarget.now = Date.toIso Sample.noon ∧
      0 ≤ Sample.noon ∧ Sample.noon < 253402300800000 ∧
      ¬ HandlesExpiry Sample.endless Sample.redemption Sample.knownTarget Sample.noon := by
  refine ⟨Sample.redeemable_expiring (by decide +kernel), Sample.knownTarget_now, by decide,
    by decide, ?_⟩
  rintro ⟨⟨answer, hanswer⟩, -⟩
  have hthrows : (gateDelegationRedemption Sample.endless Sample.redemption
      Sample.knownTarget).toOption.isNone = true := by decide +kernel
  rw [hanswer] at hthrows
  cases hthrows

end AgentWorth.Erc7710
