import AgentWorth.Core.Gate
import AgentWorth.Erc7710.Terms
import AgentWorth.Lib.Map

/-!
# Delegations of a mandate

`mandateToDelegation` and `gateDelegationRedemption` of `src/erc7710/index.ts`:
a mandate written as the caveats of a delegation, and a redemption of a
delegation taken through the gate under the mandate its caveats decode to.
-/

namespace AgentWorth.Erc7710

open AgentWorth.Js AgentWorth.Lib

structure Caveat where
  enforcer : String
  terms : String
  args : String
  deriving DecidableEq

structure Delegation where
  delegate : String
  delegator : String
  authority : String
  caveats : List Caveat
  salt : Int
  signature : String
  deriving DecidableEq

/-- The enforcer contracts of a deployment. -/
structure EnforcerAddresses where
  timestamp : String
  nativeTokenTransferAmount : Option String
  erc20TransferAmount : Option String
  erc20PeriodTransfer : Option String
  nativeTokenPeriodTransfer : Option String
  allowedTargets : Option String

/-- The kinds of enforcer, one for each field of `EnforcerAddresses`. -/
inductive EnforcerKind where
  | timestamp
  | nativeTokenTransferAmount
  | erc20TransferAmount
  | erc20PeriodTransfer
  | nativeTokenPeriodTransfer
  | allowedTargets
  deriving DecidableEq

def EnforcerAddresses.get (e : EnforcerAddresses) : EnforcerKind → Option String
  | .timestamp => some e.timestamp
  | .nativeTokenTransferAmount => e.nativeTokenTransferAmount
  | .erc20TransferAmount => e.erc20TransferAmount
  | .erc20PeriodTransfer => e.erc20PeriodTransfer
  | .nativeTokenPeriodTransfer => e.nativeTokenPeriodTransfer
  | .allowedTargets => e.allowedTargets

/-- `ROOT_AUTHORITY`. -/
def rootAuthority : String := String.ofList ('0' :: 'x' :: List.replicate 64 'f')

/-- `EMPTY_ARGS`. -/
def emptyArgs : String := "0x"

/-- `PERIOD_SECONDS`. -/
def periodSeconds : Period → JsNumber
  | .day => .fin 86400
  | .week => .fin 604800
  | .month => .fin 2592000

/-- An optional text that is not empty: what `if (text)` lets through. -/
def truthy (text : Option String) : Option String := text.filter fun s => s ≠ ""

/-- `Math.floor`. -/
def mathFloor : JsNumber → JsNumber
  | .fin q => .fin (q.floor : ℚ)
  | x => x

/-- `Math.abs`. -/
def mathAbs (x : JsNumber) : JsNumber := if x < 0 then -x else x

def require (ok : Bool) (message : String) : Except String Unit :=
  if ok then .ok () else .error message

/-! ## A mandate as a delegation -/

structure MandateToDelegationOpts where
  delegate : String
  delegator : String
  enforcers : EnforcerAddresses
  token : Option String
  salt : Option Int
  periodSecondsOverride : Option JsNumber

/-- FNV-1a over the code units of the id. -/
def deterministicSalt (id : String) : Int :=
  ((utf16 id).foldl (fun hash unit => ((hash ^^^ unit) * 0x100000001b3) % 2 ^ 64)
    0xcbf29ce484222325 : Nat)

/-- `Math.floor(new Date(iso).getTime() / 1000)`. -/
def unixSeconds (iso : String) : JsNumber := mathFloor (Date.getTime iso / .fin 1000)

/-- The caveat of an enforcer that must be supplied. -/
def caveatOf (enforcer : Option String) (missing : String)
    (terms : Except String (List UInt8)) : Except String Caveat := do
  match truthy enforcer with
  | none => throw missing
  | some address =>
      let enforcer ← normalizeAddress address
      let bytes ← terms
      return { enforcer := enforcer, terms := bytesToHex bytes, args := emptyArgs }

/-- `expiresAt` as a timestamp caveat. -/
def timestampCaveat (m : Mandate) (e : EnforcerAddresses) : Except String Caveat := do
  let beforeUnix := unixSeconds m.expiresAt
  require beforeUnix.isFinite ("mandate expiresAt is not a valid date: " ++ m.expiresAt)
  let enforcer ← normalizeAddress e.timestamp
  let bytes ← encodeTimestampTerms beforeUnix 0
  return { enforcer := enforcer, terms := bytesToHex bytes, args := emptyArgs }

/-- `perTxCap` as a transfer-amount caveat. -/
def transferAmountCaveat (m : Mandate) (opts : MandateToDelegationOpts) :
    Except String Caveat :=
  match truthy opts.token with
  | some token =>
      caveatOf opts.enforcers.erc20TransferAmount
        "mandateToDelegation: token set but erc20TransferAmount enforcer missing"
        ((toBigInt m.perTxCap).bind (encodeErc20AmountTerms token))
  | none =>
      caveatOf opts.enforcers.nativeTokenTransferAmount
        "mandateToDelegation: no token and nativeTokenTransferAmount enforcer missing"
        ((toBigInt m.perTxCap).bind encodeNativeAmountTerms)

/-- `perPeriodCap`, `period` and `grantedAt` as a period-transfer caveat. -/
def periodTransferCaveat (m : Mandate) (opts : MandateToDelegationOpts) :
    Except String Caveat := do
  let periodDuration := opts.periodSecondsOverride.getD (periodSeconds m.period)
  let startDate := unixSeconds m.grantedAt
  require startDate.isFinite ("mandate grantedAt is not a valid date: " ++ m.grantedAt)
  match truthy opts.token with
  | some token =>
      caveatOf opts.enforcers.erc20PeriodTransfer
        "mandateToDelegation: token set but erc20PeriodTransfer enforcer missing"
        ((toBigInt m.perPeriodCap).bind fun cap =>
          encodePeriodTerms token cap periodDuration startDate)
  | none =>
      caveatOf opts.enforcers.nativeTokenPeriodTransfer
        "mandateToDelegation: no token and nativeTokenPeriodTransfer enforcer missing"
        ((toBigInt m.perPeriodCap).bind fun cap =>
          encodeNativePeriodTerms cap periodDuration startDate)

/-- An allowlist scope as an allowed-targets caveat. -/
def allowedTargetsCaveats (m : Mandate) (e : EnforcerAddresses) :
    Except String (List Caveat) :=
  match m.scope with
  | .allowlist values =>
      (caveatOf e.allowedTargets
        "mandateToDelegation: allowlist scope but allowedTargets enforcer missing"
        (encodeAllowedTargetsTerms values)).map fun caveat => [caveat]
  | .class _ => .ok []

def mandateToDelegation (m : Mandate) (opts : MandateToDelegationOpts) :
    Except String Delegation := do
  let expiry ← timestampCaveat m opts.enforcers
  let transfer ← transferAmountCaveat m opts
  let period ← periodTransferCaveat m opts
  let targets ← allowedTargetsCaveats m opts.enforcers
  let delegate ← normalizeAddress opts.delegate
  let delegator ← normalizeAddress opts.delegator
  return { delegate := delegate
           delegator := delegator
           authority := rootAuthority
           caveats := [expiry, transfer, period] ++ targets
           salt := opts.salt.getD (deterministicSalt m.id)
           signature := "0x" }

/-! ## A redemption through the gate -/

structure DelegationRedemptionOpts where
  target : String
  amount : JsNumber
  currency : String
  rail : Option RailKind
  rationale : String
  payeeClass : Option String
  intentId : Option String
  enforcers : EnforcerAddresses
  mandateId : Option String
  mandateLabel : Option String

/-- The key of a configured enforcer. -/
def norm (a : Option String) : Except String (Option String) :=
  match truthy a with
  | some address => (normalizeAddress address).map fun n => some (toLowerCase n)
  | none => .ok none

/-- `byAddr`: a later caveat of one enforcer replaces an earlier one. -/
def caveatsByAddress (caveats : List Caveat) : Except String (JsMap Caveat) :=
  caveats.foldlM
    (fun byAddr c => (normalizeAddress c.enforcer).map fun a => byAddr.set (toLowerCase a) c)
    JsMap.empty

/-- `byAddr.get(norm(address) ?? "")`. -/
def caveatAt (byAddr : JsMap Caveat) (address : Option String) :
    Except String (Option Caveat) :=
  (norm address).map fun key => byAddr.get (key.getD "")

/-- The closest period, in the order of `PERIOD_SECONDS`. -/
def periodFromSeconds (seconds : JsNumber) : Period :=
  ([Period.day, .week, .month].foldl (fun best p =>
    let diff := mathAbs (periodSeconds p - seconds)
    if diff < best.2 then (p, diff) else best) (Period.day, JsNumber.posInf)).1

/-- What a period-transfer caveat says. -/
structure PeriodCap where
  amount : JsNumber
  period : Period
  grantedUnix : JsNumber

def expiry (tsC : Option Caveat) : Except String (Option JsNumber) :=
  match tsC with
  | some c => (decodeTimestampTerms c.terms).map fun t => some t.beforeUnix
  | none => .ok none

def transferCap (erc20AmtC nativeAmtC : Option Caveat) : Except String (Option JsNumber) :=
  match erc20AmtC with
  | some c => (decodeErc20AmountTerms c.terms).map fun t => some (ofBigInt t.allowance)
  | none =>
      match nativeAmtC with
      | some c => (decodeNativeAmountTerms c.terms).map fun n => some (ofBigInt n)
      | none => .ok none

def periodCap (erc20PerC nativePerC : Option Caveat) : Except String (Option PeriodCap) :=
  match erc20PerC with
  | some c => (decodePeriodTerms c.terms).map fun p => some
      { amount := ofBigInt p.periodAmount
        period := periodFromSeconds p.periodDuration
        grantedUnix := p.startDate }
  | none =>
      match nativePerC with
      | some c => (decodeNativePeriodTerms c.terms).map fun p => some
          { amount := ofBigInt p.periodAmount
            period := periodFromSeconds p.periodDuration
            grantedUnix := p.startDate }
      | none => .ok none

def allowlist (targetsC : Option Caveat) : Except String (Option (List String)) :=
  match targetsC with
  | some c => (decodeAllowedTargetsTerms c.terms).map fun as => some (as.map toLowerCase)
  | none => .ok none

/-- The authority fields the caveats decode to. -/
structure DecodedCaveats where
  expiresUnix : Option JsNumber
  perTxCap : Option JsNumber
  period : Option PeriodCap
  allowlist : Option (List String)

def decodeCaveats (e : EnforcerAddresses) (caveats : List Caveat) :
    Except String DecodedCaveats := do
  let byAddr ← caveatsByAddress caveats
  let tsC ← caveatAt byAddr (some e.timestamp)
  let expiresUnix ← expiry tsC
  let erc20AmtC ← caveatAt byAddr e.erc20TransferAmount
  let nativeAmtC ← caveatAt byAddr e.nativeTokenTransferAmount
  let perTxCap ← transferCap erc20AmtC nativeAmtC
  let erc20PerC ← caveatAt byAddr e.erc20PeriodTransfer
  let nativePerC ← caveatAt byAddr e.nativeTokenPeriodTransfer
  let period ← periodCap erc20PerC nativePerC
  let targetsC ← caveatAt byAddr e.allowedTargets
  let targets ← allowlist targetsC
  return { expiresUnix := expiresUnix, perTxCap := perTxCap, period := period,
           allowlist := targets }

/-- `v.toString(16)`. -/
def bigintToString16 (v : Int) : String :=
  String.ofList ((if v < 0 then ['-'] else []) ++ Nat.toDigits 16 v.natAbs)

section Redemption

variable (delegation : Delegation) (opts : DelegationRedemptionOpts)

def redemptionRail : RailKind := opts.rail.getD .onchain

def redemptionClass : String := opts.payeeClass.getD "delegated-spend"

def decodedMandateId : String :=
  opts.mandateId.getD ("0x" ++ bigintToString16 delegation.salt)

def decodedScope (values : Option (List String)) : PayeeScope :=
  match values with
  | some values => .allowlist values
  | none => .class (redemptionClass opts)

/-- The mandate the caveats stand for. -/
def decodedMandate (caps : DecodedCaveats) : Except String Mandate := do
  let txCap := caps.perTxCap.getD 0
  let grantedAt ← Date.toISOString ((caps.period.map PeriodCap.grantedUnix).getD 0 * .fin 1000)
  let expiresAt ← Date.toISOString (caps.expiresUnix.getD (.fin 32503680000) * .fin 1000)
  return { id := decodedMandateId delegation opts
           label := opts.mandateLabel.getD "ERC-7710 delegation"
           scope := decodedScope opts caps.allowlist
           currency := opts.currency
           allowedRails := [redemptionRail opts]
           perTxCap := txCap
           perPeriodCap := (caps.period.map PeriodCap.amount).getD txCap
           period := (caps.period.map PeriodCap.period).getD .month
           grantedAt := grantedAt
           expiresAt := expiresAt
           status := .active }

/-- The intent a redemption is taken through the gate as. -/
def redemptionIntent (caps : DecodedCaveats) (target now : String) : PaymentIntent where
  id := opts.intentId.getD (decodedMandateId delegation opts ++ ":" ++ target)
  payee := if caps.allowlist.isSome then toLowerCase target else target
  payeeClass := redemptionClass opts
  amount := opts.amount
  currency := opts.currency
  rail := redemptionRail opts
  rationale := opts.rationale
  createdAt := now

/-- The context with the decoded mandate behind the operator's. -/
def redemptionContext (ctx : GateContext) (decoded : Mandate) : GateContext :=
  { ctx with mandates := ctx.mandates ++ [decoded] }

def gateDelegationRedemption (ctx : GateContext) :
    Except String (PaymentIntent × GateDecision) := do
  let target ← normalizeAddress opts.target
  let caps ← decodeCaveats opts.enforcers delegation.caveats
  let decoded ← decodedMandate delegation opts caps
  let intent := redemptionIntent delegation opts caps target ctx.now
  let decision ← evaluateGate intent (redemptionContext ctx decoded)
  return (intent, decision)

end Redemption

/-- The fields of the decoded mandate. -/
theorem decodedMandate_ok {delegation : Delegation} {opts : DelegationRedemptionOpts}
    {caps : DecodedCaveats} {decoded : Mandate}
    (h : decodedMandate delegation opts caps = .ok decoded) :
    Date.toISOString (caps.expiresUnix.getD (.fin 32503680000) * .fin 1000) =
        .ok decoded.expiresAt ∧
      decoded.id = decodedMandateId delegation opts ∧ decoded.currency = opts.currency ∧
      decoded.perTxCap = caps.perTxCap.getD 0 ∧
      decoded.perPeriodCap = (caps.period.map PeriodCap.amount).getD (caps.perTxCap.getD 0) ∧
      decoded.status = .active ∧ decoded.allowedRails = [redemptionRail opts] ∧
      decoded.scope = decodedScope opts caps.allowlist := by
  obtain ⟨grantedAt, -, h⟩ := except_bind_eq_ok.1 h
  obtain ⟨expiresAt, hexpires, h⟩ := except_bind_eq_ok.1 h
  cases h
  exact ⟨hexpires, rfl, rfl, rfl, rfl, rfl, rfl, rfl⟩

/-! ## Dates of large integers -/

/-- `new Date(Number(n) * 1000).toISOString()`. -/
theorem toISOString_unix (n : Nat) :
    Date.toISOString (ofBigInt n * .fin 1000) =
      if (n : Int) * 1000 ≤ Date.maxTime then .ok (Date.toIso (n * 1000))
      else .error "Invalid time value" := by
  have hms : ∀ m : Nat, (m : JsNumber) * .fin 1000 = .fin (((m : Int) * 1000 : Int) : ℚ) := by
    intro m
    rw [JsNumber.natCast_eq_fin]
    show JsNumber.fin ((m : ℚ) * 1000) = _
    push_cast
    rfl
  have hrange : ∀ m : Nat, Date.toISOString ((m : JsNumber) * .fin 1000) =
      if (m : Int) * 1000 ≤ Date.maxTime then .ok (Date.toIso (m * 1000))
      else .error "Invalid time value" := by
    intro m
    rw [hms, Date.toISOString_int]
    have habs : ((m : Int) * 1000).natAbs ≤ Date.maxTime.natAbs ↔
        (m : Int) * 1000 ≤ Date.maxTime := by
      unfold Date.maxTime
      omega
    simp only [habs]
  by_cases hsmall : n < 2 ^ 53
  · rw [ofBigInt_of_lt hsmall, hrange]
  · have hbig : ¬ (n : Int) * 1000 ≤ Date.maxTime := by
      unfold Date.maxTime
      omega
    rw [if_neg hbig]
    rcases ofBigInt_of_ge (not_lt.1 hsmall) with hinf | ⟨m, hm, heq⟩
    · rw [hinf]
      rfl
    · rw [heq, hrange, if_neg]
      unfold Date.maxTime
      omega

/-! ## The caveat an enforcer goes by -/

/-- The caveat is one of the configured enforcer of that kind. -/
def isFor (e : EnforcerAddresses) (kind : EnforcerKind) (c : Caveat) : Bool :=
  match norm (e.get kind), normalizeAddress c.enforcer with
  | .ok (some key), .ok address => key == toLowerCase address
  | _, _ => false

/-- The last caveat of an enforcer. -/
def lastFor (e : EnforcerAddresses) (kind : EnforcerKind) (caveats : List Caveat) :
    Option Caveat := (caveats.filter (isFor e kind)).getLast?

theorem caveatsByAddress_snoc (caveats : List Caveat) (c : Caveat) :
    caveatsByAddress (caveats ++ [c]) = (caveatsByAddress caveats).bind fun byAddr =>
      (normalizeAddress c.enforcer).map fun a => byAddr.set (toLowerCase a) c := by
  unfold caveatsByAddress
  rw [List.foldlM_append]
  show Except.bind _ _ = Except.bind _ _
  congr 1
  funext byAddr
  rw [List.foldlM_cons]
  exact bind_pure _

theorem isFor_iff {e : EnforcerAddresses} {kind : EnforcerKind} {c : Caveat} :
    isFor e kind c = true ↔
      ∃ key, norm (e.get kind) = .ok (some key) ∧ normalizeAddress c.enforcer = .ok key := by
  unfold isFor
  constructor
  · intro h
    split at h
    · next key address hkey haddress =>
        have hlower := (isAddress_of_normalize haddress).toLowerCase
        rw [beq_iff_eq, hlower] at h
        exact ⟨key, hkey, h ▸ haddress⟩
    · cases h
  · rintro ⟨key, hkey, haddress⟩
    rw [hkey, haddress]
    exact beq_iff_eq.2 (isAddress_of_normalize haddress).toLowerCase.symm

theorem lastFor_snoc (e : EnforcerAddresses) (kind : EnforcerKind) (caveats : List Caveat)
    (c : Caveat) : lastFor e kind (caveats ++ [c]) =
      if isFor e kind c then some c else lastFor e kind caveats := by
  unfold lastFor
  rw [List.filter_append]
  by_cases hfor : isFor e kind c = true
  · rw [if_pos hfor, List.filter_cons_of_pos hfor]
    simp
  · rw [if_neg hfor, List.filter_cons_of_neg hfor]
    simp

/-- **What the map holds for an enforcer is the last caveat of it.** -/
theorem caveatAt_eq_lastFor {e : EnforcerAddresses} {kind : EnforcerKind}
    {caveats : List Caveat} {byAddr : JsMap Caveat} {found : Option Caveat}
    (hmap : caveatsByAddress caveats = .ok byAddr)
    (h : caveatAt byAddr (e.get kind) = .ok found) : found = lastFor e kind caveats := by
  obtain ⟨key, hkey, rfl⟩ := except_map_eq_ok.1 h
  clear h
  induction caveats using List.reverseRecOn generalizing byAddr with
  | nil =>
      cases hmap
      rfl
  | append_singleton caveats c ih =>
      rw [caveatsByAddress_snoc] at hmap
      obtain ⟨before, hbefore, hset⟩ := except_bind_eq_ok.1 hmap
      obtain ⟨address, haddress, rfl⟩ := except_map_eq_ok.1 hset
      have hisAddress := isAddress_of_normalize haddress
      rw [lastFor_snoc, JsMap.get_set, ih hbefore, hisAddress.toLowerCase]
      have hiff : key.getD "" = address ↔ isFor e kind c = true := by
        rw [isFor_iff]
        constructor
        · intro heq
          cases key with
          | none => exact absurd heq.symm hisAddress.ne_empty
          | some key =>
              have hsame : key = address := heq
              exact ⟨key, hkey, hsame ▸ haddress⟩
        · rintro ⟨key', hkey', haddress'⟩
          rw [hkey] at hkey'
          cases hkey'
          exact Except.ok.inj (haddress'.symm.trans haddress)
      simp only [hiff]

/-- What the caveats decode to, by the last caveat of each enforcer. -/
structure Decodes (e : EnforcerAddresses) (caveats : List Caveat) (caps : DecodedCaveats) :
    Prop where
  expires : expiry (lastFor e .timestamp caveats) = .ok caps.expiresUnix
  perTx : transferCap (lastFor e .erc20TransferAmount caveats)
    (lastFor e .nativeTokenTransferAmount caveats) = .ok caps.perTxCap
  perPeriod : periodCap (lastFor e .erc20PeriodTransfer caveats)
    (lastFor e .nativeTokenPeriodTransfer caveats) = .ok caps.period
  targets : allowlist (lastFor e .allowedTargets caveats) = .ok caps.allowlist

theorem decodes_of_ok {e : EnforcerAddresses} {caveats : List Caveat} {caps : DecodedCaveats}
    (h : decodeCaveats e caveats = .ok caps) : Decodes e caveats caps := by
  obtain ⟨byAddr, hmap, h⟩ := except_bind_eq_ok.1 h
  obtain ⟨tsC, hts, h⟩ := except_bind_eq_ok.1 h
  obtain ⟨expiresUnix, hexpires, h⟩ := except_bind_eq_ok.1 h
  obtain ⟨erc20AmtC, herc20, h⟩ := except_bind_eq_ok.1 h
  obtain ⟨nativeAmtC, hnative, h⟩ := except_bind_eq_ok.1 h
  obtain ⟨perTxCap, hperTx, h⟩ := except_bind_eq_ok.1 h
  obtain ⟨erc20PerC, herc20Per, h⟩ := except_bind_eq_ok.1 h
  obtain ⟨nativePerC, hnativePer, h⟩ := except_bind_eq_ok.1 h
  obtain ⟨period, hperiod, h⟩ := except_bind_eq_ok.1 h
  obtain ⟨targetsC, htargets, h⟩ := except_bind_eq_ok.1 h
  obtain ⟨targets, hallow, h⟩ := except_bind_eq_ok.1 h
  cases h
  have ets := @caveatAt_eq_lastFor e .timestamp _ _ _ hmap hts
  have eerc20 := @caveatAt_eq_lastFor e .erc20TransferAmount _ _ _ hmap herc20
  have enative := @caveatAt_eq_lastFor e .nativeTokenTransferAmount _ _ _ hmap hnative
  have eerc20Per := @caveatAt_eq_lastFor e .erc20PeriodTransfer _ _ _ hmap herc20Per
  have enativePer := @caveatAt_eq_lastFor e .nativeTokenPeriodTransfer _ _ _ hmap hnativePer
  have etargets := @caveatAt_eq_lastFor e .allowedTargets _ _ _ hmap htargets
  subst ets eerc20 enative eerc20Per enativePer etargets
  exact ⟨hexpires, hperTx, hperiod, hallow⟩

namespace Sample

/-- An address of one repeated digit. -/
def address (digit : Char) : String := String.ofList ('0' :: 'x' :: List.replicate 40 digit)

end Sample

end AgentWorth.Erc7710
