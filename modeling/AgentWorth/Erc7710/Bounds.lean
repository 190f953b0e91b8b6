import AgentWorth.Core.GateSpec
import AgentWorth.Erc7710.Delegation

/-!
# The bounds of a delegation

What the caveats of a delegation bound a redemption by, and which of these
bounds the gate holds it to.  The map keeps one caveat for each enforcer, an
ERC-20 cap hides a native one, the lower time bound is decoded and not used, and
an operator mandate that covers the payment authorizes it first; every other
bound is met by whatever the gate executes.
-/

namespace AgentWorth.Erc7710

open AgentWorth.Js AgentWorth.Lib

/-- A bound on a redemption. -/
inductive Bound where
  | perTx (allowance : Nat)
  | perPeriod (amount : Nat)
  | targets (allowed : List String)
  | after (unix : JsNumber)
  | before (unix : JsNumber)

/-- What terms bound, read for an enforcer. -/
def termsBounds : EnforcerKind → String → List Bound
  | .timestamp, terms =>
      match decodeTimestampTerms terms with
      | .ok t => [.after t.afterUnix, .before t.beforeUnix]
      | .error _ => []
  | .nativeTokenTransferAmount, terms =>
      match decodeNativeAmountTerms terms with
      | .ok allowance => [.perTx allowance]
      | .error _ => []
  | .erc20TransferAmount, terms =>
      match decodeErc20AmountTerms terms with
      | .ok t => [.perTx t.allowance]
      | .error _ => []
  | .erc20PeriodTransfer, terms =>
      match decodePeriodTerms terms with
      | .ok p => [.perPeriod p.periodAmount]
      | .error _ => []
  | .nativeTokenPeriodTransfer, terms =>
      match decodeNativePeriodTerms terms with
      | .ok p => [.perPeriod p.periodAmount]
      | .error _ => []
  | .allowedTargets, terms =>
      match decodeAllowedTargetsTerms terms with
      | .ok as => [.targets as]
      | .error _ => []

/-- A caveat of the delegation states the bound. -/
def States (e : EnforcerAddresses) (caveats : List Caveat) (bound : Bound) : Prop :=
  ∃ c ∈ caveats, ∃ kind, isFor e kind c = true ∧ bound ∈ termsBounds kind c.terms

section Redemption

variable (delegation : Delegation) (opts : DelegationRedemptionOpts) (ctx : GateContext)

/-- The redemption keeps the bound; thresholds are seconds, the clock is read
in milliseconds. -/
def Bound.Holds : Bound → Prop
  | .perTx allowance => opts.amount ≤ (allowance : JsNumber)
  | .perPeriod amount => ∃ spend,
      ctx.periodSpendByMandate (decodedMandateId delegation opts) = .ok spend ∧
        spentTotal spend + opts.amount ≤ (amount : JsNumber)
  | .targets allowed => ∃ target, normalizeAddress opts.target = .ok target ∧ target ∈ allowed
  | .after unix => unix * .fin 1000 < Date.getTime ctx.now
  | .before unix => Date.getTime ctx.now < unix * .fin 1000

/-- What `gateDelegationRedemption` is for: what it executes keeps every bound. -/
def EnforcesBounds : Prop :=
  ∀ intent decision, gateDelegationRedemption delegation opts ctx = .ok (intent, decision) →
    decision.outcome = .autoExecute →
      ∀ bound, States opts.enforcers delegation.caveats bound → bound.Holds delegation opts ctx

/-- The redemption decodes and passes every stage of the gate. -/
structure Passes (target : String) (caps : DecodedCaveats) (decoded : Mandate) : Prop where
  normalizes : normalizeAddress opts.target = .ok target
  decodes : decodeCaveats opts.enforcers delegation.caveats = .ok caps
  grants : decodedMandate delegation opts caps = .ok decoded
  stages : ∃ mandate spend,
    AutoExecutable (redemptionIntent delegation opts caps target ctx.now)
      (redemptionContext ctx decoded) mandate spend

/-- An operator mandate authorizes the payment before the decoded one is
reached. -/
def OperatorCovers (intent : PaymentIntent) : Prop :=
  ∃ m ∈ ctx.mandates, isLiveMandate m ctx.now = true ∧ covers m intent ctx.convert = true

/-- The bounds of the last caveat of an enforcer. -/
def lastBounds (e : EnforcerAddresses) (caveats : List Caveat) (kind : EnforcerKind) :
    List Bound :=
  ((lastFor e kind caveats).map fun c => termsBounds kind c.terms).getD []

/-- The bounds of the caveats the map keeps, without the native caps behind
ERC-20 ones. -/
def keptBounds (e : EnforcerAddresses) (caveats : List Caveat) : List Bound :=
  lastBounds e caveats .timestamp ++
    ((if (lastFor e .erc20TransferAmount caveats).isSome then
        lastBounds e caveats .erc20TransferAmount
      else lastBounds e caveats .nativeTokenTransferAmount) ++
    ((if (lastFor e .erc20PeriodTransfer caveats).isSome then
        lastBounds e caveats .erc20PeriodTransfer
      else lastBounds e caveats .nativeTokenPeriodTransfer) ++
    lastBounds e caveats .allowedTargets))

/-- The gate compares the very numbers of the bound: a cap is not rounded up to
a double, the spend is a number, now is a clock timestamp; the lower time bound
is compared with nothing. -/
def Bound.Compared : Bound → Prop
  | .perTx allowance => ofBigInt allowance ≤ (allowance : JsNumber)
  | .perPeriod amount => ofBigInt amount ≤ (amount : JsNumber) ∧ ∀ spend,
      ctx.periodSpendByMandate (decodedMandateId delegation opts) = .ok spend →
        spentTotal spend ≠ .nan
  | .targets _ => True
  | .after _ => False
  | .before _ => ∃ t, Date.FourDigitYear t ∧ ctx.now = Date.toIso t

/-- The bounds the gate holds a redemption to. -/
structure Governs (intent : PaymentIntent) (bound : Bound) : Prop where
  uncovered : ¬ OperatorCovers ctx intent
  kept : bound ∈ keptBounds opts.enforcers delegation.caveats
  compared : bound.Compared delegation opts ctx

end Redemption

variable {delegation : Delegation} {opts : DelegationRedemptionOpts} {ctx : GateContext}
  {target : String} {caps : DecodedCaveats} {decoded : Mandate} {intent : PaymentIntent}

/-! ## A redemption the gate executes -/

theorem passes_of_auto {decision : GateDecision}
    (h : gateDelegationRedemption delegation opts ctx = .ok (intent, decision))
    (hauto : decision.outcome = .autoExecute) :
    ∃ target caps decoded, Passes delegation opts ctx target caps decoded := by
  obtain ⟨target, htarget, h⟩ := except_bind_eq_ok.1 h
  obtain ⟨caps, hcaps, h⟩ := except_bind_eq_ok.1 h
  obtain ⟨decoded, hdecoded, h⟩ := except_bind_eq_ok.1 h
  obtain ⟨decision', hgate, h⟩ := except_bind_eq_ok.1 h
  cases h
  obtain ⟨m, spend, hstages, -⟩ := evaluateGate_auto hgate hauto
  exact ⟨target, caps, decoded, htarget, hcaps, hdecoded, m, spend, hstages⟩

theorem auto_of_passes (h : Passes delegation opts ctx target caps decoded) :
    ∃ intent decision, gateDelegationRedemption delegation opts ctx = .ok (intent, decision) ∧
      decision.outcome = .autoExecute := by
  obtain ⟨m, spend, hstages⟩ := h.stages
  obtain ⟨decision, hgate, hauto⟩ := hstages.decides
  refine ⟨redemptionIntent delegation opts caps target ctx.now, decision, ?_, hauto⟩
  unfold gateDelegationRedemption
  rw [h.normalizes, h.decodes]
  simp only [bind, Except.bind, h.grants, hgate]
  rfl

/-- Behind no operator mandate that covers it, a payment is authorized by the
decoded mandate. -/
theorem selected_decoded {mandate : Mandate} (huncovered : ¬ OperatorCovers ctx intent)
    (h : selectMandate intent (redemptionContext ctx decoded) = some mandate) :
    mandate = decoded ∧ isLiveMandate decoded ctx.now = true ∧
      covers decoded intent ctx.convert = true := by
  have hcovers := List.find?_some h
  have hmem : mandate ∈ ctx.mandates ++ [decoded] := List.mem_of_find?_eq_some h
  rw [Bool.and_eq_true] at hcovers
  rcases List.mem_append.1 hmem with hoperator | hdecoded
  · exact absurd ⟨mandate, hoperator, hcovers⟩ huncovered
  · rw [List.mem_singleton] at hdecoded
    subst hdecoded
    exact ⟨rfl, hcovers⟩

/-- Under the decoded mandate no amount is converted. -/
theorem amount_under_decoded (hcurrency : decoded.currency = opts.currency) :
    amountInMandate (redemptionIntent delegation opts caps target ctx.now)
      (redemptionContext ctx decoded) decoded = opts.amount := if_pos hcurrency

/-! ## Bounds that are kept -/

theorem mem_lastBounds {e : EnforcerAddresses} {caveats : List Caveat} {kind : EnforcerKind}
    {bound : Bound} (h : bound ∈ lastBounds e caveats kind) :
    ∃ c, lastFor e kind caveats = some c ∧ bound ∈ termsBounds kind c.terms := by
  unfold lastBounds at h
  cases hlast : lastFor e kind caveats with
  | none =>
      rw [hlast] at h
      cases h
  | some c =>
      rw [hlast] at h
      exact ⟨c, rfl, h⟩

section Kept

variable {e : EnforcerAddresses} {caveats : List Caveat} {bound : Bound}

theorem kept_timestamp (hdecodes : Decodes e caveats caps)
    (h : bound ∈ lastBounds e caveats .timestamp) :
    ∃ unix, (∃ after, bound = .after after) ∨
      bound = .before unix ∧ caps.expiresUnix = some unix := by
  obtain ⟨c, hlast, hbound⟩ := mem_lastBounds h
  have hexpires := hdecodes.expires
  rw [hlast] at hexpires
  obtain ⟨t, ht, hunix⟩ := except_map_eq_ok.1 hexpires
  unfold termsBounds at hbound
  simp only [ht, List.mem_cons, List.not_mem_nil, or_false] at hbound
  refine ⟨t.beforeUnix, ?_⟩
  rcases hbound with rfl | rfl
  · exact Or.inl ⟨_, rfl⟩
  · exact Or.inr ⟨rfl, hunix.symm⟩

theorem kept_transfer (hdecodes : Decodes e caveats caps)
    (h : bound ∈ if (lastFor e .erc20TransferAmount caveats).isSome then
        lastBounds e caveats .erc20TransferAmount
      else lastBounds e caveats .nativeTokenTransferAmount) :
    ∃ allowance, bound = .perTx allowance ∧ caps.perTxCap = some (ofBigInt allowance) := by
  have hcap := hdecodes.perTx
  cases herc20 : lastFor e .erc20TransferAmount caveats with
  | some c =>
      rw [herc20, Option.isSome_some, if_pos rfl] at h
      obtain ⟨c', hlast, hbound⟩ := mem_lastBounds h
      cases herc20.symm.trans hlast
      rw [herc20] at hcap
      obtain ⟨t, ht, hcap⟩ := except_map_eq_ok.1 hcap
      unfold termsBounds at hbound
      simp only [ht, List.mem_singleton] at hbound
      exact ⟨t.allowance, hbound, hcap.symm⟩
  | none =>
      rw [herc20, Option.isSome_none, if_neg Bool.false_ne_true] at h
      obtain ⟨c, hlast, hbound⟩ := mem_lastBounds h
      rw [herc20, hlast] at hcap
      obtain ⟨n, hn, hcap⟩ := except_map_eq_ok.1 hcap
      unfold termsBounds at hbound
      simp only [hn, List.mem_singleton] at hbound
      exact ⟨n, hbound, hcap.symm⟩

theorem kept_period (hdecodes : Decodes e caveats caps)
    (h : bound ∈ if (lastFor e .erc20PeriodTransfer caveats).isSome then
        lastBounds e caveats .erc20PeriodTransfer
      else lastBounds e caveats .nativeTokenPeriodTransfer) :
    ∃ amount, bound = .perPeriod amount ∧
      caps.period.map PeriodCap.amount = some (ofBigInt amount) := by
  have hcap := hdecodes.perPeriod
  cases herc20 : lastFor e .erc20PeriodTransfer caveats with
  | some c =>
      rw [herc20, Option.isSome_some, if_pos rfl] at h
      obtain ⟨c', hlast, hbound⟩ := mem_lastBounds h
      cases herc20.symm.trans hlast
      rw [herc20] at hcap
      obtain ⟨p, hp, hcap⟩ := except_map_eq_ok.1 hcap
      unfold termsBounds at hbound
      simp only [hp, List.mem_singleton] at hbound
      exact ⟨p.periodAmount, hbound, by rw [← hcap]; rfl⟩
  | none =>
      rw [herc20, Option.isSome_none, if_neg Bool.false_ne_true] at h
      obtain ⟨c, hlast, hbound⟩ := mem_lastBounds h
      rw [herc20, hlast] at hcap
      obtain ⟨p, hp, hcap⟩ := except_map_eq_ok.1 hcap
      unfold termsBounds at hbound
      simp only [hp, List.mem_singleton] at hbound
      exact ⟨p.periodAmount, hbound, by rw [← hcap]; rfl⟩

theorem toLowerCase_packedAddresses (count : Nat) : ∀ bytes : List UInt8,
    (packedAddresses count bytes).map toLowerCase = packedAddresses count bytes := by
  induction count with
  | zero => exact fun _ => rfl
  | succ count ih =>
      intro bytes
      rw [packedAddresses, List.map_cons, ih, toLowerCase_bytesToHex]

theorem kept_targets (hdecodes : Decodes e caveats caps)
    (h : bound ∈ lastBounds e caveats .allowedTargets) :
    ∃ allowed, bound = .targets allowed ∧ caps.allowlist = some allowed := by
  obtain ⟨c, hlast, hbound⟩ := mem_lastBounds h
  have htargets := hdecodes.targets
  rw [hlast] at htargets
  obtain ⟨as, has, hallow⟩ := except_map_eq_ok.1 htargets
  have hlower : as.map toLowerCase = as := by
    obtain ⟨bytes, -, hcheck⟩ := except_bind_eq_ok.1 has
    split at hcheck
    · cases hcheck
    · rw [← Except.ok.inj hcheck]
      exact toLowerCase_packedAddresses _ _
  unfold termsBounds at hbound
  simp only [has, List.mem_singleton] at hbound
  exact ⟨as, hbound, hallow.symm.trans (congrArg some hlower)⟩

end Kept

/-- An instant before a rendered one, as numbers. -/
theorem getTime_lt_of_live {unix : JsNumber} {expiresAt : String} {t : Int}
    (ht : Date.FourDigitYear t) (hexpires : Date.toISOString (unix * .fin 1000) = .ok expiresAt)
    (hlive : strLt (Date.toIso t) expiresAt = true) :
    Date.getTime (Date.toIso t) < unix * .fin 1000 := by
  rw [Date.getTime_toIso ht]
  cases hunix : unix * .fin 1000 with
  | fin q =>
      rw [hunix] at hexpires
      by_contra hle
      rw [JsNumber.fin_lt_fin, not_lt] at hle
      rw [Date.not_strLt_toISOString ht hexpires hle] at hlive
      cases hlive
  | nan =>
      rw [hunix] at hexpires
      cases hexpires
  | posInf => rfl
  | negInf =>
      rw [hunix] at hexpires
      cases hexpires

/-- **What the gate holds a redemption to, it keeps.** -/
theorem holds_of_governs (h : Passes delegation opts ctx target caps decoded) {bound : Bound}
    (hgoverns : Governs delegation opts ctx
      (redemptionIntent delegation opts caps target ctx.now) bound) :
    bound.Holds delegation opts ctx := by
  obtain ⟨mandate, spend, hstages⟩ := h.stages
  obtain ⟨rfl, hlive, hcovers⟩ := selected_decoded hgoverns.uncovered hstages.selected
  obtain ⟨hexpires, hid, hcurrency, hperTx, hperPeriod, -, -, hscope⟩ :=
    decodedMandate_ok h.grants
  have hdecodes := decodes_of_ok h.decodes
  obtain ⟨n, hpos, hn⟩ := amount_of_not_floored hstages.unfloored
  have hamount : opts.amount = .fin (n : ℚ) := hn
  have hnum : opts.amount ≠ .nan := by rw [hamount]; simp
  have hcaps := hstages.within
  rw [overCap_iff, ExceedsCaps, not_or, amount_under_decoded hcurrency] at hcaps
  have hcompared := hgoverns.compared
  have hkept := hgoverns.kept
  simp only [keptBounds, List.mem_append] at hkept
  rcases hkept with hbound | hbound | hbound | hbound
  · obtain ⟨unix, ⟨after, rfl⟩ | ⟨rfl, hunix⟩⟩ := kept_timestamp hdecodes hbound
    · exact hcompared.elim
    · obtain ⟨t, ht, hnow⟩ := hcompared
      rw [hunix] at hexpires
      have hlt : strLt ctx.now mandate.expiresAt = true := by
        unfold isLiveMandate at hlive
        rw [Bool.and_eq_true] at hlive
        exact hlive.2
      rw [hnow] at hlt
      show Date.getTime ctx.now < _
      rw [hnow]
      exact getTime_lt_of_live ht hexpires hlt
  · obtain ⟨allowance, rfl, hcap⟩ := kept_transfer hdecodes hbound
    have hround : ofBigInt allowance ≤ (allowance : JsNumber) := hcompared
    rw [hperTx, hcap, Option.getD_some] at hcaps
    have hcapnum := (JsNumber.le_iff_not_lt.1 hround).2.1
    exact JsNumber.le_trans ((JsNumber.not_lt_iff_le hnum hcapnum).1 hcaps.1) hround
  · obtain ⟨amount, rfl, hcap⟩ := kept_period hdecodes hbound
    obtain ⟨hround, hspent⟩ := hcompared
    have hspend : ctx.periodSpendByMandate (decodedMandateId delegation opts) = .ok spend := by
      rw [← hid]
      exact hstages.spend
    have hsum : spentTotal spend + opts.amount ≠ .nan := by
      have hnot := hspent spend hspend
      rw [hamount]
      cases hs : spentTotal spend with
      | nan => exact absurd hs hnot
      | fin q => simp
      | posInf => exact fun h => by cases h
      | negInf => exact fun h => by cases h
    rw [hperPeriod, hcap, Option.getD_some] at hcaps
    have hcapnum := (JsNumber.le_iff_not_lt.1 hround).2.1
    exact ⟨spend, hspend,
      JsNumber.le_trans ((JsNumber.not_lt_iff_le hsum hcapnum).1 hcaps.2) hround⟩
  · obtain ⟨allowed, rfl, hallow⟩ := kept_targets hdecodes hbound
    refine ⟨target, h.normalizes, ?_⟩
    have hscopeCovers : scopeCovers mandate.scope
        (redemptionIntent delegation opts caps target ctx.now) = true := by
      unfold covers at hcovers
      rw [Bool.and_eq_true, Bool.and_eq_true] at hcovers
      exact hcovers.1.2
    rw [hscope, hallow] at hscopeCovers
    have hpayee : (redemptionIntent delegation opts caps target ctx.now).payee = target := by
      simp only [redemptionIntent, hallow, Option.isSome_some, if_true]
      exact (isAddress_of_normalize h.normalizes).toLowerCase
    simp only [decodedScope, scopeCovers, hpayee] at hscopeCovers
    simpa using hscopeCovers

/-! ## The claim about a redemption -/

namespace Sample

def enforcers : EnforcerAddresses where
  timestamp := address '1'
  nativeTokenTransferAmount := some (address '2')
  erc20TransferAmount := none
  erc20PeriodTransfer := none
  nativeTokenPeriodTransfer := none
  allowedTargets := none

/-- The caveat of a native allowance below 256. -/
def allowanceCaveat (allowance : UInt8) : Caveat where
  enforcer := address '2'
  terms := bytesToHex (List.replicate 31 0 ++ [allowance])
  args := emptyArgs

/-- An allowance of 100, then one of 200. -/
def twoAllowances : Delegation where
  delegate := address 'a'
  delegator := address 'b'
  authority := rootAuthority
  caveats := [allowanceCaveat 100, allowanceCaveat 200]
  salt := 1
  signature := "0x"

def redemption : DelegationRedemptionOpts where
  target := address 'c'
  amount := 150
  currency := "USDC"
  rail := none
  rationale := "weekly grocery run"
  payeeClass := none
  intentId := none
  enforcers := enforcers
  mandateId := none
  mandateLabel := none

def knownTarget : GateContext where
  now := "2026-01-08T00:00:00.000Z"
  mandates := []
  periodSpendByMandate _ := .ok []
  knownPayees := setOf [address 'c']
  trustOf := none
  convert := none
  attestation := none
  reputationOf := none
  denyRules := []
  config := defaultGateConfig
  reversibility := none

end Sample

end AgentWorth.Erc7710
