import AgentWorth.Core.Audit
import AgentWorth.Core.Types
import Mathlib.Data.List.Induction

/-!
# The deployer-oversight report

`src/compliance/oversight.ts`: one pass over the signed entries sorts the
decisions of a window by the oversight path they took, and adds up what was
settled.  Every bucket of the report is the fold of the entries of its kind.
-/

namespace AgentWorth

open AgentWorth.Js AgentWorth.Lib

/-- Half-open: the entries at `start` or later and before `endAt`. -/
structure ReportPeriod where
  start : String
  endAt : String
  deriving DecidableEq

/-- A single spend, classified by the human-oversight path it took. -/
inductive SpendDisposition where
  | autoExecuted
  | operatorConfirmed
  | blocked
  deriving DecidableEq, Repr

structure SpendBucket where
  count : JsNumber
  /-- summed minor units, never across currencies -/
  totalByCurrency : JsMap JsNumber
  deriving DecidableEq

structure HumanOversightSection where
  autoExecuted : SpendBucket
  operatorConfirmed : SpendBucket
  blocked : SpendBucket
  denyListHits : JsNumber
  denyListReasons : List String
  deriving DecidableEq

structure MonitoringSection where
  mandatesGranted : JsNumber
  mandatesRevoked : JsNumber
  mandatesActiveAtEnd : JsNumber
  settled : SpendBucket
  deriving DecidableEq

structure RecordKeepingSection where
  totalEntries : JsNumber
  entriesInPeriod : JsNumber
  integrity : VerifyResult
  deriving DecidableEq

structure DeployerOversightReport where
  standard : String
  period : ReportPeriod
  humanOversight : HumanOversightSection
  monitoring : MonitoringSection
  recordKeeping : RecordKeepingSection
  deriving DecidableEq

structure DeployerOversightInput where
  audit : List AuditEntry
  mandates : List Mandate
  integrity : VerifyResult
  period : ReportPeriod

/-- The one value of `standard`. -/
def oversightStandard : String := "EU AI Act Article 26 (deployer obligations)"

/-- `DENY_PREFIX`. -/
def denyPrefix : String := "deny-list:"

def ReportPeriod.inPeriod (period : ReportPeriod) (ts : String) : Bool :=
  !strLt ts period.start && strLt ts period.endAt

def emptyBucket : SpendBucket where
  count := 0
  totalByCurrency := .empty

/-- Only an amount that is a number in a currency that is a string is summed. -/
def addToBucket (bucket : SpendBucket) (amount currency : JsValue) : SpendBucket where
  count := bucket.count + 1
  totalByCurrency :=
    match amount, currency with
    | .num x, .str c => bucket.totalByCurrency.set c ((bucket.totalByCurrency.get c).getD 0 + x)
    | _, _ => bucket.totalByCurrency

/-! ## The pass over the entries -/

/-- The payload, to read properties of: reading one of `null` or `undefined`
throws. -/
def asPayload (entry : AuditEntry) : Option JsValue :=
  match entry.payload with
  | .undefined | .null => none
  | p => some p

/-- What `for (const item of v ?? [])` goes through; `none` when `v` is not
iterable. -/
def iterated : JsValue → Option (List JsValue)
  | .undefined | .null => some []
  | .arr items => some items
  | .str s => some (s.toList.map fun c => .str (String.singleton c))
  | _ => none

/-- The text after the prefix of a deny-list reason, if it is one; only strings
have `startsWith`. -/
def denyReason : JsValue → Option (Option String)
  | .str s =>
      some (if denyPrefix.toList.isPrefixOf s.toList then
        some (trim (String.ofList (s.toList.drop denyPrefix.length))) else none)
  | _ => none

/-- The deny-list reasons of a decision, in order. -/
def denyHits (reasons : JsValue) : Option (List String) := do
  let items ← iterated reasons
  let found ← items.mapM denyReason
  return found.reduceOption

/-- The variables of the pass. -/
structure OversightTally where
  humanOversight : HumanOversightSection
  denyReasons : List String
  monitoring : MonitoringSection
  entriesInPeriod : JsNumber

def OversightTally.start : OversightTally where
  humanOversight :=
    { autoExecuted := emptyBucket
      operatorConfirmed := emptyBucket
      blocked := emptyBucket
      denyListHits := 0
      denyListReasons := [] }
  denyReasons := []
  monitoring :=
    { mandatesGranted := 0
      mandatesRevoked := 0
      mandatesActiveAtEnd := 0
      settled := emptyBucket }
  entriesInPeriod := 0

/-- `set.add(x)`. -/
def addReason (reasons : List String) (x : String) : List String :=
  if x ∈ reasons then reasons else reasons ++ [x]

/-- The `gate.decision` case: a parked spend is skipped. -/
def tallyDecision (t : OversightTally) (p : JsValue) : Option OversightTally :=
  let h := t.humanOversight
  let amount := (p.get "intent").get "amount"
  let currency := (p.get "intent").get "currency"
  if (p.get "outcome").strictEq (.str "block") then
    (denyHits (p.get "reasons")).map fun hits =>
      { t with
        humanOversight :=
          { h with
            blocked := addToBucket h.blocked amount currency
            denyListHits := h.denyListHits + (hits.length : JsNumber) }
        denyReasons := hits.foldl addReason t.denyReasons }
  else if (p.get "outcome").strictEq (.str "auto_execute") then
    some
      { t with
        humanOversight :=
          if (p.get "phase").strictEq (.str "operator_approval") then
            { h with operatorConfirmed := addToBucket h.operatorConfirmed amount currency }
          else { h with autoExecuted := addToBucket h.autoExecuted amount currency } }
  else some t

/-- The body of the loop; `none` when it throws. -/
def tallyEntry (period : ReportPeriod) (t : OversightTally) (entry : AuditEntry) :
    Option OversightTally :=
  if period.inPeriod entry.ts then
    let t := { t with entriesInPeriod := t.entriesInPeriod + 1 }
    match entry.type with
    | .mandateGranted =>
        some { t with monitoring :=
          { t.monitoring with mandatesGranted := t.monitoring.mandatesGranted + 1 } }
    | .mandateRevoked =>
        some { t with monitoring :=
          { t.monitoring with mandatesRevoked := t.monitoring.mandatesRevoked + 1 } }
    | .paymentSettled =>
        (asPayload entry).map fun p =>
          { t with monitoring :=
            { t.monitoring with
              settled := addToBucket t.monitoring.settled (p.get "amount") (p.get "currency") } }
    | .gateDecision => (asPayload entry).bind (tallyDecision t)
    | _ => some t
  else some t

/-- Whether a mandate is active when the period ends. -/
def activeAtEnd (period : ReportPeriod) (m : Mandate) : Bool :=
  m.status == .active && strLt m.grantedAt period.endAt && strLt period.endAt m.expiresAt

def deployerOversightReport (input : DeployerOversightInput) : Option DeployerOversightReport :=
  (input.audit.foldlM (tallyEntry input.period) OversightTally.start).map fun t =>
    { standard := oversightStandard
      period := input.period
      humanOversight := { t.humanOversight with denyListReasons := sortByKey id t.denyReasons }
      monitoring :=
        { t.monitoring with
          mandatesActiveAtEnd := (input.mandates.filter (activeAtEnd input.period)).length }
      recordKeeping :=
        { totalEntries := input.audit.length
          entriesInPeriod := t.entriesInPeriod
          integrity := input.integrity } }

/-! ## Buckets as folds -/

/-- The path a decision took; none for a parked spend. -/
def disposition (p : JsValue) : Option SpendDisposition :=
  if (p.get "outcome").strictEq (.str "block") then some .blocked
  else if (p.get "outcome").strictEq (.str "auto_execute") then
    if (p.get "phase").strictEq (.str "operator_approval") then some .operatorConfirmed
    else some .autoExecuted
  else none

def HumanOversightSection.bucket (h : HumanOversightSection) : SpendDisposition → SpendBucket
  | .autoExecuted => h.autoExecuted
  | .operatorConfirmed => h.operatorConfirmed
  | .blocked => h.blocked

/-- A decision of the window that took the given path. -/
def classified (period : ReportPeriod) (k : SpendDisposition) (e : AuditEntry) : Bool :=
  period.inPeriod e.ts && e.type == .gateDecision && disposition e.payload == some k

/-- The spend of a decision, as far as its payload carries the intent. -/
def addDecision (bucket : SpendBucket) (e : AuditEntry) : SpendBucket :=
  addToBucket bucket ((e.payload.get "intent").get "amount")
    ((e.payload.get "intent").get "currency")

/-- The bucket of the given decisions. -/
def bucketOf (entries : List AuditEntry) : SpendBucket := entries.foldl addDecision emptyBucket

theorem bucketOf_snoc (entries : List AuditEntry) (e : AuditEntry) :
    bucketOf (entries ++ [e]) = addDecision (bucketOf entries) e := by
  simp [bucketOf]

theorem bucketOf_count (entries : List AuditEntry) :
    (bucketOf entries).count = (entries.length : JsNumber) := by
  induction entries using List.reverseRecOn with
  | nil => rfl
  | append_singleton es e ih =>
      rw [bucketOf_snoc]
      simp [addDecision, addToBucket, ih]

/-- Decisions that carry no intent leave the totals empty. -/
theorem bucketOf_totals {entries : List AuditEntry}
    (h : ∀ e ∈ entries, e.payload.get "intent" = .undefined) :
    (bucketOf entries).totalByCurrency = .empty := by
  induction entries using List.reverseRecOn with
  | nil => rfl
  | append_singleton es e ih =>
      have hold := ih fun e' he' => h e' (List.mem_append_left _ he')
      have hnew := h e (List.mem_append_right _ (List.mem_singleton_self e))
      rw [bucketOf_snoc]
      simp only [addDecision, addToBucket, hnew]
      exact hold

theorem asPayload_eq_some {e : AuditEntry} {p : JsValue} (h : asPayload e = some p) :
    e.payload = p := by
  unfold asPayload at h
  split at h
  · cases h
  · cases h
  · exact Option.some.inj h

/-- One decision moves the bucket of its path and no other. -/
theorem bucket_tallyDecision {t t' : OversightTally} {p : JsValue} (k : SpendDisposition)
    (h : tallyDecision t p = some t') :
    t'.humanOversight.bucket k =
      if disposition p = some k then
        addToBucket (t.humanOversight.bucket k) ((p.get "intent").get "amount")
          ((p.get "intent").get "currency")
      else t.humanOversight.bucket k := by
  unfold tallyDecision at h
  unfold disposition
  by_cases hblock : (p.get "outcome").strictEq (.str "block") = true
  · rw [if_pos hblock] at h ⊢
    obtain ⟨hits, -, rfl⟩ := Option.map_eq_some_iff.1 h
    cases k <;> rfl
  · rw [if_neg hblock] at h ⊢
    by_cases hauto : (p.get "outcome").strictEq (.str "auto_execute") = true
    · rw [if_pos hauto] at h ⊢
      cases h
      by_cases hphase : (p.get "phase").strictEq (.str "operator_approval") = true
      · simp only [if_pos hphase]
        cases k <;> rfl
      · simp only [if_neg hphase]
        cases k <;> rfl
    · rw [if_neg hauto] at h ⊢
      cases h
      rfl

/-- **One entry** moves the bucket of its path, if it is a decision of the
window. -/
theorem bucket_tallyEntry {period : ReportPeriod} {t t' : OversightTally} {e : AuditEntry}
    (k : SpendDisposition) (h : tallyEntry period t e = some t') :
    t'.humanOversight.bucket k =
      if classified period k e = true then addDecision (t.humanOversight.bucket k) e
      else t.humanOversight.bucket k := by
  unfold tallyEntry at h
  unfold classified
  by_cases hperiod : period.inPeriod e.ts = true
  · rw [if_pos hperiod] at h
    rw [hperiod, Bool.true_and]
    cases htype : e.type with
    | gateDecision =>
        rw [htype] at h
        obtain ⟨p, hp, hdecision⟩ := Option.bind_eq_some_iff.1 h
        have hbucket := bucket_tallyDecision k hdecision
        rw [← asPayload_eq_some hp] at hbucket
        simpa only [beq_self_eq_true, Bool.true_and, beq_iff_eq, addDecision] using hbucket
    | paymentSettled =>
        rw [htype] at h
        obtain ⟨p, -, rfl⟩ := Option.map_eq_some_iff.1 h
        rfl
    | _ =>
        rw [htype] at h
        cases h
        rfl
  · rw [if_neg hperiod] at h
    cases h
    rw [Bool.eq_false_iff.2 hperiod]
    rfl

theorem bucket_foldlM {period : ReportPeriod} {entries : List AuditEntry}
    {t t' : OversightTally} (k : SpendDisposition)
    (h : entries.foldlM (tallyEntry period) t = some t') :
    t'.humanOversight.bucket k =
      (entries.filter (classified period k)).foldl addDecision (t.humanOversight.bucket k) := by
  induction entries generalizing t with
  | nil =>
      cases h
      rfl
  | cons e es ih =>
      rw [List.foldlM_cons] at h
      obtain ⟨t₁, hentry, hrest⟩ := Option.bind_eq_some_iff.1 h
      rw [ih hrest, bucket_tallyEntry k hentry, List.filter_cons]
      split
      · rw [List.foldl_cons]
      · rfl

/-- **Each bucket of a report is the fold of the decisions of its path** in the
window. -/
theorem bucket_report {input : DeployerOversightInput} {report : DeployerOversightReport}
    (k : SpendDisposition) (h : deployerOversightReport input = some report) :
    report.humanOversight.bucket k =
      bucketOf (input.audit.filter (classified input.period k)) := by
  obtain ⟨t, htally, rfl⟩ := Option.map_eq_some_iff.1 h
  have hbucket := bucket_foldlM k htally
  cases k with
  | autoExecuted => exact hbucket
  | operatorConfirmed => exact hbucket
  | blocked => exact hbucket

/-! ## When the pass returns -/

/-- The payload has the properties the report reads. -/
def Legible (e : AuditEntry) : Prop :=
  (e.type = .paymentSettled ∨ e.type = .gateDecision → e.payload.isObject = true) ∧
    (e.type = .gateDecision → ∃ reasons, e.payload.get "reasons" = .ofStrings reasons)

theorem asPayload_of_isObject {e : AuditEntry} (h : e.payload.isObject = true) :
    asPayload e = some e.payload := by
  unfold asPayload
  cases hp : e.payload with
  | arr items => rfl
  | obj members => rfl
  | _ => simp [hp, JsValue.isObject] at h

theorem denyHits_ofStrings (reasons : List String) :
    ∃ hits, denyHits (.ofStrings reasons) = some hits := by
  have hitems : ∃ found, (reasons.map JsValue.str).mapM denyReason = some found := by
    induction reasons with
    | nil => exact ⟨[], rfl⟩
    | cons r rs ih =>
        obtain ⟨found, hfound⟩ := ih
        refine ⟨(if denyPrefix.toList.isPrefixOf r.toList then
          some (trim (String.ofList (r.toList.drop denyPrefix.length))) else none) :: found, ?_⟩
        simp only [List.map_cons, List.mapM_cons, hfound, denyReason]
        rfl
  obtain ⟨found, hfound⟩ := hitems
  refine ⟨found.reduceOption, ?_⟩
  simp only [denyHits, JsValue.ofStrings, iterated, Option.bind_eq_bind, Option.bind_some, hfound]
  rfl

theorem tallyEntry_of_legible (period : ReportPeriod) (t : OversightTally) {e : AuditEntry}
    (h : Legible e) : ∃ t', tallyEntry period t e = some t' := by
  unfold tallyEntry
  by_cases hperiod : period.inPeriod e.ts = true
  · rw [if_pos hperiod]
    cases htype : e.type with
    | paymentSettled =>
        have hobject := h.1 (Or.inl htype)
        simp only [asPayload_of_isObject hobject, Option.map_some, Option.some.injEq]
        exact ⟨_, rfl⟩
    | gateDecision =>
        have hobject := h.1 (Or.inr htype)
        obtain ⟨reasons, hreasons⟩ := h.2 htype
        obtain ⟨hits, hhits⟩ := denyHits_ofStrings reasons
        simp only [asPayload_of_isObject hobject, Option.bind_some, tallyDecision, hreasons, hhits,
          Option.map_some]
        split
        · exact ⟨_, rfl⟩
        · split
          · exact ⟨_, rfl⟩
          · exact ⟨_, rfl⟩
    | _ => exact ⟨_, rfl⟩
  · rw [if_neg hperiod]
    exact ⟨_, rfl⟩

/-- A report is made of any legible chain. -/
theorem report_of_legible (input : DeployerOversightInput)
    (h : ∀ e ∈ input.audit, Legible e) :
    ∃ report, deployerOversightReport input = some report := by
  have hfold : ∀ (entries : List AuditEntry) (t : OversightTally),
      (∀ e ∈ entries, Legible e) →
        ∃ t', entries.foldlM (tallyEntry input.period) t = some t' := by
    intro entries
    induction entries with
    | nil => exact fun t _ => ⟨t, rfl⟩
    | cons e es ih =>
        intro t hall
        obtain ⟨t₁, hentry⟩ := tallyEntry_of_legible input.period t (hall e (List.mem_cons_self ..))
        obtain ⟨t', hrest⟩ := ih t₁ fun e' he' => hall e' (List.mem_cons_of_mem _ he')
        refine ⟨t', ?_⟩
        rw [List.foldlM_cons, hentry]
        exact hrest
  obtain ⟨t, ht⟩ := hfold input.audit OversightTally.start h
  unfold deployerOversightReport
  rw [ht]
  exact ⟨_, rfl⟩

namespace Sample

def marchReport : ReportPeriod where
  start := "2026-03-01T00:00:00.000Z"
  endAt := "2026-04-01T00:00:00.000Z"

end Sample

end AgentWorth
