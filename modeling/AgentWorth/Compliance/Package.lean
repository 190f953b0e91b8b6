import AgentWorth.Audit.Export
import AgentWorth.Compliance.Oversight

/-!
# The compliance package

`src/audit/export.ts`: the chain, the report over it and an integrity proof in
one bundle.  Verification re-checks the chain and the proof, and of the report
only one flag, so a package keeps its verdict under any report with that flag.
-/

namespace AgentWorth

open AgentWorth.Js AgentWorth.Lib

/-- The tip of the chain the report was built over. -/
structure PackageTip where
  seq : JsNumber
  hash : String
  deriving DecidableEq

structure PackageIntegrity where
  verdict : VerifyResult
  tip : Option PackageTip
  entryCount : JsNumber
  deriving DecidableEq

structure CompliancePackage where
  version : JsNumber
  standard : String
  /-- the signed audit chain, serialized -/
  chain : String
  chainFormat : AuditExportFormat
  oversight : DeployerOversightReport
  integrity : PackageIntegrity

/-- The tip of some entries. -/
def tipOf (entries : List AuditEntry) : Option PackageTip :=
  entries.getLast?.map fun e => { seq := e.seq, hash := e.hash }

/-- `exportCompliancePackage`; there is none without a key. -/
def exportCompliancePackage (crypto : Crypto) (entries : List AuditEntry)
    (mandates : List Mandate) (period : ReportPeriod) (operatorKey : String)
    (format : Option AuditExportFormat) : Option CompliancePackage :=
  if operatorKey = "" then none
  else
    let format := format.getD .jsonl
    let verdict := AuditLog.verify crypto ⟨operatorSigner operatorKey, entries⟩
    (deployerOversightReport { audit := entries, mandates, integrity := verdict, period }).map
      fun oversight =>
        { version := 1
          standard := oversightStandard
          chain := exportAuditChain entries format
          chainFormat := format
          oversight := oversight
          integrity :=
            { verdict := verdict
              tip := tipOf entries
              entryCount := entries.length } }

structure CompliancePackageVerification where
  /-- the package is internally consistent and the chain verifies -/
  valid : Bool
  /-- recomputed from the bundled chain and the key -/
  chain : VerifyResult
  /-- why the package was rejected -/
  reasons : List String

/-- `if (failed) reasons.push(reason)`. -/
def reasonIf (failed : Bool) (reason : String) : List String := if failed then [reason] else []

/-- The comparison of the chain's tip with the one of the proof. -/
def tipReasons : Option PackageTip → Option PackageTip → List String
  | some tip, some proofTip =>
      reasonIf (!tip.seq.strictEq proofTip.seq || tip.hash != proofTip.hash)
        "integrity tip does not match the chain tip"
  | none, none => []
  | _, _ => ["integrity tip present/absent mismatch"]

/-- Why a package is rejected, given the verdict on its chain and its entries. -/
def packageReasons (pkg : CompliancePackage) (chain : VerifyResult)
    (entries : List AuditEntry) : List String :=
  reasonIf (!chain.valid) ("chain integrity failed: " ++ chain.reason.getD "unknown") ++
  reasonIf (pkg.integrity.verdict.valid != chain.valid)
    "claimed integrity verdict does not match recomputed chain verdict" ++
  reasonIf (!(entries.length : JsNumber).strictEq pkg.integrity.entryCount)
    ("entry count mismatch: proof claims " ++ toString pkg.integrity.entryCount ++
      ", chain has " ++ toString (entries.length : JsNumber)) ++
  tipReasons (tipOf entries) pkg.integrity.tip ++
  reasonIf (pkg.oversight.recordKeeping.integrity.valid != chain.valid)
    "oversight report integrity verdict does not match the chain"

/-- `verifyCompliancePackage`; it throws where the chain does not parse. -/
def verifyCompliancePackage (crypto : Crypto) (pkg : CompliancePackage) (operatorKey : String) :
    Option CompliancePackageVerification := do
  let chain ← verifyAuditExport crypto pkg.chain operatorKey
  let entries ← parseAuditExport pkg.chain
  let reasons := packageReasons pkg chain entries
  return { valid := reasons.isEmpty, chain, reasons }

/-! ## What verification checks -/

/-- The chain is linked and sealed under the key, and the proof is about it. -/
structure CompliancePackage.ProofHolds (crypto : Crypto) (key : String)
    (pkg : CompliancePackage) (entries : List AuditEntry) : Prop where
  parses : parseAuditExport pkg.chain = some entries
  keyed : key ≠ ""
  linked : LinkedFrom genesis entries
  sealed : ∀ e ∈ entries, Sealed crypto key e
  verdict : pkg.integrity.verdict.valid = true
  entryCount : pkg.integrity.entryCount = (entries.length : JsNumber)
  tip : pkg.integrity.tip = tipOf entries
  /-- no entry is numbered `NaN`, which no JSON text spells -/
  numbered : ∀ tip, tipOf entries = some tip → tip.seq ≠ .nan

theorem reasonIf_eq_nil {failed : Bool} {reason : String} :
    reasonIf failed reason = [] ↔ failed = false := by
  cases failed <;> simp [reasonIf]

theorem strictEq_iff {a b : JsNumber} : a.strictEq b = true ↔ a ≠ .nan ∧ a = b := by
  simp [JsNumber.strictEq]

theorem tipReasons_eq_nil {tip proofTip : Option PackageTip} :
    tipReasons tip proofTip = [] ↔
      proofTip = tip ∧ ∀ t, tip = some t → t.seq ≠ .nan := by
  cases tip with
  | none => cases proofTip <;> simp [tipReasons]
  | some t =>
      cases proofTip with
      | none => simp [tipReasons]
      | some p =>
          obtain ⟨seq, hash⟩ := t
          obtain ⟨seq', hash'⟩ := p
          simp only [tipReasons, reasonIf_eq_nil, Bool.or_eq_false_iff, Bool.not_eq_false',
            strictEq_iff, bne_eq_false_iff_eq, Option.some.injEq, PackageTip.mk.injEq,
            forall_eq']
          constructor
          · rintro ⟨⟨hnan, rfl⟩, rfl⟩
            exact ⟨⟨rfl, rfl⟩, hnan⟩
          · rintro ⟨⟨rfl, rfl⟩, hnan⟩
            exact ⟨⟨hnan, rfl⟩, rfl⟩

theorem length_strictEq {entries : List AuditEntry} {count : JsNumber} :
    (entries.length : JsNumber).strictEq count = true ↔
      count = (entries.length : JsNumber) := by
  rw [strictEq_iff]
  exact ⟨fun h => h.2.symm, fun h => ⟨by simp, h.symm⟩⟩

/-- **What `verifyCompliancePackage` accepts**: a chain and a proof that hold, and
of the report one flag. -/
theorem package_valid_iff {crypto : Crypto} {pkg : CompliancePackage} {key : String} :
    (∃ v, verifyCompliancePackage crypto pkg key = some v ∧ v.valid = true) ↔
      (∃ entries, pkg.ProofHolds crypto key entries) ∧
        pkg.oversight.recordKeeping.integrity.valid = true := by
  unfold verifyCompliancePackage verifyAuditExport
  constructor
  · rintro ⟨v, hv, hvalid⟩
    obtain ⟨chain, hchain, hrest⟩ := Option.bind_eq_some_iff.1 hv
    obtain ⟨entries, hentries, hfin⟩ := Option.bind_eq_some_iff.1 hrest
    obtain ⟨entries', hentries', hverdict⟩ := Option.bind_eq_some_iff.1 hchain
    rw [hentries] at hentries'
    cases hentries'
    split at hverdict
    · cases hverdict
    · next hkey =>
        cases hverdict
        cases hfin
        simp only [List.isEmpty_iff, packageReasons, List.append_eq_nil_iff, reasonIf_eq_nil,
          Bool.not_eq_false', bne_eq_false_iff_eq, length_strictEq, tipReasons_eq_nil] at hvalid
        obtain ⟨⟨⟨⟨hchain, hclaimed⟩, hcount⟩, htip, hnumbered⟩, hflag⟩ := hvalid
        obtain ⟨hlinked, hsealed⟩ := AuditLog.verify_valid_iff.1 hchain
        refine ⟨⟨entries, hentries, hkey, hlinked, ?_, hclaimed.trans hchain, hcount, htip,
          hnumbered⟩, hflag.trans hchain⟩
        intro e he
        obtain ⟨key', hresolved, hseal⟩ := hsealed e he
        cases hresolved
        exact hseal
  · rintro ⟨⟨entries, hproof⟩, hflag⟩
    have hchain : (AuditLog.verify crypto ⟨operatorSigner key, entries⟩).valid = true :=
      AuditLog.verify_valid_iff.2 ⟨hproof.linked, fun e he => ⟨key, rfl, hproof.sealed e he⟩⟩
    have hreasons : packageReasons pkg (AuditLog.verify crypto ⟨operatorSigner key, entries⟩)
        entries = [] := by
      simp only [packageReasons, List.append_eq_nil_iff, reasonIf_eq_nil, Bool.not_eq_false',
        bne_eq_false_iff_eq, length_strictEq, tipReasons_eq_nil]
      exact ⟨⟨⟨⟨hchain, hproof.verdict.trans hchain.symm⟩, hproof.entryCount⟩, hproof.tip,
        hproof.numbered⟩, hflag.trans hchain.symm⟩
    refine ⟨{ valid := true
              chain := AuditLog.verify crypto ⟨operatorSigner key, entries⟩
              reasons := [] }, ?_, rfl⟩
    simp only [hproof.parses, Option.bind_some, if_neg hproof.keyed, Option.bind_eq_bind,
      hreasons]
    rfl

/-! ## Swapped reports -/

/-- The same count, and the same total in every currency. -/
structure SpendBucket.Same (b b' : SpendBucket) : Prop where
  count : b.count = b'.count
  totals : ∀ c, b.totalByCurrency.get c = b'.totalByCurrency.get c

/-- Two reports agree on all that the chain determines. -/
structure SameReport (r r' : DeployerOversightReport) : Prop where
  autoExecuted : r.humanOversight.autoExecuted.Same r'.humanOversight.autoExecuted
  operatorConfirmed :
    r.humanOversight.operatorConfirmed.Same r'.humanOversight.operatorConfirmed
  blocked : r.humanOversight.blocked.Same r'.humanOversight.blocked
  denyListHits : r.humanOversight.denyListHits = r'.humanOversight.denyListHits
  denyListReasons : r.humanOversight.denyListReasons = r'.humanOversight.denyListReasons
  mandatesGranted : r.monitoring.mandatesGranted = r'.monitoring.mandatesGranted
  mandatesRevoked : r.monitoring.mandatesRevoked = r'.monitoring.mandatesRevoked
  settled : r.monitoring.settled.Same r'.monitoring.settled
  recordKeeping : r.recordKeeping = r'.recordKeeping

/-- The bundled report is the one recomputed from the bundled chain. -/
def CompliancePackage.Recomputed (crypto : Crypto) (key : String) (pkg : CompliancePackage) :
    Prop :=
  ∃ entries integrity report, parseAuditExport pkg.chain = some entries ∧
    verifyAuditExport crypto pkg.chain key = some integrity ∧
    deployerOversightReport
      { audit := entries, mandates := [], integrity, period := pkg.oversight.period } =
        some report ∧
    SameReport pkg.oversight report

/-- If the package verifies, its report is the recomputed one. -/
def CompliancePackage.Sound (crypto : Crypto) (key : String) (pkg : CompliancePackage) : Prop :=
  ∀ v, verifyCompliancePackage crypto pkg key = some v → v.valid = true →
    pkg.Recomputed crypto key

section Swapped

variable {crypto : Crypto} {pkg : CompliancePackage} {key : String}

/-- The proof is not about the report. -/
theorem CompliancePackage.ProofHolds.swap {entries : List AuditEntry}
    (h : pkg.ProofHolds crypto key entries) (report : DeployerOversightReport) :
    CompliancePackage.ProofHolds crypto key { pkg with oversight := report } entries :=
  ⟨h.parses, h.keyed, h.linked, h.sealed, h.verdict, h.entryCount, h.tip, h.numbered⟩

theorem CompliancePackage.ProofHolds.of_swap {entries : List AuditEntry}
    {report : DeployerOversightReport}
    (h : CompliancePackage.ProofHolds crypto key { pkg with oversight := report } entries) :
    pkg.ProofHolds crypto key entries :=
  ⟨h.parses, h.keyed, h.linked, h.sealed, h.verdict, h.entryCount, h.tip, h.numbered⟩

theorem sound_iff : pkg.Sound crypto key ↔
    (∀ entries, ¬ pkg.ProofHolds crypto key entries) ∨
      pkg.oversight.recordKeeping.integrity.valid = false ∨ pkg.Recomputed crypto key := by
  constructor
  · intro hsound
    by_cases hproof : ∃ entries, pkg.ProofHolds crypto key entries
    · right
      cases hflag : pkg.oversight.recordKeeping.integrity.valid with
      | false => exact Or.inl rfl
      | true =>
          obtain ⟨v, hv, hvalid⟩ := package_valid_iff.2 ⟨hproof, hflag⟩
          exact Or.inr (hsound v hv hvalid)
    · exact Or.inl fun entries h => hproof ⟨entries, h⟩
  · intro hcond v hv hvalid
    obtain ⟨⟨entries, hproof⟩, hflag⟩ := package_valid_iff.1 ⟨v, hv, hvalid⟩
    rcases hcond with hbad | hinvalid | hrecomputed
    · exact absurd hproof (hbad entries)
    · rw [hflag] at hinvalid
      cases hinvalid
    · exact hrecomputed

theorem report_totalEntries {input : DeployerOversightInput} {report : DeployerOversightReport}
    (h : deployerOversightReport input = some report) :
    report.recordKeeping.totalEntries = (input.audit.length : JsNumber) := by
  obtain ⟨t, -, rfl⟩ := Option.map_eq_some_iff.1 h
  rfl

/-- **Exactly the packages that carry the recomputed report, or fail for another
reason, are sound**; and every package whose proof holds carries, under the same
proof, a report that is not. -/
theorem package_sound_iff (crypto : Crypto) (pkg : CompliancePackage) (key : String) :
    (pkg.Sound crypto key ↔
      (∀ entries, ¬ pkg.ProofHolds crypto key entries) ∨
        pkg.oversight.recordKeeping.integrity.valid = false ∨ pkg.Recomputed crypto key) ∧
    ((∀ report, CompliancePackage.Sound crypto key { pkg with oversight := report }) ↔
      ∀ entries, ¬ pkg.ProofHolds crypto key entries) := by
  refine ⟨sound_iff, ?_, ?_⟩
  · intro hsound entries hproof
    have hswapped := sound_iff.1 (hsound
      { pkg.oversight with
        recordKeeping := { totalEntries := .nan, entriesInPeriod := 0, integrity := .intact } })
    rcases hswapped with hbad | hinvalid | hrecomputed
    · exact hbad entries (hproof.swap _)
    · cases hinvalid
    · obtain ⟨entries', integrity, report, -, -, hreport, hsame⟩ := hrecomputed
      have htotal := congrArg RecordKeepingSection.totalEntries hsame.recordKeeping
      rw [report_totalEntries hreport] at htotal
      cases htotal
  · exact fun hbad report => sound_iff.2 (Or.inl fun entries h => hbad entries h.of_swap)

end Swapped

/-! ## Exported packages -/

theorem tipOf_persisted (entries : List AuditEntry) :
    tipOf (entries.map AuditEntry.persisted) = tipOf entries := by
  unfold tipOf
  rw [List.getLast?_map, Option.map_map]
  rfl

/-- Only a missing key or an illegible chain keep a package from being exported. -/
theorem export_total (crypto : Crypto) {entries : List AuditEntry} (mandates : List Mandate)
    (period : ReportPeriod) {key : String} (format : Option AuditExportFormat) (hkey : key ≠ "")
    (hlegible : ∀ e ∈ entries, Legible e) :
    ∃ pkg, exportCompliancePackage crypto entries mandates period key format = some pkg := by
  obtain ⟨report, hreport⟩ := report_of_legible
    { audit := entries
      mandates := mandates
      integrity := AuditLog.verify crypto ⟨operatorSigner key, entries⟩
      period := period } hlegible
  unfold exportCompliancePackage
  rw [if_neg hkey]
  exact ⟨_, Option.map_eq_some_iff.2 ⟨report, hreport, rfl⟩⟩

theorem export_period {crypto : Crypto} {key : String} {entries : List AuditEntry}
    {mandates : List Mandate} {period : ReportPeriod} {format : Option AuditExportFormat}
    {pkg : CompliancePackage}
    (h : exportCompliancePackage crypto entries mandates period key format = some pkg) :
    pkg.oversight.period = period := by
  unfold exportCompliancePackage at h
  split at h
  · cases h
  · obtain ⟨oversight, hreport, rfl⟩ := Option.map_eq_some_iff.1 h
    obtain ⟨t, -, rfl⟩ := Option.map_eq_some_iff.1 hreport
    rfl

/-- **The proof of an exported package holds.** -/
theorem exported_proofHolds {crypto : Crypto} {key : String} {entries : List AuditEntry}
    {mandates : List Mandate} {period : ReportPeriod} {format : Option AuditExportFormat}
    {pkg : CompliancePackage} (hgenuine : Genuine crypto (operatorSigner key) entries)
    (hplain : ∀ e ∈ entries, PlainObject e.payload)
    (h : exportCompliancePackage crypto entries mandates period key format = some pkg) :
    pkg.ProofHolds crypto key (entries.map AuditEntry.persisted) ∧
      pkg.oversight.recordKeeping.integrity.valid = true := by
  have hvalid : (AuditLog.verify crypto ⟨operatorSigner key, entries⟩).valid = true :=
    AuditLog.verify_valid_iff.2 ⟨hgenuine.linked, fun e he => ⟨key, rfl, hgenuine.sealed e he⟩⟩
  have hpersisted : (AuditLog.verify crypto
      ⟨operatorSigner key, entries.map AuditEntry.persisted⟩).valid = true := by
    rw [verify_persisted hgenuine.linked hgenuine.sealed]
    rfl
  obtain ⟨hlinked, hsealed⟩ := AuditLog.verify_valid_iff.1 hpersisted
  unfold exportCompliancePackage at h
  split at h
  · cases h
  · next hkey =>
      obtain ⟨oversight, hreport, rfl⟩ := Option.map_eq_some_iff.1 h
      obtain ⟨t, -, rfl⟩ := Option.map_eq_some_iff.1 hreport
      refine ⟨⟨?_, hkey, hlinked, ?_, hvalid, by simp, (tipOf_persisted entries).symm, ?_⟩, hvalid⟩
      · exact parse_exportAuditChain
          (fun e he => ⟨(hplain e he).2, hgenuine.numbered e he⟩) _
      · intro e he
        obtain ⟨key', hresolved, hseal⟩ := hsealed e he
        cases hresolved
        exact hseal
      · intro tip htip
        rw [tipOf_persisted] at htip
        obtain ⟨e, he, rfl⟩ := Option.map_eq_some_iff.1 htip
        obtain ⟨n, hn⟩ := hgenuine.numbered e (List.mem_of_getLast? he)
        simp [hn]

namespace Sample

/-- A payment to a listed payee, refused. -/
def blockedEntry : AuditEntry :=
  AuditLog.nextEntry quoteCrypto ⟨operatorSigner "key", []⟩ ⟨"key", none⟩ .gateDecision
    (.obj
      [("intentId", .str "a"), ("phase", .str "agent"), ("outcome", .str "block"),
        ("reasons", .ofStrings ["deny-list: payee is on the block list"]),
        ("intent", .obj [("amount", .num 500), ("currency", .str "USD")])])
    "2026-03-05T12:00:00.000Z"

theorem genuine_blockedEntry : Genuine quoteCrypto (operatorSigner "key") [blockedEntry] :=
  Genuine.empty.next rfl .gateDecision _ "2026-03-05T12:00:00.000Z"

theorem plainObject_blockedEntry : ∀ e ∈ [blockedEntry], PlainObject e.payload := by
  intro e he
  rw [List.mem_singleton.1 he]
  refine ⟨⟨_, rfl⟩, ?_⟩
  simp [blockedEntry, AuditLog.nextEntry, JsValue.ofStrings, JsValue.WellFormed,
    JsValue.WellFormedMembers, JsValue.WellFormedItems]

/-- Nothing was blocked, says the report. -/
def whitewash (report : DeployerOversightReport) : DeployerOversightReport :=
  { report with
    humanOversight :=
      { report.humanOversight with
        blocked := emptyBucket
        denyListHits := 0
        denyListReasons := [] } }

end Sample

/-- The exported package of that chain, with the refusal struck from its report,
verifies. -/
theorem whitewashed_package_verifies : ∃ pkg v,
    (exportCompliancePackage Sample.quoteCrypto [Sample.blockedEntry] [] Sample.marchReport "key"
      none).map (fun p => { p with oversight := Sample.whitewash p.oversight }) = some pkg ∧
    verifyCompliancePackage Sample.quoteCrypto pkg "key" = some v ∧ v.valid = true ∧
    ¬ pkg.Recomputed Sample.quoteCrypto "key" ∧ ¬ pkg.Sound Sample.quoteCrypto "key" := by
  have hlegible : ∀ e ∈ [Sample.blockedEntry], Legible e := by
    intro e he
    rw [List.mem_singleton.1 he]
    exact ⟨fun _ => rfl, fun _ => ⟨["deny-list: payee is on the block list"], rfl⟩⟩
  obtain ⟨pkg, hpkg⟩ := export_total Sample.quoteCrypto [] Sample.marchReport none
    (show "key" ≠ "" by decide) hlegible
  obtain ⟨hproof, hflag⟩ := exported_proofHolds Sample.genuine_blockedEntry
    Sample.plainObject_blockedEntry hpkg
  obtain ⟨v, hv, hvalid⟩ := package_valid_iff.2
    ⟨⟨_, hproof.swap (Sample.whitewash pkg.oversight)⟩, hflag⟩
  have hstale : ¬ CompliancePackage.Recomputed Sample.quoteCrypto "key"
      { pkg with oversight := Sample.whitewash pkg.oversight } := by
    rintro ⟨entries, integrity, report, hentries, -, hreport, hsame⟩
    have hparses := hproof.parses
    rw [hentries] at hparses
    cases hparses
    have hbucket := bucket_report .blocked hreport
    have hcount := hsame.blocked.count
    simp only [HumanOversightSection.bucket] at hbucket
    rw [hbucket, bucketOf_count] at hcount
    have hone : ([Sample.blockedEntry].map AuditEntry.persisted).filter
        (classified Sample.marchReport .blocked) =
          [Sample.blockedEntry].map AuditEntry.persisted := by
      rw [List.filter_eq_self]
      intro e he
      rw [List.mem_singleton.1 he]
      decide +kernel
    have hperiod : (Sample.whitewash pkg.oversight).period = Sample.marchReport :=
      export_period hpkg
    rw [hperiod, hone] at hcount
    exact absurd (show (0 : JsNumber) = (1 : Nat) from hcount) (by decide)
  exact ⟨_, v, by rw [hpkg]; rfl, hv, hvalid, hstale, fun hsound => hstale (hsound v hv hvalid)⟩

end AgentWorth
