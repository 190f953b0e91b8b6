import AgentWorth.Core.DenyList
import AgentWorth.Executor.Deployment
import AgentWorth.Executor.Entries

/-!
# Disclosures

`src/disclosure/builders.ts`: the constitution an agent discloses, with the
hash of the policy its gate is said to run.  The builder is given the store and
the audit log of the executor, but not its configuration nor its deny rules.
-/

namespace AgentWorth

open AgentWorth.Js AgentWorth.Js.Json AgentWorth.Lib

/-! ## The constitution -/

/-- Which policy the gate runs, and the audit head that is anchored to. -/
structure EnforcementBinding where
  policyHash : String
  auditAnchor : String
  deriving DecidableEq

/-- A disclosed rule, always of kind `deny`. -/
structure HardConstraint where
  id : String
  description : String
  deriving DecidableEq

structure Constitution where
  hardConstraints : List HardConstraint
  parameters : GateConfig
  digest : String
  enforced : Bool
  enforcementEvidence : Option String

/-- `POE_EVIDENCE_PREFIX`. -/
def poeEvidencePrefix : String := "agentworth-gate (evaluateGate over structured intent); poe="

def bindingValue (binding : EnforcementBinding) : JsValue :=
  .obj [("policyHash", .str binding.policyHash), ("auditAnchor", .str binding.auditAnchor)]

def encodeEnforcementEvidence (binding : EnforcementBinding) : String :=
  poeEvidencePrefix ++ (stringify 0 (bindingValue binding)).getD "undefined"

/-- The binding of a constitution, as a verifier recovers it. -/
def decodeEnforcementBinding (constitution : Constitution) : Option EnforcementBinding :=
  constitution.enforcementEvidence.bind fun ev =>
    if poeEvidencePrefix.toList.isPrefixOf ev.toList then
      (parse (String.ofList (ev.toList.drop poeEvidencePrefix.toList.length))).bind fun parsed =>
        match parsed.get "policyHash", parsed.get "auditAnchor" with
        | .str policyHash, .str auditAnchor => some { policyHash, auditAnchor }
        | _, _ => none
    else none

def hardConstraint (rule : DenyRule) : HardConstraint where
  id := rule.id
  description := rule.reason

def constraintValue (c : HardConstraint) : JsValue :=
  .obj [("id", .str c.id), ("description", .str c.description), ("kind", .str "deny")]

def parametersValue (config : GateConfig) : JsValue :=
  .obj
    [("minRationaleChars", .num config.minRationaleChars),
      ("velocityWindowMinutes", .num config.velocityWindowMinutes),
      ("velocityMaxCount", .num config.velocityMaxCount),
      ("anomalyMultiple", .num config.anomalyMultiple)]

/-- `buildConstitution`, given what `listMandates` answers. -/
def buildConstitution (crypto : Crypto) (mandates : List Mandate) (auditAnchor : String) :
    Constitution :=
  let hardConstraints := defaultDenyRules.map hardConstraint
  let policyHash := computePolicyHash crypto
    (effectivePolicy mandates defaultGateConfig defaultDenyRules)
  { hardConstraints
    parameters := defaultGateConfig
    digest := crypto.sha256 (crypto.jcs (.obj
      [("hardConstraints", .arr (hardConstraints.map constraintValue)),
        ("parameters", parametersValue defaultGateConfig)]))
    enforced := true
    enforcementEvidence := some (encodeEnforcementEvidence { policyHash, auditAnchor }) }

/-! ## The disclosure -/

/-- The hash of the last entry. -/
def chainAnchor (entries : List AuditEntry) : String :=
  (entries.getLast?.map AuditEntry.hash).getD genesis

/-- The fields of a disclosure that speak of the gate and of the disclosure's
own lifetime. -/
structure AgentDisclosure where
  issuedAt : String
  validUntil : String
  auditAnchor : String
  constitution : Constitution

/-- `buildAgentDisclosure`; the end of validity must be a date. -/
def buildAgentDisclosure (crypto : Crypto) (mandates : List Mandate)
    (entries : List AuditEntry) (now : String) (validityMs : Option JsNumber) :
    Except String AgentDisclosure :=
  (Date.toISOString (Date.getTime now + validityMs.getD 3600000)).map fun validUntil =>
    { issuedAt := now
      validUntil
      auditAnchor := chainAnchor entries
      constitution := buildConstitution crypto mandates (chainAnchor entries) }

/-! ## The binding reads back -/

theorem decode_encodeEnforcementEvidence {constitution : Constitution}
    {binding : EnforcementBinding}
    (h : constitution.enforcementEvidence = some (encodeEnforcementEvidence binding)) :
    decodeEnforcementBinding constitution = some binding := by
  have hwf : (bindingValue binding).WellFormed := by
    simp [bindingValue, JsValue.WellFormed, JsValue.WellFormedMembers]
  have htext : stringify 0 (bindingValue binding) =
      some (String.ofList (render (List.replicate 0 ' ') [] (bindingValue binding))) := rfl
  have hparse := parse_stringify hwf htext
  have hpersisted : (bindingValue binding).persisted = bindingValue binding := by
    simp [bindingValue, JsValue.persisted, JsValue.persistedMembers, isDropped]
  rw [hpersisted] at hparse
  unfold decodeEnforcementBinding
  rw [h, Option.bind_some]
  unfold encodeEnforcementEvidence
  rw [htext, Option.getD_some, String.toList_append, if_pos, List.drop_left,
    String.ofList_toList, hparse]
  · simp [bindingValue]
  · simp

/-! ## Disclosed and enforced -/

section Enforced

variable {σ : Type} {d : ExecutorDeps σ}

/-- The executor runs the configuration and the rules that disclosures state. -/
def RunsDefaults (d : ExecutorDeps σ) : Prop :=
  d.config = defaultGateConfig ∧
    d.denyRules.map hardConstraint = defaultDenyRules.map hardConstraint

/-- A disclosure made in `s` states what the executor enforces: its own rules
and parameters, and the hash stamped on every decision made while the mandates
stay as they are. -/
structure StatesEnforced (d : ExecutorDeps σ) (s : State σ) (disclosure : AgentDisclosure) :
    Prop where
  constraints : disclosure.constitution.hardConstraints = d.denyRules.map hardConstraint
  parameters : disclosure.constitution.parameters = d.config
  stamped : ∀ {steps : List (Step (State σ) Action Event)} {s₁ s₂ : State σ} {a : Action}
    {es : List Event}, (executor d).Run anyStep s steps s₁ →
      d.store.listMandates s₁.world.store = d.store.listMandates s.world.store →
      (executor d).step s₁ a = some (s₂, es) →
      ∀ e ∈ s₂.world.audit.entries.drop s₁.world.audit.entries.length,
        e.type = .gateDecision →
        ∃ binding, decodeEnforcementBinding disclosure.constitution = some binding ∧
          e.payload.get "policyHash" = .str binding.policyHash

theorem constitution_of_built {mandates : List Mandate} {entries : List AuditEntry}
    {now : String} {validityMs : Option JsNumber} {disclosure : AgentDisclosure}
    (h : buildAgentDisclosure d.crypto mandates entries now validityMs = .ok disclosure) :
    disclosure.constitution = buildConstitution d.crypto mandates (chainAnchor entries) := by
  unfold buildAgentDisclosure at h
  cases hdate : Date.toISOString (Date.getTime now + validityMs.getD 3600000) with
  | error e => rw [hdate] at h; cases h
  | ok validUntil => rw [hdate] at h; cases h; rfl

/-- The hash a disclosure embeds is the one of the default configuration. -/
theorem decode_buildConstitution (crypto : Crypto) (mandates : List Mandate)
    (auditAnchor : String) :
    decodeEnforcementBinding (buildConstitution crypto mandates auditAnchor) = some
      { policyHash :=
          computePolicyHash crypto (effectivePolicy mandates defaultGateConfig defaultDenyRules)
        auditAnchor := auditAnchor } :=
  decode_encodeEnforcementEvidence rfl

/-- Only the ids of the rules enter the policy. -/
theorem effectivePolicy_congr {mandates : List Mandate} {config : GateConfig}
    {rules rules' : List DenyRule} (h : rules.map DenyRule.id = rules'.map DenyRule.id) :
    effectivePolicy mandates config rules = effectivePolicy mandates config rules' := by
  simp only [effectivePolicy, h]

theorem RunsDefaults.policyHash (h : RunsDefaults d) (store : σ) :
    policyHash d store = computePolicyHash d.crypto
      (effectivePolicy (d.store.listMandates store) defaultGateConfig defaultDenyRules) := by
  obtain ⟨hconfig, hrules⟩ := h
  have hids : d.denyRules.map DenyRule.id = defaultDenyRules.map DenyRule.id := by
    have := congrArg (List.map HardConstraint.id) hrules
    rwa [List.map_map, List.map_map] at this
  unfold AgentWorth.policyHash
  rw [hconfig, effectivePolicy_congr hids]

/-- **A disclosure states the enforced policy exactly when the executor runs the
defaults**, in every state and whatever the executor does next. -/
theorem disclosure_states_enforced_iff {s : State σ} {now : String}
    {validityMs : Option JsNumber} {disclosure : AgentDisclosure}
    (hbuilt : buildAgentDisclosure d.crypto (d.store.listMandates s.world.store)
      s.world.audit.entries now validityMs = .ok disclosure) :
    StatesEnforced d s disclosure ↔ RunsDefaults d := by
  have hconstitution := constitution_of_built hbuilt
  constructor
  · intro h
    have hconstraints := h.constraints
    have hparameters := h.parameters
    rw [hconstitution] at hconstraints hparameters
    exact ⟨hparameters.symm, hconstraints.symm⟩
  · intro h
    refine ⟨?_, ?_, ?_⟩
    · rw [hconstitution]
      exact h.2.symm
    · rw [hconstitution]
      exact h.1.symm
    · intro steps s₁ s₂ a es _ hmandates htaken e hnew htype
      obtain ⟨added, hentries, hdecided⟩ := gateDecision_of_step htaken
      rw [hentries, List.drop_left] at hnew
      have hhash := (hdecided e hnew htype).policyHash
      rw [h.policyHash, hmandates] at hhash
      refine ⟨{ policyHash := _, auditAnchor := chainAnchor s.world.audit.entries }, ?_, hhash⟩
      rw [hconstitution]
      exact decode_buildConstitution _ _ _

end Enforced

/-! ## A stricter executor -/

namespace Sample

/-- Digests that show what they were given. -/
def plainCrypto : Crypto := { crypto with sha256 := id, jcs := canonicalize }

/-- The sample deployment with the default rules. -/
def defaultDeps : ExecutorDeps Books :=
  { deps with crypto := plainCrypto, denyRules := defaultDenyRules }

/-- A deployment that lets through one payment an hour. -/
def strictDeps : ExecutorDeps Books :=
  { defaultDeps with config := { defaultGateConfig with velocityMaxCount := 1 } }

/-- The disclosure of the sample agent before any call. -/
def disclosure : AgentDisclosure where
  issuedAt := noon
  validUntil := "2026-03-05T13:00:00.000Z"
  auditAnchor := genesis
  constitution := buildConstitution plainCrypto [mandate] genesis

theorem built_disclosure {d : ExecutorDeps Books} (hstore : d.store = memoryStore)
    (hcrypto : d.crypto = plainCrypto) :
    buildAgentDisclosure d.crypto (d.store.listMandates start.world.store)
      start.world.audit.entries noon none = .ok disclosure := by
  have hdate : Date.toISOString (Date.getTime noon + (none : Option JsNumber).getD 3600000) =
      .ok "2026-03-05T13:00:00.000Z" := by decide +kernel
  unfold buildAgentDisclosure
  rw [hdate, hstore, hcrypto]
  rfl

end Sample

/-- A deployment with the defaults states what it enforces. -/
theorem default_disclosure_states_enforced :
    StatesEnforced Sample.defaultDeps Sample.start Sample.disclosure :=
  (disclosure_states_enforced_iff (Sample.built_disclosure rfl rfl)).2 ⟨rfl, rfl⟩

/-- One payment an hour is disclosed as five, and the first decision is stamped
with a hash that the disclosure does not embed. -/
theorem strict_executor_is_misstated :
    buildAgentDisclosure Sample.strictDeps.crypto
      (Sample.strictDeps.store.listMandates Sample.start.world.store)
      Sample.start.world.audit.entries Sample.noon none = .ok Sample.disclosure ∧
    Sample.disclosure.constitution.parameters ≠ Sample.strictDeps.config ∧
    (∃ steps s, (executor Sample.strictDeps).Run anyStep Sample.start steps s ∧
      Sample.strictDeps.store.listMandates s.world.store =
        Sample.strictDeps.store.listMandates Sample.start.world.store ∧
      ∃ e ∈ s.world.audit.entries, e.type = .gateDecision ∧
        ∃ binding, decodeEnforcementBinding Sample.disclosure.constitution = some binding ∧
          e.payload.get "policyHash" ≠ .str binding.policyHash) ∧
    ¬ StatesEnforced Sample.strictDeps Sample.start Sample.disclosure := by
  have hparameters : Sample.disclosure.constitution.parameters ≠ Sample.strictDeps.config := by
    decide
  refine ⟨Sample.built_disclosure rfl rfl, hparameters, ?_, fun h => hparameters h.parameters⟩
  obtain ⟨steps, s, hrun, hfound⟩ := System.exists_run (executor Sample.strictDeps)
    anyStep Sample.start [Sample.pay "a" 40]
    (fun _ s => decide (s.world.store.mandates.values = [Sample.mandate]) &&
      s.world.audit.entries.any fun e => e.type == .gateDecision &&
        !(e.payload.get "policyHash").strictEq (.str (computePolicyHash Sample.plainCrypto
          (effectivePolicy [Sample.mandate] defaultGateConfig defaultDenyRules))))
    (by decide +kernel)
  rw [Bool.and_eq_true, List.any_eq_true] at hfound
  obtain ⟨hmandates, e, he, hstamped⟩ := hfound
  rw [Bool.and_eq_true, beq_iff_eq] at hstamped
  refine ⟨steps, s, hrun, of_decide_eq_true hmandates, e, he, hstamped.1, _,
    decode_buildConstitution _ _ _, ?_⟩
  intro hhash
  have hdiffers := hstamped.2
  rw [Bool.not_eq_true', Bool.eq_false_iff] at hdiffers
  exact hdiffers ((JsValue.strictEq_str _ _).2 hhash)

end AgentWorth
