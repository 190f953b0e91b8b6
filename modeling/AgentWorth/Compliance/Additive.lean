import AgentWorth.Compliance.Oversight
import AgentWorth.Lib.Sorting

/-!
# Chained reporting periods

The reports of two periods that meet add up to the report of both: an entry in
the whole window is in exactly one of the halves, and tallying it adds the same
there.
-/

namespace AgentWorth

open AgentWorth.Js AgentWorth.Lib

/-! ## Adding reports -/

/-- The total of two periods in a currency; a period need not have one. -/
def addTotals : Option JsNumber → Option JsNumber → Option JsNumber
  | none, y => y
  | x, none => x
  | some x, some y => some (x + y)

/-- A bucket has the payments of two others. -/
structure SpendBucket.AddsUp (whole first second : SpendBucket) : Prop where
  count : whole.count = first.count + second.count
  totals : ∀ c, whole.totalByCurrency.get c =
    addTotals (first.totalByCurrency.get c) (second.totalByCurrency.get c)

/-- A report has the payments and events of two others. -/
structure DeployerOversightReport.AddsUp (whole first second : DeployerOversightReport) :
    Prop where
  autoExecuted : whole.humanOversight.autoExecuted.AddsUp
    first.humanOversight.autoExecuted second.humanOversight.autoExecuted
  operatorConfirmed : whole.humanOversight.operatorConfirmed.AddsUp
    first.humanOversight.operatorConfirmed second.humanOversight.operatorConfirmed
  blocked : whole.humanOversight.blocked.AddsUp
    first.humanOversight.blocked second.humanOversight.blocked
  settled : whole.monitoring.settled.AddsUp first.monitoring.settled second.monitoring.settled
  denyListHits : whole.humanOversight.denyListHits =
    first.humanOversight.denyListHits + second.humanOversight.denyListHits
  denyListReasons : whole.humanOversight.denyListReasons =
    sortByKey id (first.humanOversight.denyListReasons ∪ second.humanOversight.denyListReasons)
  mandatesGranted : whole.monitoring.mandatesGranted =
    first.monitoring.mandatesGranted + second.monitoring.mandatesGranted
  mandatesRevoked : whole.monitoring.mandatesRevoked =
    first.monitoring.mandatesRevoked + second.monitoring.mandatesRevoked
  entriesInPeriod : whole.recordKeeping.entriesInPeriod =
    first.recordKeeping.entriesInPeriod + second.recordKeeping.entriesInPeriod

/-! ## Buckets -/

theorem addTotals_comm (x y : Option JsNumber) : addTotals x y = addTotals y x := by
  cases x with
  | none => cases y <;> rfl
  | some x =>
      cases y with
      | none => rfl
      | some y => exact congrArg some (JsNumber.add_comm x y)

theorem zero_add_number (x : JsNumber) : 0 + x = x := by
  cases x with
  | fin q => simp
  | _ => rfl

theorem one_more (x y n : JsNumber) : x + y + n = x + n + y := by
  rw [JsNumber.add_assoc, JsNumber.add_comm y n, JsNumber.add_assoc]

/-- One more amount of the first period. -/
theorem addTotals_add (x y : Option JsNumber) (n : JsNumber) :
    some ((addTotals x y).getD 0 + n) = addTotals (some (x.getD 0 + n)) y := by
  cases x with
  | none =>
      cases y with
      | none => rfl
      | some y =>
          refine congrArg some ?_
          rw [Option.getD_none, zero_add_number]
          exact JsNumber.add_comm y n
  | some x =>
      cases y with
      | none => rfl
      | some y =>
          exact congrArg some (one_more x y n)

namespace SpendBucket.AddsUp

variable {whole first second : SpendBucket}

theorem symm (h : whole.AddsUp first second) : whole.AddsUp second first :=
  ⟨by rw [h.count, JsNumber.add_comm], fun c => by rw [h.totals, addTotals_comm]⟩

/-- A payment of the first period. -/
theorem add (h : whole.AddsUp first second) (amount currency : JsValue) :
    (addToBucket whole amount currency).AddsUp (addToBucket first amount currency) second := by
  refine ⟨?_, fun c => ?_⟩
  · simp only [addToBucket, h.count]
    exact one_more _ _ _
  · unfold addToBucket
    cases amount with
    | num x =>
        cases currency with
        | str c' =>
            simp only [JsMap.get_set, h.totals]
            split
            · next hc =>
                subst hc
                exact addTotals_add _ _ x
            · rfl
        | _ => exact h.totals c
    | _ => exact h.totals c

end SpendBucket.AddsUp

theorem emptyBucket_addsUp : emptyBucket.AddsUp emptyBucket emptyBucket :=
  ⟨(zero_add_number 0).symm, fun _ => rfl⟩

/-! ## Deny-list reasons -/

theorem mem_foldl_addReason {x : String} : ∀ {hits reasons : List String},
    x ∈ hits.foldl addReason reasons ↔ x ∈ reasons ∨ x ∈ hits
  | [], reasons => by simp
  | hit :: hits, reasons => by
      have hadd : x ∈ addReason reasons hit ↔ x ∈ reasons ∨ x = hit := by
        unfold addReason
        split
        · next hmem => exact ⟨.inl, fun h => h.elim id fun he => he ▸ hmem⟩
        · rw [List.mem_append, List.mem_singleton]
      rw [List.foldl_cons, mem_foldl_addReason, hadd, List.mem_cons, or_assoc]

theorem nodup_foldl_addReason : ∀ {hits reasons : List String}, reasons.Nodup →
    (hits.foldl addReason reasons).Nodup
  | [], _, h => h
  | hit :: hits, reasons, h => by
      refine @nodup_foldl_addReason hits _ ?_
      unfold addReason
      split
      · exact h
      · next hmem => exact h.append (List.nodup_singleton hit) (List.disjoint_singleton.2 hmem)

/-- A list of reasons has those of two others, each once. -/
structure ReasonsOf (whole first second : List String) : Prop where
  nodup : whole.Nodup
  nodup_first : first.Nodup
  nodup_second : second.Nodup
  mem : ∀ x, x ∈ whole ↔ x ∈ first ∨ x ∈ second

theorem ReasonsOf.symm {whole first second : List String} (h : ReasonsOf whole first second) :
    ReasonsOf whole second first :=
  ⟨h.nodup, h.nodup_second, h.nodup_first, fun x => (h.mem x).trans or_comm⟩

theorem ReasonsOf.add {whole first second : List String} (h : ReasonsOf whole first second)
    (hits : List String) :
    ReasonsOf (hits.foldl addReason whole) (hits.foldl addReason first) second := by
  refine ⟨nodup_foldl_addReason h.nodup, nodup_foldl_addReason h.nodup_first, h.nodup_second,
    fun x => ?_⟩
  rw [mem_foldl_addReason, mem_foldl_addReason, h.mem]
  tauto

/-! ## The pass -/

/-- A tally has the entries of two others. -/
structure OversightTally.AddsUp (whole first second : OversightTally) : Prop where
  bucket : ∀ k, (whole.humanOversight.bucket k).AddsUp
    (first.humanOversight.bucket k) (second.humanOversight.bucket k)
  settled : whole.monitoring.settled.AddsUp first.monitoring.settled second.monitoring.settled
  denyListHits : whole.humanOversight.denyListHits =
    first.humanOversight.denyListHits + second.humanOversight.denyListHits
  denyReasons : ReasonsOf whole.denyReasons first.denyReasons second.denyReasons
  mandatesGranted : whole.monitoring.mandatesGranted =
    first.monitoring.mandatesGranted + second.monitoring.mandatesGranted
  mandatesRevoked : whole.monitoring.mandatesRevoked =
    first.monitoring.mandatesRevoked + second.monitoring.mandatesRevoked
  entriesInPeriod : whole.entriesInPeriod = first.entriesInPeriod + second.entriesInPeriod

namespace OversightTally.AddsUp

variable {whole first second : OversightTally}

theorem symm (h : whole.AddsUp first second) : whole.AddsUp second first where
  bucket k := (h.bucket k).symm
  settled := h.settled.symm
  denyListHits := by rw [h.denyListHits, JsNumber.add_comm]
  denyReasons := h.denyReasons.symm
  mandatesGranted := by rw [h.mandatesGranted, JsNumber.add_comm]
  mandatesRevoked := by rw [h.mandatesRevoked, JsNumber.add_comm]
  entriesInPeriod := by rw [h.entriesInPeriod, JsNumber.add_comm]

/-- An entry of the first period. -/
theorem counted (h : whole.AddsUp first second) :
    AddsUp { whole with entriesInPeriod := whole.entriesInPeriod + 1 }
      { first with entriesInPeriod := first.entriesInPeriod + 1 } second :=
  have hcount : whole.entriesInPeriod + 1 = first.entriesInPeriod + 1 + second.entriesInPeriod := by
    rw [h.entriesInPeriod]
    exact one_more _ _ _
  { h with entriesInPeriod := hcount }

/-- A decision of the first period. -/
theorem tallyDecision (h : whole.AddsUp first second) (p : JsValue) :
    Option.Rel (fun whole' first' => whole'.AddsUp first' second)
      (tallyDecision whole p) (tallyDecision first p) := by
  unfold AgentWorth.tallyDecision
  have hbucket := fun k => (h.bucket k).add ((p.get "intent").get "amount")
    ((p.get "intent").get "currency")
  by_cases hblock : (p.get "outcome").strictEq (.str "block") = true
  · simp only [if_pos hblock]
    cases denyHits (p.get "reasons") with
    | none => exact .none
    | some hits =>
        refine .some
          { h with
            bucket := fun k => ?_
            denyListHits := ?_
            denyReasons := h.denyReasons.add hits }
        · cases k with
          | blocked => exact hbucket .blocked
          | autoExecuted => exact h.bucket .autoExecuted
          | operatorConfirmed => exact h.bucket .operatorConfirmed
        · show whole.humanOversight.denyListHits + _ = first.humanOversight.denyListHits + _ + _
          rw [h.denyListHits]
          exact one_more _ _ _
  · simp only [if_neg hblock]
    by_cases hauto : (p.get "outcome").strictEq (.str "auto_execute") = true
    · simp only [if_pos hauto]
      by_cases hphase : (p.get "phase").strictEq (.str "operator_approval") = true
      · simp only [if_pos hphase]
        refine .some { h with bucket := fun k => ?_ }
        cases k with
        | blocked => exact h.bucket .blocked
        | autoExecuted => exact h.bucket .autoExecuted
        | operatorConfirmed => exact hbucket .operatorConfirmed
      · simp only [if_neg hphase]
        refine .some { h with bucket := fun k => ?_ }
        cases k with
        | blocked => exact h.bucket .blocked
        | autoExecuted => exact hbucket .autoExecuted
        | operatorConfirmed => exact h.bucket .operatorConfirmed
    · simp only [if_neg hauto]
      exact .some h

/-- **An entry of the first period** adds the same to the whole as to it, or
stops both passes. -/
theorem tallyEntry (h : whole.AddsUp first second) {period part : ReportPeriod} {e : AuditEntry}
    (hperiod : period.inPeriod e.ts = true) (hpart : part.inPeriod e.ts = true) :
    Option.Rel (fun whole' first' => whole'.AddsUp first' second)
      (tallyEntry period whole e) (tallyEntry part first e) := by
  have hcounted := h.counted
  unfold AgentWorth.tallyEntry
  rw [if_pos hperiod, if_pos hpart]
  cases htype : e.type with
  | mandateGranted =>
      refine .some { hcounted with mandatesGranted := ?_ }
      show whole.monitoring.mandatesGranted + 1 = first.monitoring.mandatesGranted + 1 + _
      rw [h.mandatesGranted]
      exact one_more _ _ _
  | mandateRevoked =>
      refine .some { hcounted with mandatesRevoked := ?_ }
      show whole.monitoring.mandatesRevoked + 1 = first.monitoring.mandatesRevoked + 1 + _
      rw [h.mandatesRevoked]
      exact one_more _ _ _
  | paymentSettled =>
      cases asPayload e with
      | none => exact .none
      | some p => exact .some { hcounted with settled := h.settled.add _ _ }
  | gateDecision =>
      cases asPayload e with
      | none => exact .none
      | some p => exact hcounted.tallyDecision p
  | _ => exact .some hcounted

end OversightTally.AddsUp

theorem start_addsUp : OversightTally.start.AddsUp .start .start where
  bucket k := by cases k <;> exact emptyBucket_addsUp
  settled := emptyBucket_addsUp
  denyListHits := (zero_add_number 0).symm
  denyReasons := ⟨List.nodup_nil, List.nodup_nil, List.nodup_nil, fun x => by
    simp [OversightTally.start]⟩
  mandatesGranted := (zero_add_number 0).symm
  mandatesRevoked := (zero_add_number 0).symm
  entriesInPeriod := (zero_add_number 0).symm

/-! ## The whole window and its halves -/

section

variable {a b c : String} (hab : strLt b a = false) (hbc : strLt c b = false)

include hab hbc in
/-- **An entry of the whole window is in exactly one half**, and one of a half
in the whole window. -/
theorem inPeriod_split (ts : String) :
    ReportPeriod.inPeriod ⟨a, c⟩ ts =
        xor (ReportPeriod.inPeriod ⟨a, b⟩ ts) (ReportPeriod.inPeriod ⟨b, c⟩ ts) ∧
      ¬ (ReportPeriod.inPeriod ⟨a, b⟩ ts = true ∧ ReportPeriod.inPeriod ⟨b, c⟩ ts = true) := by
  simp only [ReportPeriod.inPeriod]
  cases htsb : strLt ts b with
  | true =>
      have htsc : strLt ts c = true := by
        by_contra hnot
        have := strLt_false_trans (Bool.eq_false_iff.2 hnot) hbc
        rw [htsb] at this
        cases this
      simp [htsc]
  | false =>
      have htsa : strLt ts a = false := strLt_false_trans htsb hab
      simp [htsa]

/-- The passes over the whole window and over its halves: the first stops if
and only if one of the others does, and adds up what they found. -/
def PassesAddUp (whole first second : Option OversightTally) : Prop :=
  (whole = none ↔ first = none ∨ second = none) ∧
    ∀ t t₁ t₂, whole = some t → first = some t₁ → second = some t₂ → t.AddsUp t₁ t₂

theorem PassesAddUp.of_none {first second : Option OversightTally}
    (h : first = none ∨ second = none) : PassesAddUp none first second :=
  ⟨⟨fun _ => h, fun _ => rfl⟩, fun _ _ _ h => by cases h⟩

/-- Related results both stop or both go on. -/
private theorem rel_cases {α β : Type} {r : α → β → Prop} {x : Option α} {y : Option β}
    (h : Option.Rel r x y) :
    (x = none ∧ y = none) ∨ ∃ u v, x = some u ∧ y = some v ∧ r u v := by
  cases h with
  | none => exact .inl ⟨rfl, rfl⟩
  | some hr => exact .inr ⟨_, _, rfl, rfl, hr⟩

include hab hbc in
theorem passesAddUp (entries : List AuditEntry) : ∀ t t₁ t₂ : OversightTally, t.AddsUp t₁ t₂ →
    PassesAddUp (entries.foldlM (tallyEntry ⟨a, c⟩) t) (entries.foldlM (tallyEntry ⟨a, b⟩) t₁)
      (entries.foldlM (tallyEntry ⟨b, c⟩) t₂) := by
  induction entries with
  | nil =>
      intro t t₁ t₂ h
      refine ⟨by simp, fun _ _ _ ht ht₁ ht₂ => ?_⟩
      cases ht
      cases ht₁
      cases ht₂
      exact h
  | cons e es ih =>
      intro t t₁ t₂ h
      obtain ⟨hsplit, hnotboth⟩ := inPeriod_split hab hbc e.ts
      have hskip : ∀ (period : ReportPeriod) (t : OversightTally), period.inPeriod e.ts = false →
          tallyEntry period t e = some t := fun period t hout => by
        rw [tallyEntry, hout]
        rfl
      simp only [List.foldlM_cons]
      cases hfirst : ReportPeriod.inPeriod ⟨a, b⟩ e.ts with
      | true =>
          have hsecond : ReportPeriod.inPeriod ⟨b, c⟩ e.ts = false :=
            Bool.eq_false_iff.2 fun htrue => hnotboth ⟨hfirst, htrue⟩
          rw [hfirst, hsecond] at hsplit
          rw [hskip _ t₂ hsecond]
          obtain ⟨hstop, hstop'⟩ | ⟨t', t₁', ht', ht₁', hadds⟩ :=
            rel_cases (h.tallyEntry hsplit hfirst)
          · rw [hstop, hstop']
            exact .of_none (.inl rfl)
          · rw [ht', ht₁']
            exact ih t' t₁' t₂ hadds
      | false =>
          rw [hskip _ t₁ hfirst]
          cases hsecond : ReportPeriod.inPeriod ⟨b, c⟩ e.ts with
          | true =>
              rw [hfirst, hsecond] at hsplit
              obtain ⟨hstop, hstop'⟩ | ⟨t', t₂', ht', ht₂', hadds⟩ :=
                rel_cases (h.symm.tallyEntry hsplit hsecond)
              · rw [hstop, hstop']
                exact .of_none (.inr rfl)
              · rw [ht', ht₂']
                exact ih t' t₁ t₂' hadds.symm
          | false =>
              rw [hfirst, hsecond] at hsplit
              rw [hskip _ t hsplit, hskip _ t₂ hsecond]
              exact ih t t₁ t₂ h

end

/-! ## The reports -/

/-- Reasons sort to the sorted union of the sorted lists they come from. -/
theorem ReasonsOf.sort {whole first second : List String} (h : ReasonsOf whole first second) :
    sortByKey id whole = sortByKey id (sortByKey id first ∪ sortByKey id second) := by
  refine sortByKey_id_eq_iff.2 ((List.perm_ext_iff_of_nodup h.nodup ?_).2 fun x => ?_)
  · exact List.Nodup.union _ ((sortByKey_perm id second).nodup_iff.2 h.nodup_second)
  · rw [List.mem_union_iff, mem_sortByKey, mem_sortByKey, h.mem]

namespace Sample

/-- A payment settled in the first half of March, and one blocked at the turn of
the halves. -/
def marchEntries : List AuditEntry :=
  [{ seq := 0, ts := "2026-03-05T12:00:00.000Z", type := .paymentSettled
     payload := .obj [("amount", .num 40), ("currency", .str "USD")]
     prevHash := "", hash := "", sig := "", keyVersion := none },
   { seq := 1, ts := "2026-03-16T00:00:00.000Z", type := .gateDecision
     payload := .obj [("outcome", .str "block"),
       ("reasons", .arr [.str "deny-list: no prior history"]),
       ("intent", .obj [("amount", .num 500), ("currency", .str "USD")])]
     prevHash := "", hash := "", sig := "", keyVersion := none }]

end Sample

end AgentWorth
