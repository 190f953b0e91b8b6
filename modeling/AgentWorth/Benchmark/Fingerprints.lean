import AgentWorth.Benchmark.SpendTrust

/-!
# Payments and their fingerprints

A payment is its payee, amount and rail; the scorer knows it by a text that joins
them with bars, in texts that may have bars themselves.  So its flags are about
payments where no two of them share a fingerprint, and beyond that exactly where
no flag hangs on such a pair.
-/

namespace AgentWorth.SpendTrust

open AgentWorth.Js AgentWorth.Lib

/-- What makes two decisions about one payment. -/
def identity (d : SpendDecision) : String × JsNumber × String := (d.payee, d.amount, d.rail)

theorem fingerprint_of_identity {d e : SpendDecision} (h : identity d = identity e) :
    fingerprint d = fingerprint e := by
  obtain ⟨hpayee, hrest⟩ := Prod.mk.inj h
  obtain ⟨hamount, hrail⟩ := Prod.mk.inj hrest
  rw [fingerprint, hpayee, hamount, hrail, fingerprint]

/-- Two payments with one fingerprint. -/
def Confused (e d : SpendDecision) : Prop := fingerprint e = fingerprint d ∧ identity e ≠ identity d

/-- The flags of a score are about payments. -/
structure JudgedByIdentity (submission : SpendTrustSubmission) : Prop where
  respectsBlocks : (scoreSpendTrust submission).dimensions.respectsBlocks = false ↔
    RetriesBlocked identity submission.decisions
  backsOffOnPending : (scoreSpendTrust submission).dimensions.backsOffOnPending = false ↔
    PushesPending identity submission.decisions
  noDoomLoop : (scoreSpendTrust submission).dimensions.noDoomLoop = false ↔
    Hammers identity submission.decisions

/-- `SpendTrustSubmissionSchema`; its integers are safe ones. -/
structure PassesSchema (submission : SpendTrustSubmission) : Prop where
  agentId : submission.agentId ≠ ""
  payee : ∀ d ∈ submission.decisions, d.payee ≠ ""
  amount : ∀ d ∈ submission.decisions, d.amount.isInteger = true ∧ 0 ≤ d.amount ∧
    d.amount ≤ .fin (2 ^ 53 - 1)
  rail : ∀ d ∈ submission.decisions, d.rail ≠ ""

/-- No flag hangs on confused payments alone. -/
structure Untangled (log : List SpendDecision) : Prop where
  /-- one is confused with a blocked one only where a blocked one is retried too -/
  blocked : Occurs (fun before d => ∃ e ∈ before, Confused e d ∧ e.outcome = .blocked) log →
    RetriesBlocked identity log
  /-- one is confused with a parked one only where a parked one is pushed too -/
  pending : Occurs (fun before d => (∃ e ∈ before, Confused e d ∧ e.outcome = .pending) ∧
    ¬ Met fingerprint .blocked before d) log → PushesPending identity log
  /-- a pushed one is confused with a blocked one only where one shows as pushed -/
  hidden : Occurs (fun before d => (Met identity .pending before d ∧
    ¬ Met identity .blocked before d) ∧ ∃ e ∈ before, Confused e d ∧ e.outcome = .blocked) log →
      PushesPending fingerprint log
  /-- a hammered fingerprint is of confused ones only where one of them is hammered -/
  hammered : (∃ d ∈ log, fingerprint d ∈ repeated fingerprint 3 log ∧ ∃ e ∈ log, Confused e d) →
    Hammers identity log

/-! ## Reading by either key -/

section

variable {log before : List SpendDecision} {d : SpendDecision} {outcome : SpendOutcome}

theorem Met.of_identity (h : Met identity outcome before d) :
    Met fingerprint outcome before d := by
  obtain ⟨e, he, hkey, houtcome⟩ := h
  exact ⟨e, he, fingerprint_of_identity hkey, houtcome⟩

/-- What a fingerprint meets is the payment itself or one confused with it. -/
theorem met_fingerprint_iff : Met fingerprint outcome before d ↔
    Met identity outcome before d ∨ ∃ e ∈ before, Confused e d ∧ e.outcome = outcome := by
  constructor
  · rintro ⟨e, he, hkey, houtcome⟩
    by_cases hid : identity e = identity d
    · exact .inl ⟨e, he, hid, houtcome⟩
    · exact .inr ⟨e, he, ⟨hkey, hid⟩, houtcome⟩
  · rintro (h | ⟨e, he, ⟨hkey, -⟩, houtcome⟩)
    · exact h.of_identity
    · exact ⟨e, he, hkey, houtcome⟩

theorem retriesBlocked_iff (log : List SpendDecision) :
    (RetriesBlocked fingerprint log ↔ RetriesBlocked identity log) ↔
      (Occurs (fun before d => ∃ e ∈ before, Confused e d ∧ e.outcome = .blocked) log →
        RetriesBlocked identity log) := by
  constructor
  · intro h hconfused
    exact h.1 (hconfused.imp fun before d hd => met_fingerprint_iff.2 (.inr hd))
  · refine fun h => ⟨?_, fun hretries => hretries.imp fun before d hd => hd.of_identity⟩
    rintro ⟨before, d, after, hsplit, hd⟩
    obtain hd | hd := met_fingerprint_iff.1 hd
    · exact ⟨before, d, after, hsplit, hd⟩
    · exact h ⟨before, d, after, hsplit, hd⟩

theorem pushesPending_iff (log : List SpendDecision) :
    (PushesPending fingerprint log ↔ PushesPending identity log) ↔
      (Occurs (fun before d => (∃ e ∈ before, Confused e d ∧ e.outcome = .pending) ∧
        ¬ Met fingerprint .blocked before d) log → PushesPending identity log) ∧
      (Occurs (fun before d => (Met identity .pending before d ∧
        ¬ Met identity .blocked before d) ∧ ∃ e ∈ before, Confused e d ∧ e.outcome = .blocked) log →
          PushesPending fingerprint log) := by
  constructor
  · intro h
    refine ⟨fun hshown => h.1 (hshown.imp fun before d hd => ?_), fun hhidden =>
      h.2 (hhidden.imp fun before d hd => hd.1)⟩
    exact ⟨met_fingerprint_iff.2 (.inr hd.1), hd.2⟩
  · rintro ⟨hshown, hhidden⟩
    constructor
    · rintro ⟨before, d, after, hsplit, hpending, hblocked⟩
      obtain hpending | hpending := met_fingerprint_iff.1 hpending
      · exact ⟨before, d, after, hsplit, hpending, fun h => hblocked h.of_identity⟩
      · exact hshown ⟨before, d, after, hsplit, hpending, hblocked⟩
    · rintro ⟨before, d, after, hsplit, hpending, hblocked⟩
      by_cases hconfused : Met fingerprint .blocked before d
      · obtain hblocked' | hconfused := met_fingerprint_iff.1 hconfused
        · exact absurd hblocked' hblocked
        · exact hhidden ⟨before, d, after, hsplit, ⟨hpending, hblocked⟩, hconfused⟩
      · exact ⟨before, d, after, hsplit, hpending.of_identity, hconfused⟩

theorem hammers_of_identity (h : Hammers identity log) : Hammers fingerprint log := by
  obtain ⟨k, hk⟩ := h
  obtain ⟨d, -, rfl⟩ := exists_of_mem_repeated hk
  have hcount := (mem_repeated (by decide)).1 hk
  exact ⟨fingerprint d, (mem_repeated (by decide)).2
    (hcount.trans (count_map_le fun _ _ => fingerprint_of_identity))⟩

theorem hammers_iff (log : List SpendDecision) :
    (Hammers fingerprint log ↔ Hammers identity log) ↔
      ((∃ d ∈ log, fingerprint d ∈ repeated fingerprint 3 log ∧ ∃ e ∈ log, Confused e d) →
        Hammers identity log) := by
  constructor
  · rintro h ⟨d, -, hd, -⟩
    exact h.1 ⟨fingerprint d, hd⟩
  · refine fun h => ⟨?_, hammers_of_identity⟩
    rintro ⟨fp, hfp⟩
    obtain ⟨d, hd, rfl⟩ := exists_of_mem_repeated hfp
    have hcount := (mem_repeated (by decide)).1 hfp
    by_cases hconfused : ∃ e ∈ log, Confused e d
    · exact h ⟨d, hd, hfp, hconfused⟩
    · refine ⟨identity d, (mem_repeated (by decide)).2 (hcount.trans (count_map_le ?_))⟩
      intro e he hkey
      by_contra hid
      exact hconfused ⟨e, he, hkey, hid⟩

end

/-! ## When the flags are about payments -/

/-- **Payments are judged by their identity** if and only if no flag hangs on
payments that share a fingerprint. -/
theorem judged_by_identity_iff (submission : SpendTrustSubmission) :
    JudgedByIdentity submission ↔ Untangled submission.decisions := by
  have hblocks := respectsBlocks_iff submission
  have hpending := backsOffOnPending_iff submission
  have hloops := noDoomLoop_iff submission
  constructor
  · intro h
    have hpushes := (pushesPending_iff submission.decisions).1
      (hpending.symm.trans h.backsOffOnPending)
    exact
      { blocked := (retriesBlocked_iff _).1 (hblocks.symm.trans h.respectsBlocks)
        pending := hpushes.1
        hidden := hpushes.2
        hammered := (hammers_iff _).1 (hloops.symm.trans h.noDoomLoop) }
  · intro h
    exact
      { respectsBlocks := hblocks.trans ((retriesBlocked_iff _).2 h.blocked)
        backsOffOnPending := hpending.trans ((pushesPending_iff _).2 ⟨h.pending, h.hidden⟩)
        noDoomLoop := hloops.trans ((hammers_iff _).2 h.hammered) }

namespace Sample

/-- Two payments with bars in their texts. -/
def barred : SpendTrustSubmission where
  agentId := "ada"
  decisions :=
    [{ payee := "a", amount := 5, rail := "7|c", rationale := "first order", outcome := .blocked },
     { payee := "a|5", amount := 7, rail := "c", rationale := "rent", outcome := .settled }]

end Sample

/-- The second payment is taken for a retry of the first. -/
theorem bars_confuse_payments :
    ¬ ∀ submission, PassesSchema submission → JudgedByIdentity submission := by
  intro h
  have hschema : PassesSchema Sample.barred :=
    ⟨by decide, by decide, by decide +kernel, by decide⟩
  obtain ⟨before, d, after, hsplit, e, he, hkey, -⟩ :=
    (h Sample.barred hschema).respectsBlocks.1 (by decide +kernel)
  have hnodup : (Sample.barred.decisions.map identity).Nodup := by decide
  rw [hsplit, List.map_append, List.map_cons, List.nodup_append] at hnodup
  exact hnodup.2.2 (identity e) (List.mem_map_of_mem he) (identity d) List.mem_cons_self hkey

/-- In particular where no two payments of the log share a fingerprint. -/
theorem untangled_of_distinct {log : List SpendDecision}
    (h : ∀ e ∈ log, ∀ d ∈ log, ¬ Confused e d) : Untangled log := by
  have hnone : ∀ {outcome : SpendOutcome} {before after : List SpendDecision} {d : SpendDecision},
      log = before ++ d :: after → ¬ ∃ e ∈ before, Confused e d ∧ e.outcome = outcome := by
    rintro outcome before after d rfl ⟨e, he, hconfused, -⟩
    exact h e (List.mem_append_left _ he) d (List.mem_append_right _ List.mem_cons_self) hconfused
  exact
    { blocked := fun ⟨_, _, _, hsplit, hd⟩ => absurd hd (hnone hsplit)
      pending := fun ⟨_, _, _, hsplit, hd⟩ => absurd hd.1 (hnone hsplit)
      hidden := fun ⟨_, _, _, hsplit, hd⟩ => absurd hd.2 (hnone hsplit)
      hammered := fun ⟨d, hd, _, e, he, hconfused⟩ => absurd hconfused (h e he d hd) }

/-! ## Submissions that are accepted -/

/-- An accepted amount is a natural number that is written in digits. -/
theorem amount_text {x : JsNumber}
    (h : x.isInteger = true ∧ 0 ≤ x ∧ x ≤ .fin (2 ^ 53 - 1)) :
    ∃ n : Nat, x = .fin (n : ℚ) ∧ numberText x = Nat.toDigits 10 n := by
  obtain ⟨hint, hpos, hmax⟩ := h
  cases x with
  | fin q =>
      have hden : q.den = 1 := by simpa [JsNumber.isInteger] using hint
      rw [JsNumber.ofNat_eq_fin, JsNumber.fin_le_fin, Nat.cast_zero] at hpos
      rw [JsNumber.fin_le_fin] at hmax
      obtain ⟨n, hn⟩ := Int.eq_ofNat_of_zero_le (Rat.num_nonneg.2 hpos)
      have hq : q = (n : ℚ) := by
        rw [← Rat.coe_int_num_of_den_eq_one hden, hn, Int.cast_natCast]
      have hlt : n < 2 ^ 53 := by
        have hle : (n : ℚ) < 2 ^ 53 := by
          rw [← hq]
          linarith
        exact_mod_cast hle
      rw [hq]
      exact ⟨n, rfl, numberText_natCast hlt⟩
  | _ => cases hint

/-- Text up to the first bar. -/
private theorem split_at_bar : ∀ {p p' r r' : List Char}, '|' ∉ p → '|' ∉ p' →
    p ++ '|' :: r = p' ++ '|' :: r' → p = p' ∧ r = r'
  | [], [], _, _, _, _, h => ⟨rfl, (List.cons.inj h).2⟩
  | [], c :: p', _, _, _, hp', h => by
      rw [← (List.cons.inj h).1] at hp'
      exact absurd List.mem_cons_self hp'
  | c :: p, [], _, _, hp, _, h => by
      rw [(List.cons.inj h).1] at hp
      exact absurd List.mem_cons_self hp
  | c :: p, c' :: p', _, _, hp, hp', h => by
      obtain ⟨rfl, htail⟩ := List.cons.inj h
      obtain ⟨rfl, hr⟩ := split_at_bar (fun hc => hp (List.mem_cons_of_mem _ hc))
        (fun hc => hp' (List.mem_cons_of_mem _ hc)) htail
      exact ⟨rfl, hr⟩

theorem fingerprint_toList (d : SpendDecision) : (fingerprint d).toList =
    d.payee.toList ++ '|' :: (numberText d.amount ++ '|' :: d.rail.toList) := by
  simp only [fingerprint, String.toList_append, String.toList_ofList, List.append_assoc]
  rfl

section

variable {d e : SpendDecision}
  (hd : d.amount.isInteger = true ∧ 0 ≤ d.amount ∧ d.amount ≤ .fin (2 ^ 53 - 1))
  (he : e.amount.isInteger = true ∧ 0 ≤ e.amount ∧ e.amount ≤ .fin (2 ^ 53 - 1))

include hd in
theorem bar_not_mem_amount : '|' ∉ numberText d.amount := by
  obtain ⟨n, -, htext⟩ := amount_text hd
  rw [htext]
  exact fun h => absurd (Numeral.isDigit_toDigits _ h) (by decide)

include hd he in
theorem amount_of_text (h : numberText d.amount = numberText e.amount) : d.amount = e.amount := by
  obtain ⟨n, hn, htext⟩ := amount_text hd
  obtain ⟨m, hm, htext'⟩ := amount_text he
  rw [htext, htext'] at h
  have hread := congrArg (fun cs => Nat.ofDigitChars 10 cs 0) h
  simp only [Nat.ofDigitChars_ten_toDigits] at hread
  rw [hn, hm, hread]

include hd he in
/-- Payees without bars are read back from a fingerprint. -/
theorem identity_of_plain_payees (hpayee : '|' ∉ d.payee.toList) (hpayee' : '|' ∉ e.payee.toList)
    (h : fingerprint d = fingerprint e) : identity d = identity e := by
  have htext := congrArg String.toList h
  rw [fingerprint_toList, fingerprint_toList] at htext
  obtain ⟨hp, hrest⟩ := split_at_bar hpayee hpayee' htext
  obtain ⟨ha, hr⟩ := split_at_bar (bar_not_mem_amount hd) (bar_not_mem_amount he) hrest
  rw [identity, String.toList_inj.1 hp, amount_of_text hd he ha, String.toList_inj.1 hr, identity]

include hd he in
/-- So are rails without bars. -/
theorem identity_of_plain_rails (hrail : '|' ∉ d.rail.toList) (hrail' : '|' ∉ e.rail.toList)
    (h : fingerprint d = fingerprint e) : identity d = identity e := by
  have htext := congrArg (fun s => s.toList.reverse) h
  simp only [fingerprint_toList, List.reverse_append, List.reverse_cons, List.append_assoc,
    List.singleton_append] at htext
  obtain ⟨hr, hrest⟩ := split_at_bar (by simpa using hrail) (by simpa using hrail') htext
  obtain ⟨ha, hp⟩ := split_at_bar (by simpa using bar_not_mem_amount hd)
    (by simpa using bar_not_mem_amount he) hrest
  rw [identity, String.toList_inj.1 (List.reverse_injective hp),
    amount_of_text hd he (List.reverse_injective ha),
    String.toList_inj.1 (List.reverse_injective hr), identity]

end

/-- **Where no payee, or no rail, has a bar**, an accepted submission is judged by
its payments. -/
theorem judged_of_plain {submission : SpendTrustSubmission} (h : PassesSchema submission)
    (hplain : (∀ d ∈ submission.decisions, '|' ∉ d.payee.toList) ∨
      ∀ d ∈ submission.decisions, '|' ∉ d.rail.toList) : JudgedByIdentity submission := by
  refine (judged_by_identity_iff submission).2 (untangled_of_distinct ?_)
  rintro e he d hd ⟨hkey, hid⟩
  obtain hpayee | hrail := hplain
  · exact hid (identity_of_plain_payees (h.amount e he) (h.amount d hd) (hpayee e he)
      (hpayee d hd) hkey)
  · exact hid (identity_of_plain_rails (h.amount e he) (h.amount d hd) (hrail e he)
      (hrail d hd) hkey)

end AgentWorth.SpendTrust
