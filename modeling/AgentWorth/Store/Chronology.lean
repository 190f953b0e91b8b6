import AgentWorth.Lib.IsoStamp
import AgentWorth.Store.Memory

/-!
# Order in time

Expiry and period are decided by comparing texts: `isLiveMandate` puts
`expiresAt` against `now`, `periodSpend` puts `settledAt` against the start of
the period.  The start is rendered, and `now` may be; the other two enter as
operators, rails and imports write them, with or without fraction, with `Z` or
an offset.
-/

namespace AgentWorth

open AgentWorth.Js AgentWorth.Js.Date

/-! ## What the comparisons are for -/

/-- The mandate is live exactly while it is active and `expiresAt` is ahead. -/
def LiveInTime (m : Mandate) (expires now : IsoStamp) : Prop :=
  isLiveMandate m now.text = true ↔ m.status = .active ∧ now.instant < expires.instant

/-- The day on which the period of a day starts: the day itself, its Monday, or
the first of its month. -/
def calendarStart (d : Int) : Period → Int
  | .day => d
  | .week => d - (weekDay d + 6) % 7
  | .month => d - ((civilFromDay d).day - 1)

/-- `periodSpend` answers with the rows of the period, and a row is one of them
exactly when it settled at or after the start of the period. -/
def CountedInTime (b : Books) (m : Mandate) (now : IsoStamp) (s : StoredIntent)
    (settled : IsoStamp) : Prop :=
  ∃ start, periodStart now.text m.period = .ok start ∧
    b.periodSpend m.id now.text = .ok ((b.spendRows m.id start).map priorSpend) ∧
    (s ∈ b.spendRows m.id start ↔
      ((calendarStart now.utcDay m.period * 86400 : Int) : ℚ) ≤ settled.instant)

/-- A payment settled under the mandate at an instant. -/
structure SettledUnder (b : Books) (m : Mandate) (s : StoredIntent) (settled : IsoStamp) :
    Prop where
  held : b.intents.get s.id = some s
  status : s.status = .settled
  mandate : s.mandateId = some m.id
  stamped : s.settledAt = some settled.text

/-! ## When they agree with it -/

/-- Years that `Date.UTC` counts from 1900. -/
def CenturyYear (d : Int) : Prop := 0 ≤ (civilFromDay d).year ∧ (civilFromDay d).year ≤ 99

/-- A date of a year of at most four digits. -/
def PlainYear (d : Int) : Prop := 0 ≤ (civilFromDay d).year ∧ (civilFromDay d).year ≤ 9999

/-- The start of a period 1900 years on, by the month and the day of the month. -/
def laterStart (d : Int) (period : Period) : Int :=
  makeDay (1900 + (civilFromDay d).year) (civilFromDay d).month
    ((civilFromDay d).day - (d - calendarStart d period))

/-- The start of a period is ordered against a settlement as in time: where it
has a year of four digits, the two texts are; a start in another year comes
before every settlement; and nothing settled between a start in the first
century and the date 1900 years on which the store takes for it. -/
structure StartAgrees (now : IsoStamp) (period : Period) (settled : IsoStamp) : Prop where
  plain : ¬ CenturyYear now.utcDay →
    ∀ h : PlainYear (calendarStart now.utcDay period),
      Agrees settled (midnight (calendarStart now.utcDay period) h)
  signed : ¬ CenturyYear now.utcDay → ¬ PlainYear (calendarStart now.utcDay period) →
    ((calendarStart now.utcDay period * 86400 : Int) : ℚ) ≤ settled.instant
  century : CenturyYear now.utcDay →
    ∀ h : PlainYear (laterStart now.utcDay period),
      ((calendarStart now.utcDay period * 86400 : Int) : ℚ) ≤ settled.instant →
        ¬ Before settled (midnight (laterStart now.utcDay period) h)

/-! ## Expiry -/

theorem liveInTime_iff {m : Mandate} {expires now : IsoStamp} (h : m.expiresAt = expires.text) :
    LiveInTime m expires now ↔ (m.status = .active → Agrees now expires) := by
  have hlive : isLiveMandate m now.text = true ↔ m.status = .active ∧ Before now expires := by
    unfold isLiveMandate
    rw [h, Bool.and_eq_true, beq_iff_eq, strLt_text_iff]
  unfold LiveInTime
  rw [hlive, and_congr_right_iff]
  exact imp_congr_right fun _ => before_iff_instant_lt_iff now expires

/-! ## The start of a period -/

theorem calendarStart_le (d : Int) (period : Period) :
    calendarStart d period ≤ d ∧ d ≤ calendarStart d period + 30 := by
  obtain ⟨-, hd1, hd31, -⟩ := civilFromDay_spec d
  cases period <;> simp only [calendarStart] <;> omega

/-- Outside the first century the store starts a period where the calendar
does. -/
theorem periodStartDay_calendar {d : Int} (h : ¬ CenturyYear d) (period : Period) :
    periodStartDay d period = calendarStart d period := by
  obtain ⟨-, -, -, hd⟩ := civilFromDay_spec d
  unfold CenturyYear at h
  unfold makeDay at hd
  cases period <;>
    simp only [periodStartDay, calendarStart, utcDay, if_neg h, makeDay] <;> omega

theorem periodStartDay_century {d : Int} (h : CenturyYear d) (period : Period) :
    periodStartDay d period = laterStart d period := by
  unfold CenturyYear at h
  cases period <;>
    simp only [periodStartDay, laterStart, calendarStart, utcDay, if_pos h, makeDay] <;> omega

theorem fourDigitYear_day (d : Int) : FourDigitYear (d * msPerDay) ↔ PlainYear d := by
  have hday : d * msPerDay / msPerDay = d := Int.mul_ediv_cancel d (by decide)
  unfold FourDigitYear PlainYear
  rw [hday]

theorem plainYear_iff {d : Int} : PlainYear d ↔ -719528 ≤ d ∧ d < 2932897 := by
  rw [← fourDigitYear_day, fourDigitYear_iff]
  unfold msPerDay
  omega

theorem utcDay_bounds (a : IsoStamp) : -719529 ≤ a.utcDay ∧ a.utcDay ≤ 2932897 := by
  obtain ⟨hlo, hhi⟩ := plainYear_iff.1 a.fourDigitYear
  have hsecond := a.second.isLt
  have hoffset : a.zone.offset.natAbs < 1440 := by
    cases a.zone <;> simp only [Zone.offset] <;> omega
  unfold IsoStamp.utcDay IsoStamp.wall
  omega

/-- The later start of a first-century period lies in the twentieth. -/
theorem laterStart_bounds {d : Int} (h : CenturyYear d) (period : Period) :
    -25600 ≤ laterStart d period ∧ laterStart d period < 11000 := by
  obtain ⟨hm, hd1, hd31, -⟩ := civilFromDay_spec d
  obtain ⟨hle, hge⟩ := calendarStart_le d period
  obtain ⟨hy0, hy99⟩ := h
  have hfirst : dayFromYear 1900 = -25567 := by decide
  have hlast : dayFromYear 1999 = 10592 := by decide
  have hlo := dayFromYear_mono (show 1900 ≤ 1900 + (civilFromDay d).year by omega)
  have hhi := dayFromYear_mono (show 1900 + (civilFromDay d).year ≤ 1999 by omega)
  have hleap := leapDay_cases (1900 + (civilFromDay d).year)
  have hmin := monthStart_mono hleap (Nat.zero_le (civilFromDay d).month) (by omega)
  have hmax := monthStart_mono hleap (show (civilFromDay d).month ≤ 12 by omega) (le_refl _)
  have hnone : ∀ l, monthStart l 0 = 0 := fun _ => rfl
  have hall : ∀ l, monthStart l 12 = 365 + l := fun _ => rfl
  rw [hnone] at hmin
  rw [hall] at hmax
  unfold laterStart makeDay
  omega

/-- The text of a period's start. -/
theorem periodStart_text (now : IsoStamp) (period : Period) :
    periodStart now.text period =
      .ok (toIso (periodStartDay now.utcDay period * msPerDay)) := by
  obtain ⟨t, hparse, hday⟩ := parse_text now
  obtain ⟨hlo, hhi⟩ := utcDay_bounds now
  have hrange : -719559 ≤ periodStartDay now.utcDay period ∧
      periodStartDay now.utcDay period ≤ 2932897 := by
    by_cases hcentury : CenturyYear now.utcDay
    · rw [periodStartDay_century hcentury]
      have := laterStart_bounds hcentury period
      omega
    · rw [periodStartDay_calendar hcentury]
      have := calendarStart_le now.utcDay period
      omega
  unfold periodStart
  rw [hparse]
  simp only [hday]
  rw [toISOString_int, if_pos]
  unfold msPerDay maxTime
  omega

theorem midnight_text (d : Int) (h : PlainYear d) :
    (midnight d h).text = toIso (d * msPerDay) := by
  have hwall : toIso ((d * 86400 + ((0 : Nat) : Int)) * 1000) =
      String.ofList (wallText d 0 ++ tailText [0, 0, 0] .utc) := toIso_wall d (by decide)
  have hms : (d * 86400 + ((0 : Nat) : Int)) * 1000 = d * msPerDay := by
    unfold msPerDay
    omega
  rw [hms] at hwall
  rw [hwall]
  rfl

theorem midnight_instant (d : Int) (h : PlainYear d) :
    (midnight d h).instant = ((d * 86400 : Int) : ℚ) := by
  unfold IsoStamp.instant IsoStamp.wall midnight
  simp [fractionValue, Zone.offset]

/-! ## The rows of a period -/

/-- A settlement in the twentieth century or later is not before a start in the
first. -/
theorem instant_of_not_before {now settled : IsoStamp} {period : Period}
    (hcentury : CenturyYear now.utcDay) (h : PlainYear (laterStart now.utcDay period))
    (hafter : ¬ Before settled (midnight (laterStart now.utcDay period) h)) :
    ((calendarStart now.utcDay period * 86400 : Int) : ℚ) ≤ settled.instant := by
  obtain ⟨hfraction, -⟩ := fractionValue_bounds settled.fraction
  obtain ⟨hlater, -⟩ := laterStart_bounds hcentury period
  have hoffset : settled.zone.offset.natAbs < 1440 := by
    cases settled.zone <;> simp only [Zone.offset] <;> omega
  have hwall : laterStart now.utcDay period * 86400 ≤ settled.wall := by
    by_contra hlt
    refine hafter (.inl ?_)
    show settled.wall < laterStart now.utcDay period * 86400 + 0
    omega
  have hday : now.utcDay < -600000 := by
    by_contra hlate
    have hyear := dayFromYear_mono (show (civilFromDay now.utcDay).year + 1 ≤ 100 by
      have := hcentury.2
      omega)
    have hlast : dayFromYear 100 = -683003 := by decide
    have hbound := (yearFromDay_spec now.utcDay).2
    have heq : (civilFromDay now.utcDay).year = yearFromDay now.utcDay := rfl
    rw [heq] at hyear
    omega
  obtain ⟨hstart, -⟩ := calendarStart_le now.utcDay period
  have hint : calendarStart now.utcDay period * 86400 ≤
      settled.wall - settled.zone.offset * 60 := by omega
  have hcast : ((calendarStart now.utcDay period * 86400 : Int) : ℚ) ≤
      settled.wall - settled.zone.offset * 60 := by exact_mod_cast hint
  unfold IsoStamp.instant
  linarith

theorem countedInTime_iff {b : Books} {m : Mandate} {now settled : IsoStamp} {s : StoredIntent}
    (hm : b.mandates.get m.id = some m) (hs : SettledUnder b m s settled) :
    CountedInTime b m now s settled ↔ StartAgrees now m.period settled := by
  have hstart := periodStart_text now m.period
  have hspend : b.periodSpend m.id now.text =
      .ok ((b.spendRows m.id (toIso (periodStartDay now.utcDay m.period * msPerDay))).map
        priorSpend) := by
    unfold Books.periodSpend
    rw [hm]
    simp only [hstart, Except.map]
  have hrow : s ∈ b.spendRows m.id (toIso (periodStartDay now.utcDay m.period * msPerDay)) ↔
      strLt settled.text (toIso (periodStartDay now.utcDay m.period * msPerDay)) = false := by
    rw [Books.mem_spendRows, countsFor_iff]
    constructor
    · rintro ⟨-, -, -, settledAt, hsome, hlt⟩
      rw [hs.stamped] at hsome
      rwa [Option.some.inj hsome]
    · exact fun hlt => ⟨hs.held, hs.status, hs.mandate, settled.text, hs.stamped, hlt⟩
  have hcounted : CountedInTime b m now s settled ↔
      (strLt settled.text (toIso (periodStartDay now.utcDay m.period * msPerDay)) = false ↔
        ((calendarStart now.utcDay m.period * 86400 : Int) : ℚ) ≤ settled.instant) := by
    rw [← hrow]
    constructor
    · rintro ⟨start, hok, -, hiff⟩
      rw [hstart] at hok
      rwa [Except.ok.inj hok]
    · exact fun hiff => ⟨_, hstart, hspend, hiff⟩
  rw [hcounted]
  by_cases hcentury : CenturyYear now.utcDay
  · have hyear : PlainYear (laterStart now.utcDay m.period) := by
      have := laterStart_bounds hcentury m.period
      rw [plainYear_iff]
      omega
    rw [periodStartDay_century hcentury, ← midnight_text _ hyear, ← Bool.not_eq_true,
      strLt_text_iff]
    constructor
    · intro h
      exact ⟨fun hno => absurd hcentury hno, fun hno => absurd hcentury hno,
        fun _ _ hinstant => h.2 hinstant⟩
    · intro h
      exact ⟨instant_of_not_before hcentury hyear, h.century hcentury hyear⟩
  · rw [periodStartDay_calendar hcentury]
    by_cases hyear : PlainYear (calendarStart now.utcDay m.period)
    · rw [← midnight_text _ hyear, ← midnight_instant _ hyear, ← Bool.not_eq_true,
        strLt_text_iff, ← not_lt, not_iff_not, before_iff_instant_lt_iff]
      constructor
      · intro h
        exact ⟨fun _ _ => h, fun _ hno => absurd hyear hno, fun hno => absurd hno hcentury⟩
      · exact fun h => h.plain hcentury hyear
    · have hsigned := strLt_text_signed settled
        (mt (fourDigitYear_day (calendarStart now.utcDay m.period)).1 hyear)
      rw [hsigned, eq_self_iff_true, true_iff]
      constructor
      · intro h
        exact ⟨fun _ hyes => absurd hyes hyear, fun _ _ => h, fun hno => absurd hno hcentury⟩
      · exact fun h => h.signed hcentury hyear

/-- **Expiry and periods are in time exactly where the texts are.** -/
theorem timestamps_chronological_iff {b : Books} {m : Mandate} {expires now : IsoStamp}
    (hm : b.mandates.get m.id = some m) (hexpires : m.expiresAt = expires.text) :
    (LiveInTime m expires now ∧
        ∀ s settled, SettledUnder b m s settled → CountedInTime b m now s settled) ↔
      (m.status = .active → Agrees now expires) ∧
        ∀ s settled, SettledUnder b m s settled → StartAgrees now m.period settled := by
  rw [liveInTime_iff hexpires]
  refine and_congr_right fun _ => forall₂_congr fun s settled => ?_
  exact imp_congr_right fun hs => countedInTime_iff hm hs

namespace Sample

theorem fourDigitYear_17 : 0 ≤ (civilFromDay 20651).year ∧ (civilFromDay 20651).year ≤ 9999 :=
  plainYear_iff.2 (by omega)

theorem fourDigitYear_18 : 0 ≤ (civilFromDay 20652).year ∧ (civilFromDay 20652).year ≤ 9999 :=
  plainYear_iff.2 (by omega)

/-- Ten o'clock on 17 July 2026. -/
def tenOClock (fraction : List (Fin 10)) : IsoStamp where
  day := 20651
  second := ⟨36000, by decide⟩
  fraction := fraction
  zone := .utc
  fourDigitYear := fourDigitYear_17

/-- Half past eleven that night, two hours behind UTC. -/
def eveningBehind : IsoStamp where
  day := 20651
  second := ⟨84600, by decide⟩
  fraction := []
  zone := .behind 2 0
  fourDigitYear := fourDigitYear_17

/-- Nine o'clock the next morning. -/
def nextMorning : IsoStamp :=
  { midnight 20652 fourDigitYear_18 with second := ⟨32400, by decide⟩ }

def stampedMandate (expires : IsoStamp) : Mandate where
  id := "daily"
  label := "daily"
  scope := .class "meals"
  currency := "USD"
  allowedRails := [.card]
  perTxCap := 50
  perPeriodCap := 100
  period := .day
  grantedAt := "2026-07-01T00:00:00.000Z"
  expiresAt := expires.text
  status := .active

def stampedPayment (settled : IsoStamp) : StoredIntent where
  intent :=
    { id := "p"
      payee := "cafe"
      payeeClass := "meals"
      amount := 40
      currency := "USD"
      rail := .card
      rationale := "a meal"
      createdAt := "2026-07-17T00:00:00.000Z" }
  status := .settled
  mandateId := some "daily"
  settledAt := some settled.text
  receiptId := some "r"
  reasons := []
  refundedMinor := none

/-- The mandate with one payment settled under it. -/
def stampedBooks (expires settled : IsoStamp) : Books where
  mandates := Table.empty.put (stampedMandate expires)
  intents := Table.empty.put (stampedPayment settled)
  receipts := .empty
  meta' := .empty
  audit := []

theorem settledUnder_stamped {expires settled settled' : IsoStamp} {s : StoredIntent}
    (h : SettledUnder (stampedBooks expires settled) (stampedMandate expires) s settled') :
    settled' = settled := by
  have hheld := h.held
  unfold stampedBooks at hheld
  rw [Table.get_put] at hheld
  by_cases hid : s.id = (stampedPayment settled).id
  · rw [if_pos hid] at hheld
    have hstamped := h.stamped
    rw [← Option.some.inj hheld] at hstamped
    exact (IsoStamp.ext_text (Option.some.inj hstamped)).symm
  · rw [if_neg hid, Table.get_empty] at hheld
    exact absurd hheld (Option.some_ne_none _).symm

end Sample

/-- Stamps as a clock renders them are in time. -/
theorem timestamps_chronological_rendered :
    LiveInTime (Sample.stampedMandate Sample.nextMorning) Sample.nextMorning
        (Sample.tenOClock [0, 0, 0]) ∧
      CountedInTime (Sample.stampedBooks Sample.nextMorning (Sample.tenOClock [5, 0, 0]))
        (Sample.stampedMandate Sample.nextMorning) (Sample.tenOClock [0, 0, 0])
        (Sample.stampedPayment (Sample.tenOClock [5, 0, 0])) (Sample.tenOClock [5, 0, 0]) := by
  have hcalendar : calendarStart (Sample.tenOClock [0, 0, 0]).utcDay .day = 20651 := by decide
  have hyear : ¬ CenturyYear (Sample.tenOClock [0, 0, 0]).utcDay := by
    unfold CenturyYear
    decide
  have hplain : PlainYear (calendarStart (Sample.tenOClock [0, 0, 0]).utcDay .day) := by
    rw [hcalendar, plainYear_iff]
    omega
  have hheld : (Sample.stampedBooks Sample.nextMorning (Sample.tenOClock [5, 0, 0])).mandates.get
      "daily" = some (Sample.stampedMandate Sample.nextMorning) := rfl
  have hexpires : Agrees (Sample.tenOClock [0, 0, 0]) Sample.nextMorning :=
    agrees_of_utc rfl rfl rfl
  have hstart : StartAgrees (Sample.tenOClock [0, 0, 0]) .day (Sample.tenOClock [5, 0, 0]) :=
    ⟨fun _ _ => agrees_of_utc rfl rfl rfl, fun _ hno => absurd hplain hno,
      fun hno => absurd hno hyear⟩
  have htext : (Sample.stampedMandate Sample.nextMorning).expiresAt = Sample.nextMorning.text := rfl
  obtain ⟨hlive, hcounted⟩ := (timestamps_chronological_iff hheld htext).2 ⟨fun _ => hexpires,
    fun s settled hs => by
      rw [Sample.settledUnder_stamped hs]
      exact hstart⟩
  exact ⟨hlive, hcounted _ _ ⟨rfl, rfl, rfl, rfl⟩⟩

/-- A mandate that expires at ten is live half a second later, and the evening's
payment, dated two hours behind UTC, is missing from the morning's period. -/
theorem late_stamps_out_of_time :
    ¬ LiveInTime (Sample.stampedMandate (Sample.tenOClock [])) (Sample.tenOClock [])
        (Sample.tenOClock [5, 0, 0]) ∧
      ¬ CountedInTime (Sample.stampedBooks (Sample.tenOClock []) Sample.eveningBehind)
        (Sample.stampedMandate (Sample.tenOClock [])) Sample.nextMorning
        (Sample.stampedPayment Sample.eveningBehind) Sample.eveningBehind := by
  constructor
  · intro h
    have hlive : isLiveMandate (Sample.stampedMandate (Sample.tenOClock []))
        (Sample.tenOClock [5, 0, 0]).text = true := by decide +kernel
    have hlate : ¬ (Sample.tenOClock [5, 0, 0]).instant < (Sample.tenOClock []).instant := by
      decide +kernel
    exact hlate (h.1 hlive).2
  · rintro ⟨start, hstart, -, hcounted⟩
    have hmidnight : periodStart Sample.nextMorning.text .day = .ok "2026-07-18T00:00:00.000Z" := by
      decide +kernel
    have hinstant : ((calendarStart Sample.nextMorning.utcDay .day * 86400 : Int) : ℚ) ≤
        Sample.eveningBehind.instant := by decide +kernel
    have hmissing : Sample.stampedPayment Sample.eveningBehind ∉
        (Sample.stampedBooks (Sample.tenOClock []) Sample.eveningBehind).spendRows "daily"
          "2026-07-18T00:00:00.000Z" := by decide +kernel
    obtain rfl : start = "2026-07-18T00:00:00.000Z" := Except.ok.inj (hstart.symm.trans hmidnight)
    exact hmissing (hcounted.2 hinstant)

end AgentWorth
