import AgentWorth.Lib.Boundary
import AgentWorth.Store.Chronology

/-!
# Period boundaries

`periodStart` counts back from the civil date inside `Date.UTC`, with day
numbers that may be zero or negative.  On the years 1000 to 9999 the day it
lands on is the last boundary of the period: midnight of the same day, of the
last Monday, of the first of the month.
-/

namespace AgentWorth

open AgentWorth.Js AgentWorth.Js.Date

/-! ## Boundaries -/

/-- The days on which a period starts: all of them, the Mondays, the first days
of the months. -/
def StartsOn (d : Int) : Period → Prop
  | .day => True
  | .week => weekDay d = 1
  | .month => (civilFromDay d).day = 1

/-- A boundary of a period: midnight, in UTC, of a day on which it starts. -/
structure IsBoundary (period : Period) (t : Int) : Prop where
  midnight : t % msPerDay = 0
  day : StartsOn (t / msPerDay) period

/-- An instant of the years 1000 to 9999. -/
structure FourFigureYear (t : Int) : Prop where
  lo : 1000 ≤ (civilFromDay (t / msPerDay)).year
  hi : (civilFromDay (t / msPerDay)).year ≤ 9999

/-- The start of an instant's period, by the calendar. -/
def startOf (period : Period) (t : Int) : Int := calendarStart (t / msPerDay) period * msPerDay

theorem startsOn_calendarStart (d : Int) (period : Period) :
    StartsOn (calendarStart d period) period := by
  cases period with
  | day => trivial
  | week =>
      show (d - ((d + 4) % 7 + 6) % 7 + 4) % 7 = 1
      omega
  | month =>
      show (civilFromDay (d - ((civilFromDay d).day - 1))).day = 1
      rw [civilFromDay_first]

/-- No later day up to `d` starts a period. -/
theorem le_calendarStart {d e : Int} {period : Period} (he : StartsOn e period) (hle : e ≤ d) :
    e ≤ calendarStart d period := by
  cases period with
  | day => exact hle
  | week =>
      have hmonday : (e + 4) % 7 = 1 := he
      show e ≤ d - ((d + 4) % 7 + 6) % 7
      omega
  | month =>
      have hfirst : (civilFromDay e).day = 1 := he
      have hstart := civilFromDay_first d
      by_contra hlt
      have hlate : calendarStart d .month ≤ e := by omega
      -- the month of `e` lies between the month of `d` and itself
      obtain ⟨hylo, hmlo⟩ := civilFromDay_mono hlate
      obtain ⟨hyhi, hmhi⟩ := civilFromDay_mono hle
      simp only [calendarStart, hstart] at hylo hmlo
      have hyear : (civilFromDay e).year = (civilFromDay d).year := by omega
      have hmonth : (civilFromDay e).month = (civilFromDay d).month := by
        have := (hmlo hyear.symm).1
        have := (hmhi hyear).1
        omega
      have hd := (civilFromDay_spec d).2.2.2
      have he' := (civilFromDay_spec e).2.2.2
      rw [hyear, hmonth, hfirst] at he'
      simp only [makeDay] at hd he'
      simp only [calendarStart] at hlt
      omega

/-- **The calendar's start of a period is its last boundary**, in every year. -/
theorem lastBoundary_startOf (period : Period) :
    LastBoundary {b | IsBoundary period b} (startOf period) := by
  intro t
  have hday : startOf period t / msPerDay = calendarStart (t / msPerDay) period :=
    Int.mul_ediv_cancel _ (by decide)
  refine ⟨⟨⟨Int.mul_emod_left _ _, ?_⟩, ?_⟩, ?_⟩
  · rw [hday]
    exact startsOn_calendarStart _ period
  · obtain ⟨hle, -⟩ := calendarStart_le (t / msPerDay) period
    unfold startOf msPerDay at *
    omega
  · rintro b ⟨⟨hmidnight, hstarts⟩, hle⟩
    have hdays : b / msPerDay ≤ t / msPerDay := Int.ediv_le_ediv (by decide) hle
    have hstart := le_calendarStart hstarts hdays
    unfold startOf msPerDay at *
    omega

/-! ## The store's periods -/

theorem FourFigureYear.startOf_fourDigitYear {t : Int} (h : FourFigureYear t) (period : Period) :
    FourDigitYear (startOf period t) ∧ ¬ CenturyYear (startOf period t / msPerDay) := by
  obtain ⟨hle, hge⟩ := calendarStart_le (t / msPerDay) period
  have hday : startOf period t / msPerDay = calendarStart (t / msPerDay) period :=
    Int.mul_ediv_cancel _ (by decide)
  obtain ⟨hlo, hhi⟩ := h
  have hmono := (civilFromDay_mono hle).1
  -- the start lies within a month of the year 1000
  have hyear : 100 ≤ (civilFromDay (calendarStart (t / msPerDay) period)).year := by
    by_contra hlt
    obtain ⟨-, hend⟩ := yearFromDay_spec (calendarStart (t / msPerDay) period)
    obtain ⟨hstart, -⟩ := yearFromDay_spec (t / msPerDay)
    have hearly : dayFromYear ((civilFromDay (calendarStart (t / msPerDay) period)).year + 1) ≤
        dayFromYear 100 := dayFromYear_mono (by omega)
    have hlate := dayFromYear_mono hlo
    have hspan : dayFromYear 1000 = dayFromYear 100 + 328718 := by decide
    simp only [civilFromDay] at hearly hlate
    omega
  unfold FourDigitYear CenturyYear
  rw [hday]
  omega

/-- On these years the store starts a period where the calendar does. -/
theorem periodStart_startOf {now : String} {t : Int} (hnow : parse now = some t)
    (h : ¬ CenturyYear (t / msPerDay)) {period : Period}
    (hstart : FourDigitYear (startOf period t)) :
    periodStart now period = .ok (toIso (startOf period t)) := by
  unfold periodStart
  rw [hnow]
  simp only [periodStartDay_calendar h]
  exact toISOString_intCast hstart

theorem FourFigureYear.periodStart {now : String} {t : Int} (hnow : parse now = some t)
    (h : FourFigureYear t) (period : Period) :
    AgentWorth.periodStart now period = .ok (toIso (startOf period t)) := by
  have hcentury : ¬ CenturyYear (t / msPerDay) := by
    have := h.lo
    unfold CenturyYear
    omega
  exact periodStart_startOf hnow hcentury (h.startOf_fourDigitYear period).1

/-- What `periodStart` answers for an instant: the text of a boundary, at or
before it, that is the start of its own period. -/
structure PeriodOpens (period : Period) (t start : Int) : Prop where
  le : start ≤ t
  boundary : IsBoundary period start
  reads : parse (toIso start) = some start
  fixed : periodStart (toIso start) period = .ok (toIso start)

theorem FourFigureYear.opens {t : Int} (h : FourFigureYear t) (period : Period) :
    PeriodOpens period t (startOf period t) := by
  have hlast := lastBoundary_startOf period
  obtain ⟨hfour, hcentury⟩ := h.startOf_fourDigitYear period
  have hreads : parse (toIso (startOf period t)) = some (startOf period t) := parse_toIso hfour
  have hown : startOf period (startOf period t) = startOf period t := hlast.idempotent t
  have hagain : FourDigitYear (startOf period (startOf period t)) := by
    rw [hown]
    exact hfour
  have hfixed := periodStart_startOf hreads hcentury hagain
  rw [hown] at hfixed
  exact ⟨hlast.le t, hlast.mem t, hreads, hfixed⟩

/-- **Period boundaries.**  Every instant of the years 1000 to 9999 has a start
for every period; starts move forward with the instants, two instants share one
exactly when no boundary lies between them, and as texts starts are ordered as
in time. -/
theorem periodStart_boundaries {now later : String} {t u : Int}
    (hnow : parse now = some t) (hlater : parse later = some u)
    (ht : FourFigureYear t) (hu : FourFigureYear u) (period : Period) :
    ∃ start next, periodStart now period = .ok (toIso start) ∧
      periodStart later period = .ok (toIso next) ∧
      PeriodOpens period t start ∧ PeriodOpens period u next ∧
      (t ≤ u → start ≤ next ∧
        (toIso start = toIso next ↔ ∀ b, IsBoundary period b → ¬ (t < b ∧ b ≤ u))) ∧
      (strLt (toIso start) (toIso next) = true ↔ start < next) := by
  have hlast := lastBoundary_startOf period
  have hopens := ht.opens period
  have hnext := hu.opens period
  have hsame : toIso (startOf period t) = toIso (startOf period u) ↔
      startOf period t = startOf period u := by
    constructor
    · intro heq
      have hread := hopens.reads
      rw [heq, hnext.reads] at hread
      exact (Option.some.inj hread).symm
    · intro heq
      rw [heq]
  refine ⟨_, _, ht.periodStart hnow period, hu.periodStart hlater period, hopens, hnext,
    fun htu => ⟨hlast.mono htu, hsame.trans (hlast.eq_iff htu)⟩, ?_⟩
  exact strLt_toIso (ht.startOf_fourDigitYear period).1 (hu.startOf_fourDigitYear period).1

/-- A Friday two days after a leap day, and the first day of the next year: both
weeks start in the month before. -/
theorem periodStart_boundaries_straddling :
    ∃ start next, periodStart "2024-03-01T10:00:00.000Z" .week = .ok (toIso start) ∧
      periodStart "2025-01-01T00:00:00.000Z" .week = .ok (toIso next) ∧ start ≤ next ∧
      (toIso start = toIso next ↔
        ∀ b, IsBoundary .week b → ¬ (1709287200000 < b ∧ b ≤ 1735689600000)) := by
  obtain ⟨start, next, hstart, hnext, -, -, hforward, -⟩ :=
    @periodStart_boundaries "2024-03-01T10:00:00.000Z" "2025-01-01T00:00:00.000Z"
      1709287200000 1735689600000 (by decide +kernel) (by decide +kernel)
      ⟨by decide +kernel, by decide +kernel⟩
      ⟨by decide +kernel, by decide +kernel⟩ .week
  exact ⟨start, next, hstart, hnext, hforward (by decide)⟩

/-- Between two boundaries a mandate's spend is counted from one start. -/
theorem periodSpend_within_period (b : Books) {now later mandateId : String} {t u : Int}
    {m : Mandate} (hm : b.mandates.get mandateId = some m)
    (hnow : parse now = some t) (hlater : parse later = some u)
    (ht : FourFigureYear t) (hu : FourFigureYear u) (htu : t ≤ u)
    (hnone : ∀ boundary, IsBoundary m.period boundary → ¬ (t < boundary ∧ boundary ≤ u)) :
    b.periodSpend mandateId now = b.periodSpend mandateId later := by
  have hsame : startOf m.period t = startOf m.period u :=
    ((lastBoundary_startOf m.period).eq_iff htu).2 hnone
  unfold Books.periodSpend
  rw [hm]
  simp only [ht.periodStart hnow, hu.periodStart hlater, hsame]

end AgentWorth
