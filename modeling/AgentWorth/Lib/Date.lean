import AgentWorth.Lib.Text

/-!
# ECMAScript dates

`Date` in UTC: the day and year arithmetic of the language specification, the
parser of its date-time strings and `toISOString`.  Timestamps travel as
strings and are compared as strings; `strLt_toIso` states when that comparison
is chronological.
-/

namespace AgentWorth.Js.Date

/-! ## Days, years and months -/

def msPerDay : Int := 86400000

/-- `DayFromYear`: the day number of January 1st, counted from the epoch. -/
def dayFromYear (y : Int) : Int :=
  365 * (y - 1970) + (y - 1969) / 4 - (y - 1901) / 100 + (y - 1601) / 400

/-- One in leap years. -/
def leapDay (y : Int) : Int :=
  if y % 4 = 0 ∧ (y % 100 ≠ 0 ∨ y % 400 = 0) then 1 else 0

theorem dayFromYear_succ (y : Int) :
    dayFromYear (y + 1) = dayFromYear y + 365 + leapDay y := by
  unfold dayFromYear leapDay
  split <;> omega

theorem leapDay_cases (y : Int) : leapDay y = 0 ∨ leapDay y = 1 := by
  unfold leapDay
  split
  · exact Or.inr rfl
  · exact Or.inl rfl

theorem dayFromYear_mono {a b : Int} (h : a ≤ b) :
    dayFromYear a ≤ dayFromYear b := by
  unfold dayFromYear
  omega

/-- `YearFromTime`, on day numbers.  The mean Gregorian year gives a candidate
that is off by at most one. -/
def yearFromDay (d : Int) : Int :=
  let y := 1970 + d * 400 / 146097
  if d < dayFromYear y then y - 1
  else if dayFromYear (y + 1) ≤ d then y + 1 else y

theorem yearFromDay_spec (d : Int) :
    dayFromYear (yearFromDay d) ≤ d ∧ d < dayFromYear (yearFromDay d + 1) := by
  have hcand : ∀ y : Int, y = 1970 + d * 400 / 146097 →
      dayFromYear (y - 1) ≤ d ∧ d < dayFromYear (y + 2) := by
    intro y hy
    unfold dayFromYear
    omega
  obtain ⟨hlo, hhi⟩ := hcand _ rfl
  unfold yearFromDay
  dsimp only
  generalize 1970 + d * 400 / 146097 = y at hlo hhi ⊢
  split
  · rw [Int.sub_add_cancel]
    exact ⟨hlo, by assumption⟩
  · split
    · rw [Int.add_assoc]
      exact ⟨by assumption, hhi⟩
    · omega

/-- A day belongs to the one year that brackets it. -/
theorem yearFromDay_eq {d y : Int} (hlo : dayFromYear y ≤ d) (hhi : d < dayFromYear (y + 1)) :
    yearFromDay d = y := by
  obtain ⟨hdlo, hdhi⟩ := yearFromDay_spec d
  by_contra hne
  by_cases hlt : yearFromDay d < y
  · have := dayFromYear_mono (show yearFromDay d + 1 ≤ y by omega)
    omega
  · have := dayFromYear_mono (show y + 1 ≤ yearFromDay d by omega)
    omega

theorem yearFromDay_mono {d e : Int} (h : d ≤ e) :
    yearFromDay d ≤ yearFromDay e := by
  obtain ⟨hlo, _⟩ := yearFromDay_spec d
  obtain ⟨_, hhi⟩ := yearFromDay_spec e
  by_contra hlt
  have := dayFromYear_mono (show yearFromDay e + 1 ≤ yearFromDay d by omega)
  omega

/-- Days of the year before month `m`, counted from zero; `m = 12` is the
length of the year. -/
def monthStart (leap : Int) : Nat → Int
  | 0 => 0
  | 1 => 31
  | 2 => 59 + leap
  | 3 => 90 + leap
  | 4 => 120 + leap
  | 5 => 151 + leap
  | 6 => 181 + leap
  | 7 => 212 + leap
  | 8 => 243 + leap
  | 9 => 273 + leap
  | 10 => 304 + leap
  | 11 => 334 + leap
  | _ => 365 + leap

/-- `MonthFromTime`, on the day within the year. -/
def monthFromDay (leap n : Int) : Nat :=
  if n < 31 then 0
  else if n < 59 + leap then 1
  else if n < 90 + leap then 2
  else if n < 120 + leap then 3
  else if n < 151 + leap then 4
  else if n < 181 + leap then 5
  else if n < 212 + leap then 6
  else if n < 243 + leap then 7
  else if n < 273 + leap then 8
  else if n < 304 + leap then 9
  else if n < 334 + leap then 10
  else 11

/-- The month of day `n` of a year brackets it. -/
theorem monthFromDay_spec (leap n : Int) (h0 : 0 ≤ n) (hn : n < 365 + leap) :
    monthFromDay leap n < 12 ∧ monthStart leap (monthFromDay leap n) ≤ n ∧
      n < monthStart leap (monthFromDay leap n + 1) := by
  unfold monthFromDay
  repeat' split
  all_goals
    refine ⟨by omega, ?_, ?_⟩
    · simp only [monthStart]
      omega
    · simp only [monthStart]
      omega

theorem monthStart_mono {leap : Int} (hl : leap = 0 ∨ leap = 1) {a b : Nat}
    (hab : a ≤ b) (hb : b ≤ 12) : monthStart leap a ≤ monthStart leap b := by
  have hstep : ∀ m, m < 12 → monthStart leap m ≤ monthStart leap (m + 1) := by
    intro m hm
    match m with
    | 0 | 1 | 2 | 3 | 4 | 5 | 6 | 7 | 8 | 9 | 10 | 11 =>
        simp only [monthStart]
        omega
  induction b with
  | zero =>
      have : a = 0 := by omega
      rw [this]
  | succ b ih =>
      by_cases h : a = b + 1
      · rw [h]
      · exact Int.le_trans (ih (by omega) (by omega)) (hstep b (by omega))

/-- A day of the year belongs to the one month that brackets it. -/
theorem monthFromDay_eq {leap n : Int} (hl : leap = 0 ∨ leap = 1) {m : Nat} (hm : m < 12)
    (h0 : 0 ≤ n) (hn : n < 365 + leap) (hlo : monthStart leap m ≤ n)
    (hhi : n < monthStart leap (m + 1)) : monthFromDay leap n = m := by
  obtain ⟨hm', hmlo, hmhi⟩ := monthFromDay_spec leap n h0 hn
  by_contra hne
  by_cases hlt : monthFromDay leap n < m
  · have := monthStart_mono hl (show monthFromDay leap n + 1 ≤ m by omega) (by omega)
    omega
  · have := monthStart_mono hl (show m + 1 ≤ monthFromDay leap n by omega) (by omega)
    omega

/-! ## Civil dates -/

/-- `getUTCFullYear`, `getUTCMonth` (from zero) and `getUTCDate`. -/
structure Civil where
  year : Int
  month : Nat
  day : Int
  deriving DecidableEq, Repr

def civilFromDay (d : Int) : Civil :=
  let y := yearFromDay d
  let n := d - dayFromYear y
  let m := monthFromDay (leapDay y) n
  ⟨y, m, n - monthStart (leapDay y) m + 1⟩

/-- `MakeDay`: days outside the month run into its neighbours. -/
def makeDay (y : Int) (m : Nat) (day : Int) : Int :=
  dayFromYear y + monthStart (leapDay y) m + day - 1

/-- The day of `Date.UTC(y, m, day)`: two-digit years count from 1900. -/
def utcDay (y : Int) (m : Nat) (day : Int) : Int :=
  makeDay (if 0 ≤ y ∧ y ≤ 99 then 1900 + y else y) m day

/-- `getUTCDay`, with Sunday zero. -/
def weekDay (d : Int) : Int := (d + 4) % 7

/-- The bounds a civil date satisfies, and that it names the day it came from. -/
theorem civilFromDay_spec (d : Int) :
    (civilFromDay d).month < 12 ∧ 1 ≤ (civilFromDay d).day ∧
      (civilFromDay d).day ≤ 31 ∧
      makeDay (civilFromDay d).year (civilFromDay d).month (civilFromDay d).day = d := by
  obtain ⟨hlo, hhi⟩ := yearFromDay_spec d
  rw [dayFromYear_succ] at hhi
  obtain ⟨hm, hmlo, hmhi⟩ := monthFromDay_spec
    (leapDay (yearFromDay d)) (d - dayFromYear (yearFromDay d))
    (by omega) (by omega)
  have hlen : monthStart (leapDay (yearFromDay d))
        (monthFromDay (leapDay (yearFromDay d)) (d - dayFromYear (yearFromDay d)) + 1) ≤
      monthStart (leapDay (yearFromDay d))
        (monthFromDay (leapDay (yearFromDay d)) (d - dayFromYear (yearFromDay d))) + 31 := by
    have hl := leapDay_cases (yearFromDay d)
    generalize leapDay (yearFromDay d) = l at hl ⊢
    generalize monthFromDay l (d - dayFromYear (yearFromDay d)) = m
    match m with
    | 0 | 1 | 2 | 3 | 4 | 5 | 6 | 7 | 8 | 9 | 10 | 11 | _ + 12 =>
        simp only [monthStart]
        omega
  refine ⟨hm, ?_, ?_, ?_⟩
  · simp only [civilFromDay]; omega
  · simp only [civilFromDay]; omega
  · simp only [civilFromDay, makeDay]; omega

/-- The first day of a month has the year and the month of all its days. -/
theorem civilFromDay_first (d : Int) :
    civilFromDay (d - ((civilFromDay d).day - 1)) =
      ⟨(civilFromDay d).year, (civilFromDay d).month, 1⟩ := by
  obtain ⟨hylo, hyhi⟩ := yearFromDay_spec d
  have hl := leapDay_cases (yearFromDay d)
  have hlength := dayFromYear_succ (yearFromDay d)
  obtain ⟨hm, hmlo, hmhi⟩ := monthFromDay_spec (leapDay (yearFromDay d))
    (d - dayFromYear (yearFromDay d)) (by omega) (by omega)
  have hstart := monthStart_mono hl (Nat.zero_le _) (Nat.le_of_lt hm)
  have hzero : monthStart (leapDay (yearFromDay d)) 0 = 0 := rfl
  have hfirst : d - ((civilFromDay d).day - 1) =
      dayFromYear (yearFromDay d) + monthStart (leapDay (yearFromDay d))
        (monthFromDay (leapDay (yearFromDay d)) (d - dayFromYear (yearFromDay d))) := by
    simp only [civilFromDay]
    omega
  have hyear : yearFromDay (d - ((civilFromDay d).day - 1)) = yearFromDay d := by
    apply yearFromDay_eq <;> omega
  have hmonth := monthFromDay_eq hl hm
    (n := d - ((civilFromDay d).day - 1) - dayFromYear (yearFromDay d))
    (by omega) (by omega) (by omega) (by omega)
  rw [civilFromDay, hyear, hmonth, hfirst]
  simp only [civilFromDay]
  congr 1
  omega

/-- Later days have later civil dates, in dictionary order. -/
theorem civilFromDay_mono {d e : Int} (h : d ≤ e) :
    (civilFromDay d).year ≤ (civilFromDay e).year ∧
      ((civilFromDay d).year = (civilFromDay e).year →
        (civilFromDay d).month ≤ (civilFromDay e).month ∧
          ((civilFromDay d).month = (civilFromDay e).month →
            (civilFromDay d).day ≤ (civilFromDay e).day)) := by
  refine ⟨yearFromDay_mono h, fun hy => ?_⟩
  obtain ⟨hmd, hd1, _, hd⟩ := civilFromDay_spec d
  obtain ⟨hme, _, he31, he⟩ := civilFromDay_spec e
  rw [← hd, ← he, hy] at h
  simp only [makeDay] at h
  have hl := leapDay_cases (civilFromDay e).year
  obtain ⟨hdlo, hdhi⟩ := yearFromDay_spec d
  obtain ⟨_, hehi⟩ := yearFromDay_spec e
  rw [dayFromYear_succ] at hdhi hehi
  constructor
  · by_contra hlt
    -- the month of `e` ends before the month of `d` starts
    have hbracket := (monthFromDay_spec (leapDay (yearFromDay e))
      (e - dayFromYear (yearFromDay e)) (by
        have := (yearFromDay_spec e).1
        omega) (by omega)).2.2
    have hmono := monthStart_mono hl
      (show (civilFromDay e).month + 1 ≤ (civilFromDay d).month by omega)
      (by omega)
    have hday : (civilFromDay e).day = e - dayFromYear (yearFromDay e) -
        monthStart (leapDay (yearFromDay e)) (civilFromDay e).month + 1 := rfl
    have hyear : (civilFromDay e).year = yearFromDay e := rfl
    have hmonth : (civilFromDay e).month =
        monthFromDay (leapDay (yearFromDay e)) (e - dayFromYear (yearFromDay e)) := rfl
    rw [← hmonth] at hbracket
    rw [hyear] at hmono h
    omega
  · intro hm
    rw [hm] at h
    omega

end AgentWorth.Js.Date
