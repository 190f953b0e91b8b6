import AgentWorth.Lib.Date

/-!
# ISO timestamps

`toISOString` and the parser of ECMAScript date-time strings.  On four-digit
years the rendered strings sort chronologically and read back to the instant
they render.
-/

namespace AgentWorth.Js.Date

/-! ## Rendering -/

/-- `n` in `k` decimal digits. -/
def digits : Nat → Nat → List Char
  | 0, _ => []
  | k + 1, n => Nat.digitChar (n / 10 ^ k % 10) :: digits k (n % 10 ^ k)

/-- Years outside `0..9999` carry a sign and six digits. -/
def yearDigits (y : Int) : List Char :=
  if 0 ≤ y ∧ y ≤ 9999 then digits 4 y.toNat
  else (if y < 0 then '-' else '+') :: digits 6 y.natAbs

/-- The fields of an instant after its year, as rendered. -/
def fieldDigits (month day msInDay : Nat) : List Char :=
  '-' :: (digits 2 (month + 1) ++ '-' :: (digits 2 day ++ 'T' ::
    (digits 2 (msInDay / 3600000) ++ ':' :: (digits 2 (msInDay / 60000 % 60) ++ ':' ::
      (digits 2 (msInDay / 1000 % 60) ++ '.' :: (digits 3 (msInDay % 1000) ++ ['Z']))))))

/-- `new Date(t).toISOString()` at an integral time value. -/
def toIso (t : Int) : String :=
  let c := civilFromDay (t / msPerDay)
  String.ofList (yearDigits c.year ++
    fieldDigits c.month c.day.toNat (t % msPerDay).toNat)

/-- The largest time value a `Date` can hold. -/
def maxTime : Int := 8640000000000000

/-- `TimeClip`: integral part of a time value in range. -/
def timeClip : JsNumber → Option Int
  | .fin q =>
      let t := if q < 0 then -((-q).floor) else q.floor
      if t.natAbs ≤ maxTime.natAbs then some t else none
  | _ => none

/-- `new Date(x).toISOString()`, which throws on an invalid date. -/
def toISOString (x : JsNumber) : Except String String :=
  match timeClip x with
  | some t => .ok (toIso t)
  | none => .error "Invalid time value"

/-! ## Parsing -/

/-- Read exactly `k` digits onto `acc`. -/
def takeDigits (acc : Nat) : Nat → List Char → Option (Nat × List Char)
  | 0, cs => some (acc, cs)
  | _ + 1, [] => none
  | k + 1, c :: cs =>
      if c.isDigit then takeDigits (acc * 10 + (c.toNat - 48)) k cs else none

def parseYear : List Char → Option (Int × List Char)
  | '+' :: cs => (takeDigits 0 6 cs).map fun r => ((r.1 : Int), r.2)
  | '-' :: cs =>
      (takeDigits 0 6 cs).bind fun r => if r.1 = 0 then none else some (-(r.1 : Int), r.2)
  | cs => (takeDigits 0 4 cs).map fun r => ((r.1 : Int), r.2)

/-- An optional two-digit field introduced by `sep`. -/
def optField (sep : Char) (absent : Nat) : List Char → Option (Nat × List Char)
  | [] => some (absent, [])
  | c :: cs => if c = sep then takeDigits 0 2 cs else some (absent, c :: cs)

/-- An optional fraction of a second, in milliseconds; digits past the third
are dropped. -/
def optFraction : List Char → Option (Nat × List Char)
  | '.' :: cs =>
      let ds := cs.takeWhile Char.isDigit
      if ds = [] then none
      else some (Nat.ofDigitChars 10 ((ds ++ ['0', '0']).take 3) 0, cs.dropWhile Char.isDigit)
  | cs => some (0, cs)

/-- The offset from UTC in minutes.  A missing offset means UTC. -/
def parseZone : List Char → Option Int
  | [] | ['Z'] => some 0
  | c :: cs =>
      if c = '+' ∨ c = '-' then
        (takeDigits 0 2 cs).bind fun h => (optField ':' 0 h.2).bind fun m =>
          if m.2 = [] ∧ h.1 < 24 ∧ m.1 < 60 then
            some ((if c = '+' then 1 else -1) * ((h.1 : Int) * 60 + m.1))
          else none
      else none

/-- Milliseconds into the day and the offset, from what follows the date. -/
def parseTime : List Char → Option (Int × Int)
  | [] => some (0, 0)
  | 'T' :: cs =>
      (takeDigits 0 2 cs).bind fun h => (optField ':' 60 h.2).bind fun m =>
        (optField ':' 0 m.2).bind fun s => (optFraction s.2).bind fun f =>
          (parseZone f.2).bind fun zone =>
            let ms := h.1 * 3600000 + m.1 * 60000 + s.1 * 1000 + f.1
            if m.1 < 60 ∧ s.1 < 60 ∧ (h.1 < 24 ∨ ms = 86400000) then
              some ((ms : Int), zone)
            else none
  | _ => none

/-- `Date.parse(s)`: the time value of an ISO date or date-time string. -/
def parse (s : String) : Option Int :=
  (parseYear s.toList).bind fun y => (optField '-' 1 y.2).bind fun m =>
    (optField '-' 1 m.2).bind fun d => (parseTime d.2).bind fun t =>
      let v := makeDay y.1 (m.1 - 1) d.1 * msPerDay + t.1 - t.2 * 60000
      if 1 ≤ m.1 ∧ m.1 ≤ 12 ∧ 1 ≤ d.1 ∧ d.1 ≤ 31 ∧ v.natAbs ≤ maxTime.natAbs
      then some v else none

/-- `new Date(s).getTime()`. -/
def getTime (s : String) : JsNumber :=
  match parse s with
  | some t => .fin (t : ℚ)
  | none => .nan

/-- A parsed time value is one a `Date` can hold. -/
theorem natAbs_parse_le {s : String} {t : Int} (h : parse s = some t) :
    t.natAbs ≤ maxTime.natAbs := by
  simp only [parse, Option.bind_eq_some_iff] at h
  obtain ⟨y, -, m, -, d, -, zone, -, hvalue⟩ := h
  split at hvalue
  · next hrange =>
      cases hvalue
      exact hrange.2.2.2.2
  · cases hvalue

/-! ## Rendered timestamps are ASCII -/

theorem digits_ascii (k : Nat) : ∀ (n : Nat), ∀ c ∈ digits k n, c.toNat < 0x80 := by
  induction k with
  | zero => intro n c hc; cases hc
  | succ k ih =>
      intro n c hc
      rcases List.mem_cons.1 hc with rfl | hrest
      · have hdigit : ∀ d < 10, (Nat.digitChar d).toNat < 0x80 := by decide
        exact hdigit _ (Nat.mod_lt _ (by decide))
      · exact ih _ c hrest

theorem isAscii_toIso (t : Int) : IsAscii (toIso t) := by
  intro c hc
  rw [toIso, String.toList_ofList, List.mem_append] at hc
  rcases hc with hc | hc
  · unfold yearDigits at hc
    split at hc
    · exact digits_ascii _ _ c hc
    · rcases List.mem_cons.1 hc with rfl | hc
      · split <;> decide
      · exact digits_ascii _ _ c hc
  · have hsep : ∀ s ∈ ['-', 'T', ':', '.', 'Z'], s.toNat < 0x80 := by simp
    simp only [fieldDigits, List.mem_cons, List.mem_append, List.not_mem_nil, or_false] at hc
    rcases hc with rfl | hc | rfl | hc | rfl | hc | rfl | hc | rfl | hc | rfl | hc | rfl <;>
      first
        | exact digits_ascii _ _ c hc
        | exact hsep _ (by simp)

/-! ## Rendered timestamps sort chronologically -/

theorem charUnits_digitChar : ∀ {d : Nat}, d < 10 →
    charUnits (Nat.digitChar d) = [48 + d] := by
  decide

/-- Fixed-width decimals compare as the numbers they spell, then by what
follows them. -/
theorem unitsLt_digits (k : Nat) : ∀ (a b : Nat) (xs ys : List Nat),
    a < 10 ^ k → b < 10 ^ k →
    unitsLt ((digits k a).flatMap charUnits ++ xs)
        ((digits k b).flatMap charUnits ++ ys) =
      (decide (a < b) || (decide (a = b) && unitsLt xs ys)) := by
  induction k with
  | zero =>
      intro a b xs ys ha hb
      have : a = b := by simp at ha hb; omega
      subst this
      simp [digits]
  | succ k ih =>
      intro a b xs ys ha hb
      have hP : 0 < 10 ^ k := Nat.pos_of_ne_zero (by simp)
      rw [Nat.pow_succ] at ha hb
      have hqa : a / 10 ^ k < 10 := Nat.div_lt_of_lt_mul ha
      have hqb : b / 10 ^ k < 10 := Nat.div_lt_of_lt_mul hb
      have hra := Nat.mod_lt a hP
      have hrb := Nat.mod_lt b hP
      have hda := Nat.div_add_mod a (10 ^ k)
      have hdb := Nat.div_add_mod b (10 ^ k)
      simp only [digits, List.flatMap_cons, Nat.mod_eq_of_lt hqa, Nat.mod_eq_of_lt hqb,
        charUnits_digitChar hqa, charUnits_digitChar hqb, List.nil_append,
        List.cons_append, unitsLt]
      rw [ih _ _ xs ys hra hrb]
      rcases Nat.lt_trichotomy (a / 10 ^ k) (b / 10 ^ k) with hlt | heq | hgt
      · have hab : a < b := Nat.lt_of_div_lt_div hlt
        simp [hlt, hab]
      · rw [heq] at hda
        have h1 : (a % 10 ^ k < b % 10 ^ k) ↔ a < b := by omega
        have h2 : (a % 10 ^ k = b % 10 ^ k) ↔ a = b := by omega
        simp [heq, h1, h2]
      · have hba : b < a := Nat.lt_of_div_lt_div hgt
        have h1 : ¬ 48 + a / 10 ^ k < 48 + b / 10 ^ k := by omega
        have h2 : ¬ a / 10 ^ k = b / 10 ^ k := by omega
        have h3 : ¬ a < b := by omega
        have h4 : ¬ a = b := by omega
        simp [h1, h2, h3, h4]

/-- The instants whose year has four digits. -/
def FourDigitYear (t : Int) : Prop :=
  0 ≤ (civilFromDay (t / msPerDay)).year ∧ (civilFromDay (t / msPerDay)).year ≤ 9999

/-- The units of a rendered timestamp, ready for field-by-field comparison. -/
private theorem utf16_toIso {t : Int} (h : FourDigitYear t) :
    utf16 (toIso t) =
      (digits 4 (civilFromDay (t / msPerDay)).year.toNat).flatMap charUnits ++
        (fieldDigits (civilFromDay (t / msPerDay)).month
          (civilFromDay (t / msPerDay)).day.toNat (t % msPerDay).toNat).flatMap charUnits := by
  unfold FourDigitYear at h
  simp only [toIso, utf16, String.toList_ofList, yearDigits, if_pos h, List.flatMap_append]

private theorem unitsLt_fieldDigits {m d r m' d' r' : Nat} (hm : m < 12) (hd : d ≤ 31)
    (hr : r < 86400000) (hm' : m' < 12) (hd' : d' ≤ 31) (hr' : r' < 86400000) :
    unitsLt ((fieldDigits m d r).flatMap charUnits)
        ((fieldDigits m' d' r').flatMap charUnits) =
      decide (m < m' ∨ m = m' ∧ (d < d' ∨ d = d' ∧ r < r')) := by
  have hsep : ∀ (c : Char) (as bs : List Nat),
      unitsLt (charUnits c ++ as) (charUnits c ++ bs) = unitsLt as bs := by
    intro c as bs
    unfold charUnits
    split <;> simp [unitsLt]
  simp only [fieldDigits, List.flatMap_cons, List.flatMap_append, hsep]
  rw [unitsLt_digits 2 _ _ _ _ (by omega) (by omega), hsep,
    unitsLt_digits 2 _ _ _ _ (by omega) (by omega), hsep,
    unitsLt_digits 2 _ _ _ _ (by omega) (by omega), hsep,
    unitsLt_digits 2 _ _ _ _ (by omega) (by omega), hsep,
    unitsLt_digits 2 _ _ _ _ (by omega) (by omega), hsep,
    unitsLt_digits 3 _ _ _ _ (by omega) (by omega)]
  rw [unitsLt_irrefl, Bool.eq_iff_iff]
  simp only [Bool.or_eq_true, Bool.and_eq_true, decide_eq_true_eq, Bool.false_eq_true,
    and_false, or_false]
  omega

theorem strLt_toIso_of_lt {s t : Int} (hs : FourDigitYear s) (ht : FourDigitYear t)
    (h : s < t) : strLt (toIso s) (toIso t) = true := by
  have hday : s / msPerDay ≤ t / msPerDay := Int.ediv_le_ediv (by decide) (Int.le_of_lt h)
  obtain ⟨hy, hrest⟩ := civilFromDay_mono hday
  obtain ⟨hms, hds1, hds31, hsd⟩ := civilFromDay_spec (s / msPerDay)
  obtain ⟨hmt, hdt1, hdt31, htd⟩ := civilFromDay_spec (t / msPerDay)
  obtain ⟨hs0, hs9⟩ := hs
  obtain ⟨ht0, ht9⟩ := ht
  have hrs : (s % msPerDay).toNat < 86400000 := by unfold msPerDay; omega
  have hrt : (t % msPerDay).toNat < 86400000 := by unfold msPerDay; omega
  rw [strLt, utf16_toIso ⟨hs0, hs9⟩, utf16_toIso ⟨ht0, ht9⟩,
    unitsLt_digits 4 _ _ _ _ (by omega) (by omega),
    unitsLt_fieldDigits hms (by omega) hrs hmt (by omega) hrt]
  simp only [Bool.or_eq_true, Bool.and_eq_true, decide_eq_true_eq]
  by_cases hyeq : (civilFromDay (s / msPerDay)).year = (civilFromDay (t / msPerDay)).year
  · obtain ⟨hm, hmd⟩ := hrest hyeq
    right
    refine ⟨by rw [hyeq], ?_⟩
    by_cases hmeq : (civilFromDay (s / msPerDay)).month =
        (civilFromDay (t / msPerDay)).month
    · right
      refine ⟨hmeq, ?_⟩
      have hd := hmd hmeq
      by_cases hdeq : (civilFromDay (s / msPerDay)).day = (civilFromDay (t / msPerDay)).day
      · -- same civil date, so the same day, and the order is that within it
        have hsame : s / msPerDay = t / msPerDay := by
          rw [← hsd, ← htd, hyeq, hmeq, hdeq]
        right
        refine ⟨by rw [hdeq], ?_⟩
        have hs' := Int.mul_ediv_add_emod s msPerDay
        have ht' := Int.mul_ediv_add_emod t msPerDay
        have hs0' := Int.emod_nonneg s (show msPerDay ≠ 0 by decide)
        rw [hsame] at hs'
        omega
      · left; omega
    · left; omega
  · left; omega

/-- **Timestamps compare chronologically.**  The string comparison the program
performs on rendered timestamps is the order of the instants. -/
theorem strLt_toIso {s t : Int} (hs : FourDigitYear s) (ht : FourDigitYear t) :
    strLt (toIso s) (toIso t) = true ↔ s < t := by
  constructor
  · intro h
    rcases Int.lt_trichotomy s t with hlt | heq | hgt
    · exact hlt
    · rw [heq, strLt_irrefl] at h
      exact absurd h Bool.false_ne_true
    · rw [strLt_asymm (strLt_toIso_of_lt ht hs hgt)] at h
      exact absurd h Bool.false_ne_true
  · exact strLt_toIso_of_lt hs ht

/-- Years that need a sign are written before every year that does not. -/
theorem strLt_toIso_signed {t u : Int} (ht : FourDigitYear t) (hu : ¬ FourDigitYear u) :
    strLt (toIso t) (toIso u) = false := by
  have hdigit : ∀ d < 10, ∀ sign : Char, sign = '-' ∨ sign = '+' → ∀ as bs : List Nat,
      unitsLt (charUnits (Nat.digitChar d) ++ as) (charUnits sign ++ bs) = false := by
    intro d hd sign hsign as bs
    have hunit := charUnits_digitChar hd
    rcases hsign with rfl | rfl
    · rw [hunit, show charUnits '-' = [45] by decide]
      simp only [List.cons_append, List.nil_append, unitsLt]
      have h1 : ¬ 48 + d < 45 := by omega
      have h2 : ¬ 48 + d = 45 := by omega
      simp [h1, h2]
    · rw [hunit, show charUnits '+' = [43] by decide]
      simp only [List.cons_append, List.nil_append, unitsLt]
      have h1 : ¬ 48 + d < 43 := by omega
      have h2 : ¬ 48 + d = 43 := by omega
      simp [h1, h2]
  unfold FourDigitYear at ht hu
  unfold strLt utf16 toIso
  simp only [String.toList_ofList, yearDigits, if_pos ht, if_neg hu, digits, List.cons_append,
    List.flatMap_cons]
  refine hdigit _ (Nat.mod_lt _ (by decide)) _ ?_ _ _
  split
  · exact Or.inl rfl
  · exact Or.inr rfl

/-- An instant no earlier than `x` is written no earlier than `x` is. -/
theorem not_strLt_toISOString {x : ℚ} {t : Int} {s : String} (ht : FourDigitYear t)
    (hs : toISOString (.fin x) = .ok s) (hx : x ≤ t) : strLt (toIso t) s = false := by
  unfold toISOString at hs
  split at hs
  · next u hclip =>
      have hu : u ≤ t := by
        simp only [timeClip, Option.ite_none_right_eq_some, Option.some.injEq] at hclip
        obtain ⟨-, htrunc⟩ := hclip
        by_cases hneg : x < 0
        · rw [if_pos hneg] at htrunc
          have hfloor : -x < (((-x).floor : Int) : ℚ) + 1 := Int.lt_floor_add_one (-x)
          have hlt : ((-(t : ℤ) - 1 : Int) : ℚ) < (((-x).floor : Int) : ℚ) := by
            push_cast
            linarith
          have hlt' : -t - 1 < (-x).floor := by exact_mod_cast hlt
          omega
        · rw [if_neg hneg] at htrunc
          have hfloor : ((x.floor : Int) : ℚ) ≤ (t : ℚ) := (Int.floor_le x).trans hx
          have hle : x.floor ≤ t := by exact_mod_cast hfloor
          omega
      cases hs
      by_cases hyear : FourDigitYear u
      · rw [← Bool.not_eq_true, strLt_toIso ht hyear]
        omega
      · exact strLt_toIso_signed ht hyear
  · cases hs

/-! ## Rendered timestamps read back -/

theorem takeDigits_digits (k : Nat) : ∀ (n acc : Nat) (rest : List Char),
    n < 10 ^ k → takeDigits acc k (digits k n ++ rest) = some (acc * 10 ^ k + n, rest) := by
  induction k with
  | zero =>
      intro n acc rest hn
      have : n = 0 := by simpa using hn
      simp [digits, takeDigits, this]
  | succ k ih =>
      intro n acc rest hn
      have hP : 0 < 10 ^ k := Nat.pos_of_ne_zero (by simp)
      rw [Nat.pow_succ] at hn
      have hq : n / 10 ^ k < 10 := Nat.div_lt_of_lt_mul hn
      have hdigit : ∀ d < 10, (Nat.digitChar d).isDigit = true ∧
          (Nat.digitChar d).toNat - 48 = d := by
        decide
      simp only [digits, List.cons_append, takeDigits, Nat.mod_eq_of_lt hq,
        (hdigit _ hq).1, if_true, (hdigit _ hq).2]
      rw [ih _ _ _ (Nat.mod_lt n hP)]
      have hdm := Nat.div_add_mod n (10 ^ k)
      congr 2
      rw [Nat.pow_succ, Nat.add_mul]
      rw [Nat.mul_comm (n / 10 ^ k) (10 ^ k), Nat.mul_assoc acc, Nat.mul_comm 10]
      omega

theorem digitChar_facts : ∀ d < 10, Nat.digitChar d ≠ '+' ∧
    Nat.digitChar d ≠ '-' ∧ (Nat.digitChar d).isDigit = true ∧
    (Nat.digitChar d).toNat - 48 = d := by
  decide

theorem parseYear_digits {n : Nat} (hn : n < 10000) (rest : List Char) :
    parseYear (digits 4 n ++ rest) = some ((n : Int), rest) := by
  have htake := takeDigits_digits 4 n 0 rest (by omega)
  simp only [digits, List.cons_append, List.nil_append] at htake ⊢
  obtain ⟨hplus, hminus, _⟩ := digitChar_facts (n / 10 ^ 3 % 10) (by omega)
  rw [parseYear, htake]
  · simp
  · intro cs h
    exact hplus (List.cons.inj h).1
  · intro cs h
    exact hminus (List.cons.inj h).1

theorem optField_digits (sep : Char) (absent n : Nat) (hn : n < 100)
    (rest : List Char) :
    optField sep absent (sep :: (digits 2 n ++ rest)) = some (n, rest) := by
  simp only [optField, if_pos, takeDigits_digits 2 n 0 rest (by omega)]
  simp

private theorem optFraction_digits {n : Nat} (hn : n < 1000) :
    optFraction ('.' :: (digits 3 n ++ ['Z'])) = some (n, ['Z']) := by
  obtain ⟨_, _, h2, v2⟩ := digitChar_facts (n / 10 ^ 2 % 10) (by omega)
  obtain ⟨_, _, h1, v1⟩ := digitChar_facts (n % 10 ^ 2 / 10 ^ 1 % 10) (by omega)
  obtain ⟨_, _, h0, v0⟩ := digitChar_facts (n % 10 ^ 2 % 10 ^ 1 / 10 ^ 0 % 10) (by omega)
  have hz : 'Z'.isDigit = false := rfl
  simp only [digits, List.cons_append, List.nil_append, optFraction,
    List.takeWhile_cons, List.dropWhile_cons, h2, h1, h0, hz, if_true,
    reduceCtorEq, if_false, List.take_succ_cons, List.take_zero,
    Nat.ofDigitChars_cons, Nat.ofDigitChars_nil]
  have hval : ∀ c : Char, c.toNat - '0'.toNat = c.toNat - 48 := fun _ => rfl
  simp only [hval, v2, v1, v0]
  simp only [Option.some.injEq, Prod.mk.injEq, and_true]
  omega

/-- Four-digit years lie within the range of `Date`. -/
theorem natAbs_le_maxTime {t : Int} (h : FourDigitYear t) :
    t.natAbs ≤ maxTime.natAbs := by
  obtain ⟨hy0, hy9⟩ := h
  have hlo := (yearFromDay_spec (t / msPerDay)).1
  have hhi := (yearFromDay_spec (t / msPerDay)).2
  have h0 := dayFromYear_mono (show (0 : Int) ≤ yearFromDay (t / msPerDay) from hy0)
  have h9 := dayFromYear_mono
    (show yearFromDay (t / msPerDay) + 1 ≤ 10000 from Int.add_le_add_right hy9 1)
  have e0 : dayFromYear 0 = -719528 := by decide
  have e9 : dayFromYear 10000 = 2932897 := by decide
  simp only [msPerDay, maxTime] at *
  omega

/-- The years of four digits, as time values. -/
theorem fourDigitYear_iff {t : Int} :
    FourDigitYear t ↔ -62167219200000 ≤ t ∧ t < 253402300800000 := by
  obtain ⟨hlo, hhi⟩ := yearFromDay_spec (t / msPerDay)
  have hfirst : dayFromYear 0 = -719528 := by decide
  have hlast : dayFromYear 10000 = 2932897 := by decide
  have hday : -719528 ≤ t / msPerDay ∧ t / msPerDay < 2932897 ↔
      -62167219200000 ≤ t ∧ t < 253402300800000 := by
    unfold msPerDay
    omega
  show 0 ≤ yearFromDay (t / msPerDay) ∧ yearFromDay (t / msPerDay) ≤ 9999 ↔ _
  rw [← hday]
  constructor
  · rintro ⟨h0, h9⟩
    have hmin := dayFromYear_mono h0
    have hmax := dayFromYear_mono
      (show yearFromDay (t / msPerDay) + 1 ≤ 10000 from Int.add_le_add_right h9 1)
    omega
  · rintro ⟨hmin, hmax⟩
    constructor
    · by_contra hneg
      have := dayFromYear_mono (show yearFromDay (t / msPerDay) + 1 ≤ 0 by omega)
      omega
    · by_contra hlarge
      have := dayFromYear_mono (show 10000 ≤ yearFromDay (t / msPerDay) by omega)
      omega

/-- A date of an integral time value, in range or not. -/
theorem toISOString_int (t : Int) :
    toISOString (.fin (t : ℚ)) =
      if t.natAbs ≤ maxTime.natAbs then .ok (toIso t) else .error "Invalid time value" := by
  have hclip : timeClip (.fin (t : ℚ)) = if t.natAbs ≤ maxTime.natAbs then some t else none := by
    have hfloor : ((t : ℚ)).floor = t := Rat.floor_intCast t
    have hneg : -((-(t : ℚ)).floor) = t := by
      rw [← Int.cast_neg, Rat.floor_intCast, Int.neg_neg]
    simp only [timeClip, hfloor, hneg, ite_self]
  unfold toISOString
  rw [hclip]
  split_ifs <;> rfl

theorem toISOString_intCast {t : Int} (h : FourDigitYear t) :
    toISOString (.fin (t : ℚ)) = .ok (toIso t) := by
  rw [toISOString_int, if_pos (natAbs_le_maxTime h)]

/-- **Rendered timestamps read back.** -/
theorem parse_toIso {t : Int} (h : FourDigitYear t) : parse (toIso t) = some t := by
  obtain ⟨hm, hd1, hd31, hday⟩ := civilFromDay_spec (t / msPerDay)
  obtain ⟨hy0, hy9⟩ := id h
  have hsplit := Int.mul_ediv_add_emod t msPerDay
  have hmod0 := Int.emod_nonneg t (show msPerDay ≠ 0 by decide)
  have hmod1 := Int.emod_lt_of_pos t (show 0 < msPerDay by decide)
  have hr : (t % msPerDay).toNat < 86400000 := by unfold msPerDay at hmod1 ⊢; omega
  have hrange := natAbs_le_maxTime h
  generalize hR : (t % msPerDay).toNat = r at hr
  generalize hC : civilFromDay (t / msPerDay) = c at *
  simp only [parse, toIso, String.toList_ofList, hC, hR, yearDigits,
    if_pos (And.intro hy0 hy9), fieldDigits]
  rw [parseYear_digits (by omega)]
  simp only [Option.bind_some]
  rw [optField_digits '-' 1 (c.month + 1) (by omega)]
  simp only [Option.bind_some]
  rw [optField_digits '-' 1 c.day.toNat (by omega)]
  simp only [Option.bind_some, parseTime]
  rw [takeDigits_digits 2 _ 0 _ (by omega)]
  simp only [Option.bind_some]
  rw [optField_digits ':' 60 _ (by omega)]
  simp only [Option.bind_some]
  rw [optField_digits ':' 0 _ (by omega)]
  simp only [Option.bind_some]
  rw [optFraction_digits (by omega)]
  have hms : r / 3600000 * 3600000 + r / 60000 % 60 * 60000 + r / 1000 % 60 * 1000 +
      r % 1000 = r := by omega
  have htime : makeDay c.year c.month c.day * msPerDay + (r : Int) = t := by
    rw [hday, Int.mul_comm]
    omega
  simp only [Option.bind_some, parseZone, Nat.zero_mul, Nat.zero_add]
  rw [if_pos (by omega)]
  simp only [Option.bind_some, hms, Int.toNat_of_nonneg hy0, Nat.add_sub_cancel,
    Int.toNat_of_nonneg (show 0 ≤ c.day by omega), Int.zero_mul, Int.sub_zero, htime]
  rw [if_pos ⟨by omega, by omega, by omega, by omega, hrange⟩]

theorem getTime_toIso {t : Int} (h : FourDigitYear t) : getTime (toIso t) = .fin (t : ℚ) := by
  unfold getTime
  rw [parse_toIso h]

end AgentWorth.Js.Date
