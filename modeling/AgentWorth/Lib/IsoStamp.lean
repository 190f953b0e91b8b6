import AgentWorth.Lib.Sorting
import AgentWorth.Lib.Timestamp

/-!
# Timestamps with offsets and fractions

ISO 8601 date-times in the extended form: a date, a time to the second, an
optional fraction, and `Z` or an offset.  Their texts are ordered by what a
clock on the wall shows, whatever the offset; only where two readings agree to
the second do the rest of the texts count.
-/

namespace AgentWorth.Js.Date

/-- `Z`, or an offset from UTC in hours and minutes. -/
inductive Zone where
  | utc
  | ahead (hours : Fin 24) (minutes : Fin 60)
  | behind (hours : Fin 24) (minutes : Fin 60)
  deriving DecidableEq

/-- Minutes ahead of UTC. -/
def Zone.offset : Zone → Int
  | .utc => 0
  | .ahead h m => h.val * 60 + m.val
  | .behind h m => -(h.val * 60 + m.val)

/-- A date-time: the day, counted from the epoch, and the second of it that the
wall shows, the digits of the fraction, and the zone. -/
structure IsoStamp where
  day : Int
  second : Fin 86400
  fraction : List (Fin 10)
  zone : Zone
  fourDigitYear : 0 ≤ (civilFromDay day).year ∧ (civilFromDay day).year ≤ 9999

/-! ## The text -/

def Zone.text : Zone → List Char
  | .utc => ['Z']
  | .ahead h m => '+' :: (digits 2 h.val ++ ':' :: digits 2 m.val)
  | .behind h m => '-' :: (digits 2 h.val ++ ':' :: digits 2 m.val)

def fractionDigits (ds : List (Fin 10)) : List Char := ds.map fun d => Nat.digitChar d.val

/-- The rest of a text after its seconds. -/
def tailText (ds : List (Fin 10)) (zone : Zone) : List Char :=
  (if ds = [] then [] else '.' :: fractionDigits ds) ++ zone.text

/-- Date and time to the second. -/
def wallText (day : Int) (second : Nat) : List Char :=
  yearDigits (civilFromDay day).year ++
    '-' :: (digits 2 ((civilFromDay day).month + 1) ++
      '-' :: (digits 2 (civilFromDay day).day.toNat ++
        'T' :: (digits 2 (second / 3600) ++ ':' :: (digits 2 (second / 60 % 60) ++
          ':' :: digits 2 (second % 60)))))

def IsoStamp.text (a : IsoStamp) : String :=
  String.ofList (wallText a.day a.second ++ tailText a.fraction a.zone)

/-! ## The instant -/

/-- What the wall shows, as seconds since the epoch. -/
def IsoStamp.wall (a : IsoStamp) : Int := a.day * 86400 + a.second.val

def fractionValue : List (Fin 10) → ℚ
  | [] => 0
  | d :: ds => (d.val + fractionValue ds) / 10

/-- Seconds since the epoch. -/
def IsoStamp.instant (a : IsoStamp) : ℚ :=
  a.wall + fractionValue a.fraction - a.zone.offset * 60

/-- Midnight of a day, with three digits of fraction, as a date prints it. -/
def midnight (day : Int)
    (h : 0 ≤ (civilFromDay day).year ∧ (civilFromDay day).year ≤ 9999) : IsoStamp where
  day := day
  second := 0
  fraction := [0, 0, 0]
  zone := .utc
  fourDigitYear := h

/-! ## The order of the texts -/

/-- The order of zone texts: ahead, behind, `Z`, and each by its digits. -/
def zoneLt : Zone → Zone → Bool
  | .ahead h m, .ahead h' m' => decide (h < h' ∨ h = h' ∧ m < m')
  | .behind h m, .behind h' m' => decide (h < h' ∨ h = h' ∧ m < m')
  | .ahead _ _, _ => true
  | .behind _ _, .utc => true
  | _, _ => false

/-- The order of the texts after the seconds: an offset comes before a further
digit, `Z` after it. -/
def tailLt : List (Fin 10) → Zone → List (Fin 10) → Zone → Bool
  | [], z, [], z' => zoneLt z z'
  | [], z, _ :: _, _ => z != .utc
  | _ :: _, _, [], z' => z' == .utc
  | d :: ds, z, d' :: ds', z' => decide (d < d') || (decide (d = d') && tailLt ds z ds' z')

/-- The order of the texts. -/
def Before (a b : IsoStamp) : Prop :=
  a.wall < b.wall ∨ a.wall = b.wall ∧ tailLt a.fraction a.zone b.fraction b.zone = true

instance (a b : IsoStamp) : Decidable (Before a b) := inferInstanceAs (Decidable (_ ∨ _))

private theorem charUnits_fin (d : Fin 10) : charUnits (Nat.digitChar d.val) = [48 + d.val] :=
  charUnits_digitChar d.isLt

theorem unitsLt_cons_self (u : Nat) (as bs : List Nat) :
    unitsLt (u :: as) (u :: bs) = unitsLt as bs := by
  simp [unitsLt]

private theorem unitsLt_hours_minutes (h h' : Fin 24) (m m' : Fin 60) :
    unitsLt ((digits 2 h.val ++ ':' :: digits 2 m.val).flatMap charUnits)
        ((digits 2 h'.val ++ ':' :: digits 2 m'.val).flatMap charUnits) =
      decide (h < h' ∨ h = h' ∧ m < m') := by
  have hcolon : charUnits ':' = [58] := by decide
  have hnil := unitsLt_digits 2 m.val m'.val [] [] (by omega) (by omega)
  rw [List.append_nil, List.append_nil] at hnil
  rw [List.flatMap_append, List.flatMap_append, List.flatMap_cons, List.flatMap_cons, hcolon,
    unitsLt_digits 2 _ _ _ _ (by omega) (by omega), List.singleton_append, List.singleton_append,
    unitsLt_cons_self, hnil, unitsLt_irrefl, Bool.eq_iff_iff]
  simp only [Bool.or_eq_true, Bool.and_eq_true, decide_eq_true_eq, Bool.false_eq_true, and_false,
    or_false, Fin.lt_def, Fin.ext_iff]

theorem unitsLt_zoneText (z z' : Zone) :
    unitsLt (z.text.flatMap charUnits) (z'.text.flatMap charUnits) = zoneLt z z' := by
  have hplus : charUnits '+' = [43] := by decide
  have hminus : charUnits '-' = [45] := by decide
  have hutc : charUnits 'Z' = [90] := by decide
  cases z <;> cases z' <;>
    simp only [Zone.text, List.flatMap_cons, hplus, hminus, hutc, List.flatMap_nil,
      List.singleton_append, unitsLt_cons_self, unitsLt_hours_minutes, zoneLt]
  all_goals simp [unitsLt]

/-- The first unit of a zone text. -/
theorem zoneText_units (z : Zone) : ∃ u us, z.text.flatMap charUnits = u :: us ∧
    (z = .utc ∧ u = 90 ∨ z ≠ .utc ∧ (u = 43 ∨ u = 45)) := by
  have hplus : charUnits '+' = [43] := by decide
  have hminus : charUnits '-' = [45] := by decide
  have hutc : charUnits 'Z' = [90] := by decide
  cases z with
  | utc => exact ⟨90, [], by simp [Zone.text, hutc], .inl ⟨rfl, rfl⟩⟩
  | ahead h m =>
      refine ⟨43, (digits 2 h.val ++ ':' :: digits 2 m.val).flatMap charUnits, ?_,
        .inr ⟨by simp, .inl rfl⟩⟩
      rw [Zone.text, List.flatMap_cons, hplus, List.singleton_append]
  | behind h m =>
      refine ⟨45, (digits 2 h.val ++ ':' :: digits 2 m.val).flatMap charUnits, ?_,
        .inr ⟨by simp, .inr rfl⟩⟩
      rw [Zone.text, List.flatMap_cons, hminus, List.singleton_append]

/-- A zone text before and after a unit from the point to the digit nine. -/
theorem unitsLt_zone_digit (z : Zone) {u : Nat} (hlo : 46 ≤ u) (hhi : u ≤ 57) (us : List Nat) :
    unitsLt (z.text.flatMap charUnits) (u :: us) = (z != .utc) ∧
      unitsLt (u :: us) (z.text.flatMap charUnits) = (z == .utc) := by
  obtain ⟨v, vs, hv, hcase⟩ := zoneText_units z
  rw [hv]
  simp only [unitsLt]
  rcases hcase with ⟨rfl, rfl⟩ | ⟨hne, hsign⟩
  · have h1 : ¬ 90 < u := by omega
    have h2 : ¬ 90 = u := by omega
    have h3 : u < 90 := by omega
    simp [h1, h2, h3]
  · have h1 : v < u := by omega
    have h2 : ¬ u < v := by omega
    have h3 : ¬ u = v := by omega
    simp [h1, h2, h3, hne]

theorem unitsLt_fraction (z z' : Zone) : ∀ ds ds' : List (Fin 10),
    unitsLt ((fractionDigits ds ++ z.text).flatMap charUnits)
        ((fractionDigits ds' ++ z'.text).flatMap charUnits) = tailLt ds z ds' z'
  | [], [] => unitsLt_zoneText z z'
  | [], d' :: ds' => by
      simp only [fractionDigits, List.map_nil, List.nil_append, List.map_cons, List.cons_append,
        List.flatMap_cons, charUnits_fin, tailLt]
      exact (unitsLt_zone_digit z (by omega) (by omega) _).1
  | d :: ds, [] => by
      simp only [fractionDigits, List.map_nil, List.nil_append, List.map_cons, List.cons_append,
        List.flatMap_cons, charUnits_fin, tailLt]
      exact (unitsLt_zone_digit z' (by omega) (by omega) _).2
  | d :: ds, d' :: ds' => by
      have ih := unitsLt_fraction z z' ds ds'
      simp only [fractionDigits] at ih
      simp only [fractionDigits, List.map_cons, List.cons_append, List.flatMap_cons,
        charUnits_fin, tailLt, List.nil_append, unitsLt, ih]
      congr 1
      · exact decide_eq_decide.2 (by rw [Fin.lt_def]; omega)
      · congr 1
        exact decide_eq_decide.2 (by rw [Fin.ext_iff]; omega)

theorem unitsLt_tailText (ds ds' : List (Fin 10)) (z z' : Zone) :
    unitsLt ((tailText ds z).flatMap charUnits) ((tailText ds' z').flatMap charUnits) =
      tailLt ds z ds' z' := by
  have hpoint : charUnits '.' = [46] := by decide
  cases ds with
  | nil =>
      cases ds' with
      | nil => exact unitsLt_zoneText z z'
      | cons d' ds' =>
          rw [tailText, tailText, if_pos rfl, if_neg (List.cons_ne_nil _ _), List.nil_append,
            List.cons_append, List.flatMap_cons, hpoint]
          exact (unitsLt_zone_digit z (by omega) (by omega) _).1
  | cons d ds =>
      cases ds' with
      | nil =>
          rw [tailText, tailText, if_pos rfl, if_neg (List.cons_ne_nil _ _), List.nil_append,
            List.cons_append, List.flatMap_cons, hpoint]
          exact (unitsLt_zone_digit z' (by omega) (by omega) _).2
      | cons d' ds' =>
          rw [tailText, tailText, if_neg (List.cons_ne_nil _ _), if_neg (List.cons_ne_nil _ _),
            List.cons_append, List.cons_append, List.flatMap_cons, List.flatMap_cons, hpoint,
            List.singleton_append, List.singleton_append, unitsLt_cons_self]
          exact unitsLt_fraction z z' (d :: ds) (d' :: ds')

/-- Texts of one length, and what follows them. -/
theorem unitsLt_append : ∀ {as bs : List Nat} (xs ys : List Nat), as.length = bs.length →
    unitsLt (as ++ xs) (bs ++ ys) = (unitsLt as bs || (decide (as = bs) && unitsLt xs ys))
  | [], [], _, _, _ => by simp [unitsLt]
  | a :: as, b :: bs, xs, ys, h => by
      have ih := unitsLt_append xs ys (Nat.succ.inj h)
      simp only [List.cons_append, unitsLt, ih, List.cons.injEq, Bool.decide_and]
      cases decide (a = b) <;> simp [Bool.or_assoc]

/-- The units of a reading are as many as its characters. -/
theorem length_wallUnits {day : Int} {second : Nat}
    (h : 0 ≤ (civilFromDay day).year ∧ (civilFromDay day).year ≤ 9999) :
    ((wallText day second).flatMap charUnits).length = 19 := by
  have hunits : ∀ k n : Nat, ((digits k n).flatMap charUnits).length = k := by
    intro k
    induction k with
    | zero => exact fun _ => rfl
    | succ k ih =>
        intro n
        rw [digits, List.flatMap_cons, charUnits_digitChar (Nat.mod_lt _ (by decide)),
          List.length_append, ih]
        exact Nat.add_comm 1 k
  have hdash : charUnits '-' = [45] := by decide
  have hcolon : charUnits ':' = [58] := by decide
  have htime : charUnits 'T' = [84] := by decide
  simp only [wallText, yearDigits, if_pos h, List.flatMap_append, List.flatMap_cons, hdash,
    hcolon, htime, List.length_append, hunits, List.length_cons, List.length_nil]

/-- A reading with three zeros and `Z` is the text of a date. -/
theorem toIso_wall (day : Int) {second : Nat} (h : second < 86400) :
    toIso ((day * 86400 + second) * 1000) =
      String.ofList (wallText day second ++ tailText [0, 0, 0] .utc) := by
  have hday : (day * 86400 + second) * 1000 / msPerDay = day := by
    unfold msPerDay
    omega
  have hms : ((day * 86400 + second) * 1000 % msPerDay).toNat = second * 1000 := by
    unfold msPerDay
    omega
  have hhour : second * 1000 / 3600000 = second / 3600 := by omega
  have hminute : second * 1000 / 60000 = second / 60 := by omega
  have hsecond : second * 1000 / 1000 = second := by omega
  have hzero : second * 1000 % 1000 = 0 := by omega
  have htail : '.' :: (digits 3 0 ++ ['Z']) = tailText [0, 0, 0] .utc := by decide
  unfold toIso
  rw [hday, hms]
  simp only [fieldDigits, wallText, hhour, hminute, hsecond, hzero, htail, List.append_assoc,
    List.cons_append]

/-- **Texts are ordered by their readings, and by their tails where these
agree.** -/
theorem strLt_text_iff (a b : IsoStamp) : strLt a.text b.text = true ↔ Before a b := by
  have htext : ∀ c : IsoStamp, utf16 c.text = (wallText c.day c.second).flatMap charUnits ++
      (tailText c.fraction c.zone).flatMap charUnits := by
    intro c
    rw [utf16, IsoStamp.text, String.toList_ofList, List.flatMap_append]
  have hround : ∀ c : IsoStamp, utf16 (toIso (c.wall * 1000)) =
      (wallText c.day c.second).flatMap charUnits ++
        (tailText [0, 0, 0] .utc).flatMap charUnits := by
    intro c
    rw [IsoStamp.wall, toIso_wall c.day c.second.isLt, utf16, String.toList_ofList,
      List.flatMap_append]
  have hyear : ∀ c : IsoStamp, FourDigitYear (c.wall * 1000) := by
    intro c
    have hday : c.wall * 1000 / msPerDay = c.day := by
      unfold IsoStamp.wall msPerDay
      omega
    unfold FourDigitYear
    rw [hday]
    exact c.fourDigitYear
  have hlength : ∀ c d : IsoStamp, ((wallText c.day c.second).flatMap charUnits).length =
      ((wallText d.day d.second).flatMap charUnits).length := fun c d => by
    rw [length_wallUnits c.fourDigitYear, length_wallUnits d.fourDigitYear]
  -- the dates at the full seconds order the readings
  have hwall : ∀ c d : IsoStamp, unitsLt ((wallText c.day c.second).flatMap charUnits)
      ((wallText d.day d.second).flatMap charUnits) = true ↔ c.wall < d.wall := by
    intro c d
    have hdates := strLt_toIso (hyear c) (hyear d)
    rw [strLt, hround, hround, unitsLt_append _ _ (hlength c d), unitsLt_irrefl, Bool.and_false,
      Bool.or_false] at hdates
    rw [hdates]
    omega
  have hsame : (wallText a.day a.second).flatMap charUnits =
      (wallText b.day b.second).flatMap charUnits ↔ a.wall = b.wall := by
    constructor
    · intro h
      have hab : ¬ a.wall < b.wall := by
        rw [← hwall, h, unitsLt_irrefl]
        exact Bool.false_ne_true
      have hba : ¬ b.wall < a.wall := by
        rw [← hwall, h, unitsLt_irrefl]
        exact Bool.false_ne_true
      omega
    · intro h
      refine unitsLt_trichotomy ?_ ?_
      · rw [← Bool.not_eq_true, hwall]
        omega
      · rw [← Bool.not_eq_true, hwall]
        omega
  rw [strLt, htext, htext, unitsLt_append _ _ (hlength a b), unitsLt_tailText, Bool.or_eq_true,
    Bool.and_eq_true, decide_eq_true_eq, hwall, hsame]
  rfl

theorem zoneLt_trichotomy {z z' : Zone} (h : zoneLt z z' = false) (h' : zoneLt z' z = false) :
    z = z' := by
  cases z <;> cases z' <;>
    simp only [zoneLt, decide_eq_false_iff_not, not_or, not_and, Bool.true_eq_false]
      at h h' ⊢
  all_goals
    simp only [Zone.ahead.injEq, Zone.behind.injEq, Fin.ext_iff] at *
    omega

theorem tailLt_trichotomy {z z' : Zone} : ∀ {ds ds' : List (Fin 10)},
    tailLt ds z ds' z' = false → tailLt ds' z' ds z = false → ds = ds' ∧ z = z'
  | [], [], h, h' => ⟨rfl, zoneLt_trichotomy h h'⟩
  | [], d' :: ds', h, h' => by
      simp only [tailLt, bne_eq_false_iff_eq, beq_eq_false_iff_ne] at h h'
      exact absurd h h'
  | d :: ds, [], h, h' => by
      simp only [tailLt, bne_eq_false_iff_eq, beq_eq_false_iff_ne] at h h'
      exact absurd h' h
  | d :: ds, d' :: ds', h, h' => by
      simp only [tailLt, Bool.or_eq_false_iff, decide_eq_false_iff_not, Bool.and_eq_false_imp,
        decide_eq_true_eq, Fin.lt_def, Fin.ext_iff] at h h'
      have hd : d.val = d'.val := by omega
      obtain ⟨rfl, rfl⟩ := tailLt_trichotomy (h.2 hd) (h'.2 hd.symm)
      exact ⟨by rw [Fin.ext hd], rfl⟩

/-- A date-time has one text. -/
theorem IsoStamp.ext_text {a b : IsoStamp} (h : a.text = b.text) : a = b := by
  have hab : ¬ Before a b := by
    rw [← strLt_text_iff, h, strLt_irrefl]
    exact Bool.false_ne_true
  have hba : ¬ Before b a := by
    rw [← strLt_text_iff, h, strLt_irrefl]
    exact Bool.false_ne_true
  simp only [Before, not_or, not_lt, not_and, Bool.not_eq_true] at hab hba
  have hwall : a.wall = b.wall := by omega
  obtain ⟨hfraction, hzone⟩ := tailLt_trichotomy (hab.2 hwall) (hba.2 hwall.symm)
  obtain ⟨day, second, fraction, zone, hyear⟩ := a
  obtain ⟨day', second', fraction', zone', hyear'⟩ := b
  simp only [IsoStamp.wall] at hwall
  have hsecond := second.isLt
  have hsecond' := second'.isLt
  obtain rfl : day = day' := by omega
  obtain rfl : second = second' := Fin.ext (by omega)
  obtain rfl : fraction = fraction' := hfraction
  obtain rfl : zone = zone' := hzone
  rfl

/-- A year of four digits comes after every signed one. -/
theorem strLt_text_signed (a : IsoStamp) {u : Int} (hu : ¬ FourDigitYear u) :
    strLt a.text (toIso u) = false := by
  obtain ⟨c, cs, hc, hlo⟩ : ∃ c cs, utf16 a.text = c :: cs ∧ 48 ≤ c := by
    unfold IsoStamp.text wallText
    rw [utf16, String.toList_ofList, yearDigits, if_pos a.fourDigitYear, digits,
      List.append_assoc, List.cons_append, List.flatMap_cons,
      charUnits_digitChar (Nat.mod_lt _ (by decide)), List.singleton_append]
    exact ⟨_, _, rfl, Nat.le_add_right 48 _⟩
  obtain ⟨v, vs, hv, hhi⟩ : ∃ v vs, utf16 (toIso u) = v :: vs ∧ v < 48 := by
    have hplus : charUnits '+' = [43] := by decide
    have hminus : charUnits '-' = [45] := by decide
    unfold FourDigitYear at hu
    unfold toIso
    rw [utf16, String.toList_ofList, yearDigits, if_neg hu, List.cons_append, List.flatMap_cons]
    split
    · rw [hminus, List.singleton_append]
      exact ⟨_, _, rfl, by decide⟩
    · rw [hplus, List.singleton_append]
      exact ⟨_, _, rfl, by decide⟩
  rw [strLt, hc, hv]
  have h1 : ¬ c < v := by omega
  have h2 : ¬ c = v := by omega
  simp [unitsLt, h1, h2]

/-! ## Reading the text -/

theorem fractionValue_bounds (ds : List (Fin 10)) :
    0 ≤ fractionValue ds ∧ fractionValue ds < 1 := by
  induction ds with
  | nil => exact ⟨le_refl _, by norm_num [fractionValue]⟩
  | cons d ds ih =>
      have hd : (d.val : ℚ) ≤ 9 := by exact_mod_cast Nat.le_of_lt_succ d.isLt
      have hd0 : (0 : ℚ) ≤ d.val := Nat.cast_nonneg _
      unfold fractionValue
      constructor
      · have := ih.1
        positivity
      · rw [div_lt_one (by norm_num)]
        linarith [ih.2]

/-- The day of the instant in UTC. -/
def IsoStamp.utcDay (a : IsoStamp) : Int := (a.wall - a.zone.offset * 60) / 86400

theorem parseZone_text (z : Zone) : parseZone z.text = some z.offset := by
  have hread : ∀ (h : Fin 24) (m : Fin 60),
      takeDigits 0 2 (digits 2 h.val ++ ':' :: digits 2 m.val) =
          some (h.val, ':' :: digits 2 m.val) ∧
        optField ':' 0 (':' :: digits 2 m.val) = some (m.val, []) := by
    intro h m
    have hhours := takeDigits_digits 2 h.val 0 (':' :: digits 2 m.val) (by omega)
    have hminutes := optField_digits ':' 0 m.val (by omega) []
    rw [Nat.zero_mul, Nat.zero_add] at hhours
    rw [List.append_nil] at hminutes
    exact ⟨hhours, hminutes⟩
  cases z with
  | utc => rfl
  | ahead h m =>
      obtain ⟨hhours, hminutes⟩ := hread h m
      simp [Zone.text, parseZone, hhours, hminutes, Zone.offset]
  | behind h m =>
      obtain ⟨hhours, hminutes⟩ := hread h m
      simp [Zone.text, parseZone, hhours, hminutes, Zone.offset]

theorem ofDigitChars_lt : ∀ (cs : List Char) (acc : Nat), (∀ c ∈ cs, c.isDigit = true) →
    Nat.ofDigitChars 10 cs acc < (acc + 1) * 10 ^ cs.length
  | [], acc, _ => by simp [Nat.ofDigitChars_nil]
  | c :: cs, acc, h => by
      have ih := ofDigitChars_lt cs (10 * acc + (c.toNat - '0'.toNat)) fun d hd =>
        h d (List.mem_cons_of_mem _ hd)
      have hc : c.toNat - '0'.toNat ≤ 9 := by
        have hdigit := h c List.mem_cons_self
        simp only [Char.isDigit, Bool.and_eq_true, decide_eq_true_eq] at hdigit
        have hle : c.val.toNat ≤ 57 := UInt32.le_iff_toNat_le.1 hdigit.2
        have hval : c.toNat = c.val.toNat := rfl
        have hzero : '0'.toNat = 48 := rfl
        omega
      rw [Nat.ofDigitChars_cons, List.length_cons, pow_succ]
      refine lt_of_lt_of_le ih ?_
      calc (10 * acc + (c.toNat - '0'.toNat) + 1) * 10 ^ cs.length
          ≤ ((acc + 1) * 10) * 10 ^ cs.length := Nat.mul_le_mul_right _ (by omega)
        _ = (acc + 1) * (10 ^ cs.length * 10) := by ring

theorem isDigit_fractionDigits (ds : List (Fin 10)) :
    ∀ c ∈ fractionDigits ds, c.isDigit = true := by
  intro c hc
  obtain ⟨d, -, rfl⟩ := List.mem_map.1 hc
  exact (digitChar_facts d.val d.isLt).2.2.1

/-- A fraction is read to its milliseconds. -/
theorem optFraction_tailText (ds : List (Fin 10)) (z : Zone) :
    ∃ ms, ms < 1000 ∧ optFraction (tailText ds z) = some (ms, z.text) := by
  cases ds with
  | nil =>
      refine ⟨0, by decide, ?_⟩
      cases z <;> rfl
  | cons d ds =>
      have hdigits := isDigit_fractionDigits (d :: ds)
      have hzone : ∀ c ∈ z.text.head?, c.isDigit = false := by
        cases z <;> simp [Zone.text]
      have htake := Numeral.takeWhile_digits hdigits hzone
      have hdrop := Numeral.dropWhile_digits hdigits hzone
      have hne : fractionDigits (d :: ds) ≠ [] := List.cons_ne_nil _ _
      refine ⟨Nat.ofDigitChars 10 ((fractionDigits (d :: ds) ++ ['0', '0']).take 3) 0, ?_, ?_⟩
      · have hlt := ofDigitChars_lt ((fractionDigits (d :: ds) ++ ['0', '0']).take 3) 0
          fun c hc => by
            rcases List.mem_append.1 (List.mem_of_mem_take hc) with hfraction | hzero
            · exact hdigits c hfraction
            · rcases List.mem_cons.1 hzero with rfl | hzero
              · rfl
              · rw [List.mem_singleton.1 hzero]
                rfl
        have hlen : ((fractionDigits (d :: ds) ++ ['0', '0']).take 3).length = 3 := by
          simp [fractionDigits]
        rwa [hlen] at hlt
      · rw [tailText, if_neg (List.cons_ne_nil _ _), List.cons_append, optFraction, htake, hdrop]
        exact if_neg hne

/-- **A text is read as an instant of the same day.** -/
theorem parse_text (a : IsoStamp) :
    ∃ t, parse a.text = some t ∧ t / msPerDay = a.utcDay := by
  obtain ⟨hm, hd1, hd31, hday⟩ := civilFromDay_spec a.day
  obtain ⟨hy0, hy9⟩ := a.fourDigitYear
  obtain ⟨ms, hms, hfraction⟩ := optFraction_tailText a.fraction a.zone
  have hsecond := a.second.isLt
  have hoffset : a.zone.offset.natAbs < 1440 := by
    cases a.zone <;> simp only [Zone.offset] <;> omega
  have hfirst : dayFromYear 0 = -719528 := by decide
  have hlast : dayFromYear 10000 = 2932897 := by decide
  have hlo := (yearFromDay_spec a.day).1
  have hhi := (yearFromDay_spec a.day).2
  have hmin := dayFromYear_mono (show (0 : Int) ≤ yearFromDay a.day from hy0)
  have hmax := dayFromYear_mono
    (show yearFromDay a.day + 1 ≤ 10000 from Int.add_le_add_right hy9 1)
  refine ⟨a.wall * 1000 + ms - a.zone.offset * 60000, ?_, ?_⟩
  · simp only [parse, IsoStamp.text, String.toList_ofList, wallText, yearDigits,
      if_pos (And.intro hy0 hy9), List.append_assoc, List.cons_append]
    rw [parseYear_digits (by omega)]
    simp only [Option.bind_some]
    rw [optField_digits '-' 1 _ (by omega)]
    simp only [Option.bind_some]
    rw [optField_digits '-' 1 _ (by omega)]
    simp only [Option.bind_some, parseTime]
    rw [takeDigits_digits 2 _ 0 _ (by omega)]
    simp only [Option.bind_some]
    rw [optField_digits ':' 60 _ (by omega)]
    simp only [Option.bind_some]
    rw [optField_digits ':' 0 _ (by omega)]
    simp only [Option.bind_some, hfraction, parseZone_text, Nat.zero_mul, Nat.zero_add]
    rw [if_pos (by omega)]
    simp only [Option.bind_some, Int.toNat_of_nonneg hy0, Nat.add_sub_cancel,
      Int.toNat_of_nonneg (show 0 ≤ (civilFromDay a.day).day by omega), hday]
    have htime : a.day * msPerDay + ((a.second.val / 3600 * 3600000 +
          a.second.val / 60 % 60 * 60000 + a.second.val % 60 * 1000 + ms : Nat) : Int) -
        a.zone.offset * 60000 = a.wall * 1000 + ms - a.zone.offset * 60000 := by
      unfold IsoStamp.wall msPerDay
      omega
    rw [htime, if_pos]
    refine ⟨by omega, by omega, by omega, by omega, ?_⟩
    unfold IsoStamp.wall maxTime
    omega
  · unfold IsoStamp.utcDay msPerDay
    omega

/-! ## Texts and instants -/

/-- The texts of two date-times are in the order of the instants: offsets do
not carry the one past the other against their readings, and where the readings
agree to the second, so do offset and fraction with the order of the tails. -/
structure Agrees (a b : IsoStamp) : Prop where
  earlier : a.wall < b.wall → a.instant < b.instant
  later : b.wall < a.wall → b.instant ≤ a.instant
  same : a.wall = b.wall →
    (tailLt a.fraction a.zone b.fraction b.zone = true ↔
      b.zone.offset < a.zone.offset ∨
        b.zone.offset = a.zone.offset ∧ fractionValue a.fraction < fractionValue b.fraction)

theorem instant_lt_of_wall_eq {a b : IsoStamp} (h : a.wall = b.wall) :
    a.instant < b.instant ↔ b.zone.offset < a.zone.offset ∨
      b.zone.offset = a.zone.offset ∧ fractionValue a.fraction < fractionValue b.fraction := by
  obtain ⟨ha0, ha1⟩ := fractionValue_bounds a.fraction
  obtain ⟨hb0, hb1⟩ := fractionValue_bounds b.fraction
  unfold IsoStamp.instant
  rw [h]
  rcases lt_trichotomy b.zone.offset a.zone.offset with hlt | heq | hgt
  · have hstep : (b.zone.offset : ℚ) + 1 ≤ a.zone.offset := by exact_mod_cast hlt
    refine ⟨fun _ => .inl hlt, fun _ => ?_⟩
    linarith
  · rw [heq]
    simp
  · have hstep : (a.zone.offset : ℚ) + 1 ≤ b.zone.offset := by exact_mod_cast hgt
    constructor
    · intro hinstant
      linarith
    · rintro (hlt | ⟨heq, -⟩) <;> omega

/-- **Text order is time order exactly where they agree.** -/
theorem before_iff_instant_lt_iff (a b : IsoStamp) :
    (Before a b ↔ a.instant < b.instant) ↔ Agrees a b := by
  constructor
  · intro h
    refine ⟨fun hlt => h.1 (.inl hlt), fun hlt => ?_, fun heq => ?_⟩
    · rw [← not_lt, ← h]
      rintro (hwall | ⟨hwall, -⟩) <;> omega
    · rw [← instant_lt_of_wall_eq heq, ← h]
      refine ⟨fun htail => .inr ⟨heq, htail⟩, ?_⟩
      rintro (hwall | ⟨-, htail⟩)
      · omega
      · exact htail
  · intro h
    rcases lt_trichotomy a.wall b.wall with hlt | heq | hgt
    · exact ⟨fun _ => h.earlier hlt, fun _ => .inl hlt⟩
    · rw [instant_lt_of_wall_eq heq, ← h.same heq]
      constructor
      · rintro (hwall | ⟨-, htail⟩)
        · omega
        · exact htail
      · exact fun htail => .inr ⟨heq, htail⟩
    · constructor
      · rintro (hwall | ⟨hwall, -⟩) <;> omega
      · exact fun hinstant => absurd hinstant (not_lt.2 (h.later hgt))

theorem tailLt_utc : ∀ {ds ds' : List (Fin 10)}, ds.length = ds'.length →
    (tailLt ds .utc ds' .utc = true ↔ fractionValue ds < fractionValue ds')
  | [], [], _ => by simp [tailLt, zoneLt]
  | d :: ds, d' :: ds', h => by
      have ih := tailLt_utc (Nat.succ.inj h)
      obtain ⟨h0, h1⟩ := fractionValue_bounds ds
      obtain ⟨h0', h1'⟩ := fractionValue_bounds ds'
      simp only [tailLt, fractionValue, Bool.or_eq_true, Bool.and_eq_true, decide_eq_true_eq, ih]
      rw [Fin.lt_def, Fin.ext_iff]
      rcases lt_trichotomy d.val d'.val with hlt | heq | hgt
      · have hstep : (d.val : ℚ) + 1 ≤ d'.val := by exact_mod_cast hlt
        refine ⟨fun _ => ?_, fun _ => .inl hlt⟩
        linarith
      · rw [heq]
        simp only [lt_self_iff_false, true_and, false_or]
        constructor <;> intro hfraction <;> linarith
      · have hstep : (d'.val : ℚ) + 1 ≤ d.val := by exact_mod_cast hgt
        constructor
        · rintro (hlt | ⟨heq, -⟩) <;> omega
        · intro hfraction
          linarith

/-- Texts in UTC with equally many digits, as all that a program renders
itself, are in time order. -/
theorem agrees_of_utc {a b : IsoStamp} (ha : a.zone = .utc) (hb : b.zone = .utc)
    (hlength : a.fraction.length = b.fraction.length) : Agrees a b := by
  obtain ⟨ha0, ha1⟩ := fractionValue_bounds a.fraction
  obtain ⟨hb0, hb1⟩ := fractionValue_bounds b.fraction
  have hinstant : ∀ c : IsoStamp, c.zone = .utc →
      c.instant = c.wall + fractionValue c.fraction := by
    intro c hc
    rw [IsoStamp.instant, hc]
    simp [Zone.offset]
  constructor
  · intro hlt
    have hstep : (a.wall : ℚ) + 1 ≤ b.wall := by exact_mod_cast hlt
    rw [hinstant a ha, hinstant b hb]
    linarith
  · intro hlt
    have hstep : (b.wall : ℚ) + 1 ≤ a.wall := by exact_mod_cast hlt
    rw [hinstant a ha, hinstant b hb]
    linarith
  · intro _
    rw [ha, hb, tailLt_utc hlength]
    simp

end AgentWorth.Js.Date
