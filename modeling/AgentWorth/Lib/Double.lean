import AgentWorth.Lib.Decimal

/-!
# Doubles as text

`Number(s)` with the rounding of its literal to a double, and the text
`String(x)` gives a double: an integer in full, any other number in the fewest
digits that read back as it.
-/

namespace AgentWorth.Js

/-! ## Rounding -/

/-- To the nearest integer, halves to the even one. -/
def roundHalfEven (q : ℚ) : ℤ :=
  let n := q.floor
  let rest := q - n
  if rest < 1 / 2 then n
  else if 1 / 2 < rest then n + 1
  else if n % 2 = 0 then n else n + 1

/-- The exponent of the leading bit of a positive rational. -/
def leadingBit (q : ℚ) : ℤ :=
  let e := (q.num.natAbs.log2 : ℤ) - q.den.log2
  if (2 : ℚ) ^ e ≤ q then e else e - 1

/-- The exponent of the last bit that a double near `q` has. -/
def lastBit (q : ℚ) : ℤ := max (leadingBit |q| - 52) (-1074)

/-- The double nearest to a number in range. -/
def toDouble : JsNumber → JsNumber
  | .fin q => .fin (roundHalfEven (q / 2 ^ lastBit q) * 2 ^ lastBit q)
  | x => x

/-- `Number(s)`. -/
def toNumber (s : List Char) : JsNumber := toDouble (stringToNumber s)

/-! ## The fewest digits -/

/-- The least `n` with `q < 10 ^ n`, for a positive `q`. -/
def decimalExponent (q : ℚ) : ℤ :=
  if 1 ≤ q then (Nat.toDigits 10 q.floor.natAbs).length
  else 1 - (Nat.toDigits 10 ((1 / q).ceil.natAbs - 1)).length

/-- The first count of digits from `k` on, within the fuel, at which a decimal
reads back as `q`: its digits as a number, and the power of ten they are
multiples of.  Of two such decimals the closer one is taken. -/
def fewestFrom (q : ℚ) (n : ℤ) : Nat → Nat → Nat × ℤ
  | 0, k => ((q / 10 ^ (n - k)).floor.natAbs, n - k)
  | fuel + 1, k =>
      let unit : ℚ := 10 ^ (n - k)
      let below := (q / unit).floor.natAbs
      let above := below + 1
      let nearer := if q - below * unit ≤ above * unit - q then below else above
      let farther := if q - below * unit ≤ above * unit - q then above else below
      if toDouble (.fin (nearer * unit)) = .fin q then (nearer, n - k)
      else if toDouble (.fin (farther * unit)) = .fin q then (farther, n - k)
      else fewestFrom q n fuel (k + 1)

/-- The exponent part of a number text. -/
def powerText (e : ℤ) : List Char := 'e' :: (if e < 0 then '-' else '+') :: intText |e|

/-- `Number::toString` of digits `ds` with the point after the first `n`. -/
def placeDigits (ds : List Char) (n : ℤ) : List Char :=
  if ds.length ≤ n ∧ n ≤ 21 then ds ++ List.replicate (n.toNat - ds.length) '0'
  else if 0 < n ∧ n ≤ 21 then ds.take n.toNat ++ '.' :: ds.drop n.toNat
  else if -6 < n ∧ n ≤ 0 then '0' :: '.' :: (List.replicate n.natAbs '0' ++ ds)
  else if ds.length = 1 then ds ++ powerText (n - 1)
  else ds.take 1 ++ '.' :: (ds.drop 1 ++ powerText (n - 1))

/-- The text of a positive double. -/
def fewestText (q : ℚ) : List Char :=
  let found := fewestFrom q (decimalExponent q) 17 1
  let digits := Nat.toDigits 10 found.1
  placeDigits (digits.reverse.dropWhile (· == '0')).reverse (found.2 + digits.length)

/-- `String(x)`.  A double below `2 ^ 53` that is an integer is written out. -/
def numberText : JsNumber → List Char
  | .nan => "NaN".toList
  | .posInf => "Infinity".toList
  | .negInf => "-Infinity".toList
  | .fin q =>
      if q.den = 1 ∧ q.num.natAbs < 2 ^ 53 then intText q.num
      else (if q < 0 then ['-'] else []) ++ fewestText |q|

example : (["0x1", "9007199254740993", "0.1", "1e21", "-1e-7", "123456789.125e-3"].map
    fun s => String.ofList (numberText (toNumber s.toList))) =
      ["1", "9007199254740992", "0.1", "1e+21", "-1e-7", "123456.789125"] := by
  decide +kernel

/-! ## Integers -/

theorem roundHalfEven_intCast (n : ℤ) : roundHalfEven (n : ℚ) = n := by
  unfold roundHalfEven
  simp only [Rat.floor_intCast, sub_self]
  norm_num

theorem leadingBit_le (q : ℚ) : leadingBit q ≤ q.num.natAbs.log2 := by
  unfold leadingBit
  dsimp only
  split <;> omega

theorem lastBit_natCast_nonpos {n : Nat} (h : n < 2 ^ 53) : lastBit (n : ℚ) ≤ 0 := by
  have hlog : n.log2 < 53 := by
    by_cases hn : n = 0
    · rw [hn]
      decide
    · exact (Nat.log2_lt hn).2 h
  have hlead := leadingBit_le (n : ℚ)
  rw [Rat.num_natCast, Int.natAbs_natCast] at hlead
  unfold lastBit
  rw [Nat.abs_cast]
  omega

/-- A natural number that has no bit below the last one of a double near it. -/
theorem toDouble_natCast_of_lastBit {n : Nat} (h : lastBit (n : ℚ) ≤ 0) :
    toDouble (.fin (n : ℚ)) = .fin (n : ℚ) := by
  obtain ⟨k, hk⟩ := Int.eq_ofNat_of_zero_le (neg_nonneg.2 h)
  have hbit : lastBit (n : ℚ) = -(k : ℤ) := by omega
  have hscaled : (n : ℚ) / 2 ^ (-(k : ℤ)) = ((n * 2 ^ k : ℤ) : ℚ) := by
    rw [zpow_neg, zpow_natCast, div_inv_eq_mul]
    push_cast
    rfl
  unfold toDouble
  dsimp only
  rw [hbit, hscaled, roundHalfEven_intCast, ← hscaled,
    div_mul_cancel₀ _ (zpow_ne_zero _ two_ne_zero)]

/-- An integer below `2 ^ 53` is a double. -/
theorem toDouble_natCast {n : Nat} (h : n < 2 ^ 53) :
    toDouble (.fin (n : ℚ)) = .fin (n : ℚ) :=
  toDouble_natCast_of_lastBit (lastBit_natCast_nonpos h)

/-- The double nearest to a natural number is an integer. -/
theorem toDouble_natCast_integer (n : Nat) : ∃ z : ℤ, toDouble (.fin (n : ℚ)) = .fin (z : ℚ) := by
  by_cases h : lastBit (n : ℚ) ≤ 0
  · exact ⟨n, by rw [toDouble_natCast_of_lastBit h, Int.cast_natCast]⟩
  · obtain ⟨k, hk⟩ := Int.eq_ofNat_of_zero_le (not_le.1 h).le
    refine ⟨roundHalfEven (n / 2 ^ lastBit (n : ℚ)) * 2 ^ k, ?_⟩
    unfold toDouble
    dsimp only
    rw [hk, zpow_natCast]
    push_cast
    rfl

/-- An integer below `2 ^ 53` is read back from its digits. -/
theorem toNumber_toDigits {n : Nat} (h : n < 2 ^ 53) :
    toNumber (Nat.toDigits 10 n) = .fin (n : ℚ) := by
  have hread := stringToNumber_intText (n := (n : ℤ)) (isNumber_of_natAbs_lt (by simpa using h))
  unfold intText at hread
  rw [if_neg (by omega), List.nil_append, Int.natAbs_natCast, Int.cast_natCast] at hread
  rw [toNumber, hread, toDouble_natCast h]

theorem numberText_natCast {n : Nat} (h : n < 2 ^ 53) :
    numberText (.fin (n : ℚ)) = Nat.toDigits 10 n := by
  unfold numberText
  dsimp only
  rw [if_pos ⟨Rat.den_natCast n, by simpa using h⟩, Rat.num_natCast]
  unfold intText
  rw [if_neg (by omega), List.nil_append, Int.natAbs_natCast]

/-! ## Numbers are on one line -/

theorem oneLine_intText (n : ℤ) : OneLine (intText n) := by
  unfold intText
  refine oneLine_append.2 ⟨?_, oneLine_digits Numeral.isDigit_toDigits⟩
  split
  · decide
  · exact oneLine_nil

theorem oneLine_of_subset {cs ds : List Char} (h : cs ⊆ ds) (hds : OneLine ds) : OneLine cs :=
  fun hbreak => hds (h hbreak)

theorem oneLine_powerText (e : ℤ) : OneLine (powerText e) := by
  refine oneLine_cons.2 ⟨by decide, oneLine_cons.2 ⟨?_, oneLine_intText _⟩⟩
  split <;> decide

theorem oneLine_placeDigits {ds : List Char} (h : OneLine ds) (n : ℤ) :
    OneLine (placeDigits ds n) := by
  have hzeros : ∀ k, OneLine (List.replicate k '0') := by
    intro k hbreak
    exact absurd (List.eq_of_mem_replicate hbreak) (by decide)
  have htake : ∀ k, OneLine (ds.take k) := fun k => oneLine_of_subset (List.take_subset k ds) h
  have hdrop : ∀ k, OneLine (ds.drop k) := fun k => oneLine_of_subset (List.drop_subset k ds) h
  unfold placeDigits
  split_ifs
  · exact oneLine_append.2 ⟨h, hzeros _⟩
  · exact oneLine_append.2 ⟨htake _, oneLine_cons.2 ⟨by decide, hdrop _⟩⟩
  · exact oneLine_cons.2 ⟨by decide, oneLine_cons.2 ⟨by decide,
      oneLine_append.2 ⟨hzeros _, h⟩⟩⟩
  · exact oneLine_append.2 ⟨h, oneLine_powerText _⟩
  · exact oneLine_append.2 ⟨htake _, oneLine_cons.2 ⟨by decide,
      oneLine_append.2 ⟨hdrop _, oneLine_powerText _⟩⟩⟩

theorem oneLine_fewestText (q : ℚ) : OneLine (fewestText q) := by
  refine oneLine_placeDigits (oneLine_digits fun c hc => ?_) _
  have hmem := (List.dropWhile_sublist _).subset (List.mem_reverse.1 hc)
  exact Numeral.isDigit_toDigits c (List.mem_reverse.1 hmem)

theorem oneLine_numberText (x : JsNumber) : OneLine (numberText x) := by
  cases x with
  | fin q =>
      unfold numberText
      dsimp only
      split_ifs
      · exact oneLine_intText _
      · exact oneLine_append.2 ⟨by decide, oneLine_fewestText _⟩
      · exact oneLine_append.2 ⟨oneLine_nil, oneLine_fewestText _⟩
  | nan => decide
  | posInf => decide
  | negInf => decide

end AgentWorth.Js
