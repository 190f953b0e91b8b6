import AgentWorth.Lib.Lines
import AgentWorth.Lib.Strings

/-!
# Integers as text

An integer that is a `number` is written in decimal digits and read back by
`Number(s)` as itself.
-/

namespace AgentWorth.Js

/-- An integer that is a `number`: a double, and in range. -/
structure IsNumber (n : ℤ) : Prop where
  double : IsDouble (.fin n)
  inRange : |(n : ℚ)| < 2 ^ 1024 - 2 ^ 970

theorem isNumber_of_natAbs_lt {n : ℤ} (h : n.natAbs < 2 ^ 53) : IsNumber n where
  double := ⟨n, 0, by rw [Int.abs_eq_natAbs]; exact_mod_cast h, by simp⟩
  inRange := by
    have hlt : |(n : ℚ)| < 2 ^ 53 := by
      rw [← Int.cast_abs, Int.abs_eq_natAbs]
      exact_mod_cast h
    have hlow : (2 : ℚ) ^ 53 ≤ 2 ^ 970 := pow_le_pow_right₀ (by norm_num) (by norm_num)
    have hsplit : (2 : ℚ) ^ 1024 = 2 ^ 54 * 2 ^ 970 := by rw [← pow_add]
    rw [hsplit]
    generalize (2 : ℚ) ^ 970 = x at hlow
    norm_num at hlow hlt ⊢
    linarith

/-- The decimal text of an integer. -/
def intText (n : ℤ) : List Char := (if n < 0 then ['-'] else []) ++ Nat.toDigits 10 n.natAbs

theorem unsignedLiteral_digits {cs : List Char} (hne : cs ≠ [])
    (h : ∀ c ∈ cs, c.isDigit = true) :
    unsignedLiteral cs = ofRational (Nat.ofDigitChars 10 cs 0 : ℕ) := by
  have hinf : cs ≠ "Infinity".toList := by
    rintro rfl
    exact absurd (h 'I' (by decide)) (by decide)
  have hend : ∀ c, ([] : List Char).head? = some c → c.isDigit = false := by simp
  have htake := Numeral.takeWhile_digits h hend
  have hdrop := Numeral.dropWhile_digits h hend
  rw [List.append_nil] at htake hdrop
  unfold unsignedLiteral unsignedDecimal
  rw [if_neg hinf]
  simp only [htake, hdrop, hne, false_and, if_false, exponentPart, Option.map_some,
    Option.getD_some, Nat.ofDigitChars_nil, List.length_nil, pow_zero, zpow_zero, mul_one,
    Nat.cast_zero, zero_div, add_zero]

/-- `Number(s)` of a run of digits. -/
theorem stringToNumber_digits {cs : List Char} (hne : cs ≠ [])
    (h : ∀ c ∈ cs, c.isDigit = true) :
    stringToNumber cs = ofRational (Nat.ofDigitChars 10 cs 0 : ℕ) := by
  have htrim : trimChars cs = cs :=
    trimChars_eq_self (fun c hc => isSpace_of_isDigit (h c (List.mem_of_mem_head? hc)))
      fun c hc => isSpace_of_isDigit (h c (List.mem_of_mem_getLast? hc))
  rw [← unsignedLiteral_digits hne h]
  unfold stringToNumber
  rw [htrim]
  split
  case h_1 => exact absurd rfl hne
  case h_10 => rfl
  all_goals
    -- a sign or a letter is no digit
    first
      | exact absurd (h _ (List.mem_cons_of_mem _ List.mem_cons_self)) (by decide)
      | exact absurd (h _ List.mem_cons_self) (by decide)

theorem stringToNumber_negative {cs : List Char} (hne : cs ≠ [])
    (h : ∀ c ∈ cs, c.isDigit = true) :
    stringToNumber ('-' :: cs) = -ofRational (Nat.ofDigitChars 10 cs 0 : ℕ) := by
  have hlast : ∀ c ∈ ('-' :: cs).getLast?, isSpace c = false := by
    intro c hc
    rw [List.getLast?_cons_of_ne_nil hne] at hc
    exact isSpace_of_isDigit (h c (List.mem_of_mem_getLast? hc))
  have htrim : trimChars ('-' :: cs) = '-' :: cs :=
    trimChars_eq_self (by simp; decide) hlast
  rw [← unsignedLiteral_digits hne h]
  unfold stringToNumber
  rw [htrim]
  rfl

theorem ofRational_of_lt {q : ℚ} (h : |q| < 2 ^ 1024 - 2 ^ 970) : ofRational q = .fin q := by
  obtain ⟨hlo, hhi⟩ := abs_lt.1 h
  unfold ofRational
  rw [if_neg (not_le.2 hhi), if_neg (not_le.2 hlo)]

/-- **An integer is read back from its text.** -/
theorem stringToNumber_intText {n : ℤ} (h : IsNumber n) :
    stringToNumber (intText n) = .fin n := by
  have hvalue : ofRational ((Nat.ofDigitChars 10 (Nat.toDigits 10 n.natAbs) 0 : ℕ) : ℚ) =
      .fin |(n : ℚ)| := by
    have habs : ((n.natAbs : ℕ) : ℚ) = |(n : ℚ)| := by
      rw [Nat.cast_natAbs, Int.cast_abs]
    rw [Nat.ofDigitChars_ten_toDigits, habs, ofRational_of_lt (by rw [abs_abs]; exact h.inRange)]
  unfold intText
  by_cases hneg : n < 0
  · have hneg' : (n : ℚ) < 0 := by exact_mod_cast hneg
    rw [if_pos hneg, List.singleton_append,
      stringToNumber_negative Nat.toDigits_ne_nil Numeral.isDigit_toDigits, hvalue,
      abs_of_neg hneg']
    show JsNumber.fin (- -(n : ℚ)) = _
    rw [neg_neg]
  · have hneg' : (0 : ℚ) ≤ n := by exact_mod_cast not_lt.1 hneg
    rw [if_neg hneg, List.nil_append,
      stringToNumber_digits Nat.toDigits_ne_nil Numeral.isDigit_toDigits, hvalue,
      abs_of_nonneg hneg']

end AgentWorth.Js
