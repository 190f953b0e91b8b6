import AgentWorth.Lib.Text
import Mathlib.Data.List.TakeWhile
import Mathlib.Data.Nat.Prime.Basic
import Mathlib.Data.Rat.Lemmas
import Mathlib.Tactic.FieldSimp

/-!
# Decimal numerals

The numerals of JSON and their value.  The text of a number reads back as the
value it shows, which is the number itself when its expansion ends.
-/

namespace AgentWorth.Js

namespace JsNumber

/-! ## Terminating expansions -/

/-- A power of ten clears the denominator exactly when the denominator divides
it. -/
theorem den_mul_pow_eq_one_iff (q : ℚ) (k : Nat) :
    (q * 10 ^ k).den = 1 ↔ q.den ∣ 10 ^ k := by
  constructor
  · intro h
    have hint := Rat.den_eq_one_iff _ |>.1 h
    have hq : q = ((q * 10 ^ k).num : ℚ) / ((10 ^ k : ℤ) : ℚ) := by
      rw [hint]
      push_cast
      field_simp
    have hdvd := Rat.den_dvd (q * 10 ^ k).num (10 ^ k : ℤ)
    rw [Rat.divInt_eq_div, ← hq] at hdvd
    exact_mod_cast hdvd
  · rintro ⟨c, hc⟩
    have hq : q * 10 ^ k = ((q.num * c : ℤ) : ℚ) := by
      have hden : (10 ^ k : ℚ) = (q.den : ℚ) * c := by exact_mod_cast hc
      rw [hden, ← mul_assoc, Rat.mul_den_eq_num]
      push_cast
      rfl
    rw [hq]
    exact Rat.den_intCast _

/-- Divisors of powers of ten need no more factors than their size shows. -/
theorem dvd_pow_log2 {d k : Nat} (h : d ∣ 10 ^ k) : d ∣ 10 ^ d.log2 := by
  have hpos : d ≠ 0 := by
    rintro rfl
    have := Nat.eq_zero_of_zero_dvd h
    simp at this
  rw [show (10 : Nat) = 2 * 5 from rfl, Nat.mul_pow] at h
  obtain ⟨a, b, ha, hb, rfl⟩ := Nat.dvd_mul.1 h
  obtain ⟨i, -, rfl⟩ := (Nat.dvd_prime_pow Nat.prime_two).1 ha
  obtain ⟨j, -, rfl⟩ := (Nat.dvd_prime_pow Nat.prime_five).1 hb
  have hi : i ≤ (2 ^ i * 5 ^ j).log2 := by
    rw [Nat.le_log2 hpos]
    exact Nat.le_mul_of_pos_right _ (by positivity)
  have hj : j ≤ (2 ^ i * 5 ^ j).log2 := by
    rw [Nat.le_log2 hpos]
    calc 2 ^ j ≤ 5 ^ j := Nat.pow_le_pow_left (by omega) j
      _ ≤ 2 ^ i * 5 ^ j := Nat.le_mul_of_pos_left _ (by positivity)
  generalize (2 ^ i * 5 ^ j).log2 = l at hi hj ⊢
  rw [show (10 : Nat) = 2 * 5 from rfl, Nat.mul_pow]
  exact Nat.mul_dvd_mul (Nat.pow_dvd_pow 2 hi) (Nat.pow_dvd_pow 5 hj)

theorem terminates_of_den {q : ℚ} {k : Nat} (h : (q * 10 ^ k).den = 1) : Terminates q :=
  (den_mul_pow_eq_one_iff q _).2 (dvd_pow_log2 ((den_mul_pow_eq_one_iff q k).1 h))

theorem terminates_intCast (n : ℤ) : Terminates (n : ℚ) :=
  terminates_of_den (k := 0) (by simp)

theorem terminates_shown (q : ℚ) : Terminates (shown q) := by
  unfold shown
  split
  · next h => exact h
  · refine terminates_of_den (k := 17) ?_
    rw [div_mul_cancel₀ _ (by positivity)]
    exact Rat.den_intCast _

theorem shown_of_terminates {q : ℚ} (h : Terminates q) : shown q = q := if_pos h

@[simp] theorem shown_shown (q : ℚ) : shown (shown q) = shown q :=
  shown_of_terminates (terminates_shown q)

theorem den_placesFrom (q : ℚ) : ∀ (fuel k : Nat), (q * 10 ^ (k + fuel)).den = 1 →
    (q * 10 ^ placesFrom q fuel k).den = 1 := by
  intro fuel
  induction fuel with
  | zero => intro k h; exact h
  | succ fuel ih =>
      intro k h
      unfold placesFrom
      split
      · next hk => exact hk
      · exact ih (k + 1) (by rw [Nat.add_assoc, Nat.add_comm 1]; exact h)

/-- The printed places are enough. -/
theorem den_fractionPlaces {q : ℚ} (h : Terminates q) :
    (q * 10 ^ fractionPlaces q).den = 1 :=
  den_placesFrom q q.den.log2 0 (by rw [Nat.zero_add]; exact h)

end JsNumber

/-! ## Reading a numeral -/

/-- An optional fraction: at least one digit after the point. -/
def readFraction : List Char → Option (List Char × List Char)
  | '.' :: cs =>
      let ds := cs.takeWhile Char.isDigit
      if ds = [] then none else some (ds, cs.dropWhile Char.isDigit)
  | cs => some ([], cs)

/-- The digits of an exponent, after its sign. -/
def readPower (sign : ℤ) (cs : List Char) : Option (ℤ × List Char) :=
  let ds := cs.takeWhile Char.isDigit
  if ds = [] then none
  else some (sign * Nat.ofDigitChars 10 ds 0, cs.dropWhile Char.isDigit)

/-- An optional exponent. -/
def readExponent : List Char → Option (ℤ × List Char)
  | [] => some (0, [])
  | c :: cs =>
      if c = 'e' ∨ c = 'E' then
        match cs with
        | '-' :: cs => readPower (-1) cs
        | '+' :: cs => readPower 1 cs
        | cs => readPower 1 cs
      else some (0, c :: cs)

/-- A numeral without a sign; a whole part of several digits starts with none
of them zero. -/
def readUnsigned (cs : List Char) : Option (ℚ × List Char) :=
  let whole := cs.takeWhile Char.isDigit
  if whole = [] ∨ whole.head? = some '0' ∧ whole ≠ ['0'] then none
  else
    (readFraction (cs.dropWhile Char.isDigit)).bind fun frac =>
      (readExponent frac.2).map fun exponent =>
        (((Nat.ofDigitChars 10 whole 0 : Nat) +
            (Nat.ofDigitChars 10 frac.1 0 : Nat) / 10 ^ frac.1.length : ℚ) *
          10 ^ exponent.1, exponent.2)

/-- A JSON numeral and what follows it. -/
def readNumeral : List Char → Option (ℚ × List Char)
  | '-' :: cs => (readUnsigned cs).map fun r => (-r.1, r.2)
  | cs => readUnsigned cs

/-- No numeral goes on into this text. -/
def Delimited (rest : List Char) : Prop :=
  ∀ c, rest.head? = some c → c.isDigit = false ∧ c ≠ '.' ∧ c ≠ 'e' ∧ c ≠ 'E'

namespace Numeral

theorem takeWhile_digits {ds rest : List Char} (hds : ∀ c ∈ ds, c.isDigit = true)
    (hrest : ∀ c, rest.head? = some c → c.isDigit = false) :
    (ds ++ rest).takeWhile Char.isDigit = ds := by
  rw [List.takeWhile_append_of_pos hds]
  cases rest with
  | nil => simp
  | cons c cs => simp [hrest c rfl]

theorem dropWhile_digits {ds rest : List Char} (hds : ∀ c ∈ ds, c.isDigit = true)
    (hrest : ∀ c, rest.head? = some c → c.isDigit = false) :
    (ds ++ rest).dropWhile Char.isDigit = rest := by
  rw [List.dropWhile_append_of_pos hds]
  cases rest with
  | nil => simp
  | cons c cs => simp [hrest c rfl]

theorem isDigit_toDigits {n : Nat} : ∀ c ∈ Nat.toDigits 10 n, c.isDigit = true :=
  fun _ hc => Nat.isDigit_of_mem_toDigits (by decide) (by decide) hc

/-- Only zero is written with a leading zero. -/
theorem toDigits_head {n : Nat} (h : (Nat.toDigits 10 n).head? = some '0') :
    Nat.toDigits 10 n = ['0'] := by
  induction n using Nat.strongRecOn with
  | ind n ih =>
      by_cases hn : n < 10
      · rw [Nat.toDigits_of_lt_base hn] at h ⊢
        simpa using h
      · have hsplit := Nat.toDigits_of_base_le (b := 10) (by decide) (Nat.not_lt.1 hn)
        rw [hsplit, List.head?_append_of_ne_nil _ Nat.toDigits_ne_nil] at h
        have hq := congrArg (Nat.ofDigitChars 10 · 0) (ih (n / 10) (by omega) h)
        simp only [Nat.ofDigitChars_ten_toDigits] at hq
        have : n / 10 = 0 := hq.trans (by decide)
        omega

theorem ofDigitChars_leftpad (k n : Nat) :
    Nat.ofDigitChars 10 ((Nat.toDigits 10 n).leftpad k '0') 0 = n := by
  rw [List.leftpad, Nat.ofDigitChars_append, Nat.ofDigitChars_replicate_zero, Nat.mul_zero,
    Nat.ofDigitChars_ten_toDigits]

theorem isDigit_leftpad (k n : Nat) :
    ∀ c ∈ (Nat.toDigits 10 n).leftpad k '0', c.isDigit = true := by
  intro c hc
  rcases List.mem_append.1 hc with h | h
  · rw [(List.mem_replicate.1 h).2]
    decide
  · exact isDigit_toDigits c h

theorem length_leftpad_mod {k n : Nat} (hk : k ≠ 0) :
    ((Nat.toDigits 10 (n % 10 ^ k)).leftpad k '0').length = k := by
  have hle : (Nat.toDigits 10 (n % 10 ^ k)).length ≤ k :=
    (Nat.length_toDigits_le_iff (by decide) (Nat.pos_of_ne_zero hk)).2
      (Nat.mod_lt _ (by positivity))
  rw [List.length_leftpad]
  omega

theorem readFraction_none {rest : List Char} (h : Delimited rest) :
    readFraction rest = some ([], rest) := by
  cases rest with
  | nil => rfl
  | cons c cs =>
      have hc := (h c rfl).2.1
      unfold readFraction
      split
      · next heq => exact absurd (List.cons.inj heq).1 hc
      · rfl

theorem readExponent_none {rest : List Char} (h : Delimited rest) :
    readExponent rest = some (0, rest) := by
  cases rest with
  | nil => rfl
  | cons c cs =>
      obtain ⟨-, -, he, hE⟩ := h c rfl
      simp only [readExponent, he, hE, or_self, if_false]

/-- The digits of the whole part are read as one numeral. -/
theorem readUnsigned_toDigits (n : Nat) {tail : List Char}
    (htail : ∀ c, tail.head? = some c → c.isDigit = false) :
    readUnsigned (Nat.toDigits 10 n ++ tail) =
      (readFraction tail).bind fun frac =>
        (readExponent frac.2).map fun exponent =>
          (((n : ℚ) + (Nat.ofDigitChars 10 frac.1 0 : Nat) / 10 ^ frac.1.length) *
            10 ^ exponent.1, exponent.2) := by
  unfold readUnsigned
  rw [takeWhile_digits isDigit_toDigits htail, dropWhile_digits isDigit_toDigits htail]
  have hlead : ¬ (Nat.toDigits 10 n = [] ∨
      (Nat.toDigits 10 n).head? = some '0' ∧ Nat.toDigits 10 n ≠ ['0']) := by
    rintro (h | ⟨h, hne⟩)
    · exact Nat.toDigits_ne_nil h
    · exact hne (toDigits_head h)
  simp only [if_neg hlead, Nat.ofDigitChars_ten_toDigits]

end Numeral

namespace JsNumber

open Numeral

/-- The printed expansion without its sign. -/
theorem readUnsigned_decimal (n k : Nat) {rest : List Char} (hrest : Delimited rest) :
    readUnsigned (Nat.toDigits 10 (n / 10 ^ k) ++
        ((if k = 0 then [] else '.' :: (Nat.toDigits 10 (n % 10 ^ k)).leftpad k '0') ++ rest)) =
      some ((n : ℚ) / 10 ^ k, rest) := by
  by_cases hk : k = 0
  · subst hk
    rw [if_pos rfl, List.nil_append, readUnsigned_toDigits _ fun c hc => (hrest c hc).1,
      readFraction_none hrest]
    simp [readExponent_none hrest]
  · rw [if_neg hk, List.cons_append, readUnsigned_toDigits _ (by simp)]
    have hdigits := isDigit_leftpad k (n % 10 ^ k)
    have hend : ∀ c, rest.head? = some c → c.isDigit = false := fun c hc => (hrest c hc).1
    have hlen := length_leftpad_mod (n := n) hk
    have hne : (Nat.toDigits 10 (n % 10 ^ k)).leftpad k '0' ≠ [] := by
      intro h
      rw [h] at hlen
      exact hk hlen.symm
    have hsplit : ((n / 10 ^ k : Nat) : ℚ) * 10 ^ k + (n % 10 ^ k : Nat) = n := by
      exact_mod_cast Nat.div_add_mod' n (10 ^ k)
    simp only [readFraction, takeWhile_digits hdigits hend, dropWhile_digits hdigits hend,
      if_neg hne, Option.bind_some, readExponent_none hrest, Option.map_some,
      ofDigitChars_leftpad, hlen, zpow_zero, mul_one, Option.some.injEq, Prod.mk.injEq, and_true]
    rw [← hsplit]
    field_simp

/-- **The text of a number reads back.** -/
theorem readNumeral_decimalText {q : ℚ} (hq : Terminates q) {rest : List Char}
    (hrest : Delimited rest) : readNumeral (decimalText q ++ rest) = some (q, rest) := by
  have hden := den_fractionPlaces hq
  have hint := (Rat.den_eq_one_iff _).1 hden
  have habs : ((q * 10 ^ fractionPlaces q).num.natAbs : ℚ) / 10 ^ fractionPlaces q = |q| := by
    have h10 : (0 : ℚ) < 10 ^ fractionPlaces q := by positivity
    rw [Nat.cast_natAbs, Int.cast_abs, hint, abs_mul, abs_of_pos h10,
      mul_div_cancel_right₀ _ h10.ne']
  have hread := readUnsigned_decimal (q * 10 ^ fractionPlaces q).num.natAbs
    (fractionPlaces q) hrest
  rw [habs] at hread
  unfold decimalText
  by_cases hneg : q < 0
  · simp only [if_pos hneg, List.append_assoc, List.cons_append, List.nil_append, readNumeral]
    rw [hread]
    simp [abs_of_neg hneg]
  · simp only [if_neg hneg, List.append_assoc, List.nil_append]
    rw [abs_of_nonneg (not_lt.1 hneg)] at hread
    rw [← hread]
    unfold readNumeral
    split
    · next cs heq =>
        obtain ⟨c, ds, hds⟩ := List.exists_cons_of_ne_nil
          (Nat.toDigits_ne_nil (n := (q * 10 ^ fractionPlaces q).num.natAbs /
            10 ^ fractionPlaces q) (b := 10))
        have hc := isDigit_toDigits c (by rw [hds]; exact List.mem_cons_self ..)
        rw [hds, List.cons_append] at heq
        rw [(List.cons.inj heq).1] at hc
        exact absurd hc (by decide)
    · rfl

end JsNumber

/-! ### Reading a count back -/

theorem isSpace_of_isDigit {c : Char} (h : c.isDigit = true) : isSpace c = false := by
  simp only [Char.isDigit, Bool.and_eq_true, decide_eq_true_eq] at h
  have h0 : (48 : Nat) ≤ c.toNat := h.1
  have h9 : c.toNat ≤ 57 := h.2
  simp only [isSpace, Bool.or_eq_false_iff, Bool.and_eq_false_iff, beq_eq_false_iff_ne,
    decide_eq_false_iff_not]
  omega

theorem decimalText_natCast (n : Nat) : JsNumber.decimalText (n : ℚ) = Nat.toDigits 10 n := by
  have hplaces : JsNumber.fractionPlaces (n : ℚ) = 0 := by
    have hlog : Nat.log2 1 = 0 := by decide
    simp [JsNumber.fractionPlaces, hlog, JsNumber.placesFrom]
  have hsign : ¬ (n : ℚ) < 0 := not_lt.2 (Nat.cast_nonneg n)
  simp [JsNumber.decimalText, hplaces, hsign]

theorem trim_digits {cs : List Char} (h : ∀ c ∈ cs, c.isDigit = true) :
    trim (String.ofList cs) = String.ofList cs := by
  have hdrop : ∀ l : List Char, (∀ c ∈ l, c.isDigit = true) → l.dropWhile isSpace = l := by
    intro l hl
    cases l with
    | nil => rfl
    | cons c l =>
        rw [List.dropWhile_cons_of_neg]
        simp [isSpace_of_isDigit (hl c (by simp))]
  unfold trim
  rw [String.toList_ofList, hdrop cs h, hdrop cs.reverse (fun c hc => h c (by simpa using hc)),
    List.reverse_reverse]

/-- **A count is read back from its text.** -/
theorem number_natCast (n : Nat) : number (toString (n : JsNumber)) = (n : JsNumber) := by
  have htext : toString (n : JsNumber) = String.ofList (Nat.toDigits 10 n) := by
    show String.ofList (JsNumber.decimalText (JsNumber.shown (n : ℚ))) = _
    rw [JsNumber.shown_of_terminates (by exact_mod_cast JsNumber.terminates_intCast (n : ℤ)),
      decimalText_natCast]
  have hdigits : ∀ c ∈ Nat.toDigits 10 n, c.isDigit = true := Numeral.isDigit_toDigits
  have hdec : decimal? (Nat.toDigits 10 n) = some n := by
    unfold decimal?
    rw [if_pos ⟨Nat.toDigits_ne_nil, List.all_eq_true.2 hdigits⟩, Nat.ofDigitChars_ten_toDigits]
  have hspan : (Nat.toDigits 10 n).span (· ≠ '.') = (Nat.toDigits 10 n, []) := by
    rw [List.span_eq_takeWhile_dropWhile]
    have hne : ∀ c ∈ Nat.toDigits 10 n, decide (c ≠ '.') = true := by
      intro c hc
      have := hdigits c hc
      simp only [ne_eq, decide_eq_true_eq]
      rintro rfl
      revert this
      decide
    rw [List.takeWhile_eq_self_iff.2 hne, List.dropWhile_eq_nil_iff.2 hne]
  unfold number
  rw [htext, trim_digits hdigits, String.toList_ofList]
  cases hcs : Nat.toDigits 10 n with
  | nil => exact absurd hcs Nat.toDigits_ne_nil
  | cons c cs =>
      rw [hcs] at hdigits hdec hspan
      have hc := hdigits c (by simp)
      dsimp only
      split
      · next h => cases h
      · next h =>
          cases h
          exact absurd hc (by decide)
      · next h =>
          cases h
          exact absurd hc (by decide)
      · rw [hspan]
        dsimp only
        rw [hdec]
        rfl
end AgentWorth.Js
