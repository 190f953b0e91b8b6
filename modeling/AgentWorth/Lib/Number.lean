import Mathlib.Data.Rat.Floor
import Mathlib.Algebra.Order.Ring.Unbundled.Rat
import Mathlib.Algebra.BigOperators.Group.List.Basic
import Mathlib.Algebra.Order.BigOperators.Group.List

/-!
# ECMAScript numbers, without rounding

A JavaScript `number` is `NaN`, one of two infinities, or a finite value.
Finite values are kept exact: the programs verified here hold money as integer
minor units, so what matters about `number` is not its 53-bit significand but
its partial order.  Every comparison with `NaN` is false, in both directions,
and that is the behaviour a guard such as `if (x > cap) refuse()` inherits.
-/

namespace AgentWorth.Js

/-- An ECMAScript Number value with exact finite part. -/
inductive JsNumber where
  | nan
  | posInf
  | negInf
  | fin (q : ℚ)
  deriving DecidableEq, Repr

namespace JsNumber

instance (n : Nat) : OfNat JsNumber n := ⟨.fin (n : ℚ)⟩
instance : NatCast JsNumber := ⟨fun n => .fin (n : ℚ)⟩
instance : IntCast JsNumber := ⟨fun n => .fin (n : ℚ)⟩
instance : Inhabited JsNumber := ⟨.nan⟩

protected def neg : JsNumber → JsNumber
  | .nan => .nan
  | .posInf => .negInf
  | .negInf => .posInf
  | .fin q => .fin (-q)

/-- `a + b`: opposite infinities have no sum. -/
protected def add : JsNumber → JsNumber → JsNumber
  | .nan, _ | _, .nan => .nan
  | .posInf, .negInf | .negInf, .posInf => .nan
  | .posInf, _ | _, .posInf => .posInf
  | .negInf, _ | _, .negInf => .negInf
  | .fin p, .fin q => .fin (p + q)

/-- The infinity with the sign of `q`; an infinity times zero is `NaN`. -/
def infTimes (q : ℚ) : JsNumber :=
  if q = 0 then .nan else if 0 < q then .posInf else .negInf

protected def mul : JsNumber → JsNumber → JsNumber
  | .nan, _ | _, .nan => .nan
  | .posInf, .posInf | .negInf, .negInf => .posInf
  | .posInf, .negInf | .negInf, .posInf => .negInf
  | .posInf, .fin q | .fin q, .posInf => infTimes q
  | .negInf, .fin q | .fin q, .negInf => infTimes (-q)
  | .fin p, .fin q => .fin (p * q)

/-- `a / b`, with the sign of a zero divisor taken positive. -/
protected def div : JsNumber → JsNumber → JsNumber
  | .nan, _ | _, .nan => .nan
  | .posInf, .fin q => if q < 0 then .negInf else .posInf
  | .negInf, .fin q => if q < 0 then .posInf else .negInf
  | .posInf, _ | .negInf, _ => .nan
  | .fin _, .posInf | .fin _, .negInf => .fin 0
  | .fin p, .fin q =>
      if q = 0 then if p = 0 then .nan else if 0 < p then .posInf else .negInf
      else .fin (p / q)

instance : Neg JsNumber := ⟨JsNumber.neg⟩
instance : Add JsNumber := ⟨JsNumber.add⟩
instance : Sub JsNumber := ⟨fun a b => a + -b⟩
instance : Mul JsNumber := ⟨JsNumber.mul⟩
instance : Div JsNumber := ⟨JsNumber.div⟩

/-- The operator `<`; `b > a` is `a < b`. -/
protected def lt : JsNumber → JsNumber → Bool
  | .fin p, .fin q => decide (p < q)
  | .negInf, .fin _ | .negInf, .posInf | .fin _, .posInf => true
  | _, _ => false

/-- The operator `<=`: not the negation of `>`, since both are false on `NaN`. -/
protected def le : JsNumber → JsNumber → Bool
  | .fin p, .fin q => decide (p ≤ q)
  | .negInf, .negInf | .posInf, .posInf => true
  | .negInf, .fin _ | .negInf, .posInf | .fin _, .posInf => true
  | _, _ => false

instance : LT JsNumber := ⟨fun a b => JsNumber.lt a b = true⟩
instance : LE JsNumber := ⟨fun a b => JsNumber.le a b = true⟩
instance (a b : JsNumber) : Decidable (a < b) :=
  inferInstanceAs (Decidable (JsNumber.lt a b = true))
instance (a b : JsNumber) : Decidable (a ≤ b) :=
  inferInstanceAs (Decidable (JsNumber.le a b = true))

/-- The operator `===` on numbers: `NaN` differs from itself. -/
def strictEq (a b : JsNumber) : Bool := a != .nan && a == b

/-- `Number.isInteger`. -/
def isInteger : JsNumber → Bool
  | .fin q => q.den == 1
  | _ => false

/-- `Number.isFinite`. -/
def isFinite : JsNumber → Bool
  | .fin _ => true
  | _ => false

/-- `Math.round`: to the nearest integer, halves upward. -/
def round : JsNumber → JsNumber
  | .fin q => .fin ((q + 1 / 2).floor : ℚ)
  | x => x

/-- `10 ** k` at an integer exponent. -/
def pow10 (k : Int) : JsNumber :=
  if 0 ≤ k then .fin ((10 : ℚ) ^ k.toNat) else .fin (1 / (10 : ℚ) ^ (-k).toNat)

/-! ### Decimal text -/

/-- The least `k` from the given one on, within the fuel, with `q * 10 ^ k` an
integer. -/
def placesFrom (q : ℚ) : Nat → Nat → Nat
  | 0, k => k
  | fuel + 1, k => if (q * 10 ^ k).den = 1 then k else placesFrom q fuel (k + 1)

/-- The number of fraction digits of a terminating expansion: a denominator
`2 ^ a * 5 ^ b` needs the larger of `a` and `b`. -/
def fractionPlaces (q : ℚ) : Nat := placesFrom q q.den.log2 0

/-- The decimal expansion of `q` ends. -/
def Terminates (q : ℚ) : Prop := (q * 10 ^ q.den.log2).den = 1

instance (q : ℚ) : Decidable (Terminates q) := inferInstanceAs (Decidable (_ = _))

/-- The value a text shows: `q` itself when its expansion ends, as that of
every double does, else `q` cut after seventeen places. -/
def shown (q : ℚ) : ℚ :=
  if Terminates q then q else (((q.num * 10 ^ 17).tdiv q.den : ℤ) : ℚ) / 10 ^ 17

/-- Sign, whole part and fraction of a terminating expansion. -/
def decimalText (q : ℚ) : List Char :=
  let k := fractionPlaces q
  let n := (q * 10 ^ k).num.natAbs
  (if q < 0 then ['-'] else []) ++ (Nat.toDigits 10 (n / 10 ^ k) ++
    if k = 0 then [] else '.' :: (Nat.toDigits 10 (n % 10 ^ k)).leftpad k '0')

/-- `String(x)`.  A fraction prints its decimal expansion in full, where a
double shows the shortest decimal that reads back as it. -/
protected def toString : JsNumber → String
  | .nan => "NaN"
  | .posInf => "Infinity"
  | .negInf => "-Infinity"
  | .fin q => String.ofList (decimalText (shown q))

instance : ToString JsNumber := ⟨JsNumber.toString⟩

/-! ### Finite values -/

@[simp] theorem fin_lt_fin {p q : ℚ} : JsNumber.fin p < .fin q ↔ p < q := by
  show decide (p < q) = true ↔ p < q
  exact decide_eq_true_iff

@[simp] theorem fin_le_fin {p q : ℚ} : JsNumber.fin p ≤ .fin q ↔ p ≤ q := by
  show decide (p ≤ q) = true ↔ p ≤ q
  exact decide_eq_true_iff

@[simp] theorem fin_add_fin (p q : ℚ) :
    JsNumber.fin p + .fin q = .fin (p + q) := rfl

@[simp] theorem fin_sub_fin (p q : ℚ) :
    JsNumber.fin p - .fin q = .fin (p - q) := by
  show JsNumber.fin (p + -q) = _
  rw [sub_eq_add_neg]

theorem fin_div_fin (p : ℚ) {q : ℚ} (hq : q ≠ 0) :
    JsNumber.fin p / .fin q = .fin (p / q) := by
  show JsNumber.div (.fin p) (.fin q) = _
  rw [JsNumber.div, if_neg hq]

@[simp] theorem ofNat_eq_fin (n : Nat) :
    (OfNat.ofNat n : JsNumber) = .fin (n : ℚ) := rfl

@[simp] theorem natCast_eq_fin (n : Nat) : (n : JsNumber) = .fin (n : ℚ) := rfl

theorem natCast_inj {m n : Nat} : (m : JsNumber) = n ↔ m = n := by simp

theorem natCast_lt_natCast {m n : Nat} : (m : JsNumber) < n ↔ m < n := by simp

theorem lt_natCast_of_lt {a : JsNumber} {m n : Nat} (h : a < m) (hmn : m ≤ n) :
    a < n := by
  cases a with
  | fin q => exact fin_lt_fin.2 (lt_of_lt_of_le (fin_lt_fin.1 h) (by exact_mod_cast hmn))
  | negInf => exact h
  | nan => exact absurd h Bool.false_ne_true
  | posInf => exact absurd h Bool.false_ne_true

theorem ne_of_lt {a b : JsNumber} (h : a < b) : a ≠ b := by
  rintro rfl
  cases a with
  | fin q => exact lt_irrefl q (fin_lt_fin.1 h)
  | _ => exact Bool.false_ne_true h

theorem not_lt_of_lt {a b : JsNumber} (h : a < b) : ¬ b < a := by
  cases a with
  | fin p =>
      cases b with
      | fin q => exact fun hlt => lt_asymm (fin_lt_fin.1 h) (fin_lt_fin.1 hlt)
      | posInf => exact Bool.false_ne_true
      | _ => exact absurd h Bool.false_ne_true
  | negInf => cases b <;> exact Bool.false_ne_true
  | _ => exact absurd h Bool.false_ne_true

@[simp] theorem not_lt_nan (a : JsNumber) : ¬ a < .nan := by
  cases a <;> exact Bool.false_ne_true

@[simp] theorem not_nan_lt (a : JsNumber) : ¬ JsNumber.nan < a := by
  exact Bool.false_ne_true

@[simp] theorem not_le_nan (a : JsNumber) : ¬ a ≤ .nan := by
  cases a <;> exact Bool.false_ne_true

@[simp] theorem not_nan_le (a : JsNumber) : ¬ JsNumber.nan ≤ a := by
  exact Bool.false_ne_true

/-- Away from `NaN` the order is total, so a failed `>` guard is a proved
bound.  This is the only place where the guards of the program and the bounds
they are meant to enforce differ. -/
theorem not_lt_iff_le {a b : JsNumber} (ha : a ≠ .nan) (hb : b ≠ .nan) :
    ¬ b < a ↔ a ≤ b := by
  cases a <;> cases b
  case fin.fin p q => simp
  all_goals simp_all [LT.lt, LE.le, JsNumber.lt, JsNumber.le]

theorem le_iff_not_lt {a b : JsNumber} :
    a ≤ b ↔ ¬ b < a ∧ a ≠ .nan ∧ b ≠ .nan := by
  constructor
  · intro h
    have ha : a ≠ .nan := by rintro rfl; exact not_nan_le b h
    have hb : b ≠ .nan := by rintro rfl; exact not_le_nan a h
    exact ⟨(not_lt_iff_le ha hb).2 h, ha, hb⟩
  · rintro ⟨h, ha, hb⟩
    exact (not_lt_iff_le ha hb).1 h

protected theorem le_trans {a b c : JsNumber} (hab : a ≤ b) (hbc : b ≤ c) : a ≤ c := by
  rw [le_iff_not_lt] at *
  obtain ⟨hab, ha, hb⟩ := hab
  obtain ⟨hbc, -, hc⟩ := hbc
  refine ⟨?_, ha, hc⟩
  cases a with
  | fin p => cases b with
    | fin q => cases c with
      | fin r =>
          rw [fin_lt_fin, not_lt] at *
          exact le_trans hab hbc
      | _ => simp_all [LT.lt, JsNumber.lt]
    | _ => cases c <;> simp_all [LT.lt, JsNumber.lt]
  | _ => cases b <;> cases c <;> simp_all [LT.lt, JsNumber.lt]

theorem lt_of_not_le {a b : JsNumber} (ha : a ≠ .nan) (hb : b ≠ .nan) (h : ¬ b ≤ a) :
    a < b := by
  by_contra hlt
  exact h ((not_lt_iff_le hb ha).1 hlt)

/-- What is left goes below zero exactly when the sum goes over the bound,
whatever infinities or `NaN` the numbers are. -/
theorem sub_sub_lt_zero_iff (a b c : JsNumber) : a - b - c < 0 ↔ a < b + c := by
  cases a with
  | fin p =>
      cases b with
      | fin q =>
          cases c with
          | fin r =>
              rw [fin_sub_fin, fin_sub_fin, fin_add_fin, ofNat_eq_fin, fin_lt_fin, fin_lt_fin,
                Nat.cast_zero, sub_sub, sub_neg]
          | nan => exact Iff.rfl
          | posInf => exact Iff.rfl
          | negInf => exact Iff.rfl
      | nan => cases c <;> exact Iff.rfl
      | posInf => cases c <;> exact Iff.rfl
      | negInf => cases c <;> exact Iff.rfl
  | nan => cases b <;> cases c <;> exact Iff.rfl
  | posInf => cases b <;> cases c <;> exact Iff.rfl
  | negInf => cases b <;> cases c <;> exact Iff.rfl

/-- Being an integer is being the image of one. -/
theorem isInteger_iff {a : JsNumber} :
    a.isInteger = true ↔ ∃ n : Int, a = .fin (n : ℚ) := by
  constructor
  · intro h
    cases a with
    | fin q =>
        have hden : q.den = 1 := by simpa [isInteger] using h
        exact ⟨q.num, by rw [Rat.den_eq_one_iff] at hden; rw [hden]⟩
    | nan => cases h
    | posInf => cases h
    | negInf => cases h
  · rintro ⟨n, rfl⟩
    simp [isInteger]

theorem isFinite_iff {a : JsNumber} : a.isFinite = true ↔ ∃ q, a = .fin q := by
  cases a <;> simp [isFinite]

/-- The value of a finite number. -/
def value : JsNumber → ℚ
  | .fin q => q
  | _ => 0

@[simp] theorem value_fin (q : ℚ) : (JsNumber.fin q).value = q := rfl

theorem fin_value {a : JsNumber} (h : a.isFinite = true) : .fin a.value = a := by
  obtain ⟨q, rfl⟩ := isFinite_iff.1 h
  rfl

/-! ### Sums

Addition commutes and associates, the infinities and `NaN` included;
`xs.reduce((sum, x) => sum + x, 0)` over finite values is the rational sum. -/

protected theorem add_comm (a b : JsNumber) : a + b = b + a := by
  cases a with
  | fin p =>
      cases b with
      | fin q => rw [fin_add_fin, fin_add_fin, Rat.add_comm]
      | _ => rfl
  | _ => cases b <;> rfl

protected theorem add_assoc (a b c : JsNumber) : a + b + c = a + (b + c) := by
  cases a with
  | fin p =>
      cases b with
      | fin q =>
          cases c with
          | fin r => simp only [fin_add_fin, Rat.add_assoc]
          | _ => rfl
      | _ => cases c <;> rfl
  | _ => cases b <;> cases c <;> rfl

/-- The left-to-right sum the source writes as a `reduce` from `0`. -/
def sum (xs : List JsNumber) : JsNumber := xs.foldl (· + ·) 0

theorem foldl_add_fin (xs : List ℚ) (a : ℚ) :
    (xs.map JsNumber.fin).foldl (· + ·) (.fin a) = .fin (a + xs.sum) := by
  induction xs generalizing a with
  | nil => simp
  | cons x xs ih =>
      simp only [List.map_cons, List.foldl_cons, fin_add_fin, List.sum_cons]
      rw [ih, add_assoc]

@[simp] theorem sum_map_fin (xs : List ℚ) :
    sum (xs.map JsNumber.fin) = .fin xs.sum := by
  have h := foldl_add_fin xs 0
  rw [zero_add] at h
  exact h

/-- Finite numbers add up to the sum of their values. -/
theorem sum_of_isFinite {xs : List JsNumber} (h : ∀ x ∈ xs, x.isFinite = true) :
    sum xs = .fin (xs.map value).sum := by
  have hxs : xs = (xs.map value).map JsNumber.fin := by
    rw [List.map_map]
    exact (List.map_id xs).symm.trans (List.map_congr_left fun x hx => (fin_value (h x hx)).symm)
  rw [hxs, sum_map_fin, ← hxs]

@[simp] theorem sum_nil : sum [] = 0 := rfl

@[simp] theorem sum_snoc (xs : List JsNumber) (x : JsNumber) :
    sum (xs ++ [x]) = sum xs + x := by
  simp only [sum, List.foldl_append, List.foldl_cons, List.foldl_nil]

end JsNumber

end AgentWorth.Js
