import AgentWorth.Finance.Retirement

/-!
# The cost of waiting

`startNowVsLater` rounds the pot at the moment contributions begin and compounds
the rounded pot.  The pence that rounding adds or takes away grow with it until
the horizon.  A single month's contribution outweighs them; without one nothing
does, and the two pots agree exactly as long as the last rounding absorbs what
has become of them.
-/

namespace AgentWorth.Finance

open AgentWorth.Js AgentWorth.Lib

/-! ## What waiting should cost -/

/-- Waiting never pays: the later pot is no larger, the two are equal where
nothing is contributed or nobody waits, and the cost is their difference. -/
structure WaitingNeverPays (contribution delay : ℕ) (result : StartNowVsLaterResult) : Prop where
  later_le : result.startLaterPotMinor ≤ result.startNowPotMinor
  costless : contribution = 0 ∨ delay = 0 →
    result.startLaterPotMinor = result.startNowPotMinor ∧ result.costOfWaitingMinor = 0
  unclamped : result.costOfWaitingMinor = result.startNowPotMinor - result.startLaterPotMinor

/-- The start pot after some years on its own, unrounded. -/
def grownPot (rate : ℚ) (pot years : ℕ) : ℚ := pot * (1 + rate / 12) ^ (12 * years)

/-- What rounding the pot after the delay adds to it, grown until the horizon. -/
def carriedPence (rate : ℚ) (pot years delay : ℕ) : ℚ :=
  (round (grownPot rate pot delay) - grownPot rate pot delay) *
    (1 + rate / 12) ^ (12 * (years - delay))

/-- The carried pence take the grown pot past no half penny. -/
def Absorbed (rate : ℚ) (pot years delay : ℕ) : Prop :=
  0 ≤ Int.fract (grownPot rate pot years + 1 / 2) + carriedPence rate pot years delay ∧
    Int.fract (grownPot rate pot years + 1 / 2) + carriedPence rate pot years delay < 1

/-! ## The two pots -/

section

variable {rate : ℚ} (pot contribution : ℕ) {years delay : ℕ}

theorem potAfter_nonneg (hrate : 0 ≤ rate) (months : ℕ) :
    0 ≤ potAfter rate contribution pot months := by
  have hfloor := le_round_accrue (div_nonneg hrate (Nat.cast_nonneg monthsPerYear))
    contribution pot months
  have hpaid : (0 : ℚ) ≤ pot + contribution * months := by positivity
  exact_mod_cast le_trans hpaid hfloor

theorem periodsIn_natCast (years : ℕ) : periodsIn monthsPerYear years = 12 * years := by
  have hwhole : ((monthsPerYear : ℚ) * years) = ((12 * years : ℕ) : ℚ) := by
    push_cast
    rfl
  rw [periodsIn, hwhole, round_natCast, Int.toNat_natCast]

/-- The pots of the two plans, the later one from the rounded pot. -/
theorem startNowVsLater_fin (hrate : 0 ≤ rate) (hdelay : delay ≤ years) :
    ∃ start : ℕ, (start : ℤ) = potAfter rate 0 pot (12 * delay) ∧
      startNowVsLater ⟨⟨pot, contribution, years, .fin rate⟩, delay⟩ =
        some
          { startNowPotMinor := .fin (potAfter rate contribution pot (12 * years))
            startLaterPotMinor :=
              .fin (potAfter rate contribution start (12 * (years - delay)))
            costOfWaitingMinor := mathMax 0
              (.fin (potAfter rate contribution pot (12 * years)) -
                .fin (potAfter rate contribution start (12 * (years - delay)))) } := by
  obtain ⟨start, hstart⟩ := Int.eq_ofNat_of_zero_le (potAfter_nonneg pot 0 hrate (12 * delay))
  obtain ⟨now, hnow, hnowPot, -⟩ := projectRetirement_fin pot contribution years hrate
  obtain ⟨waited, hwaited, hwaitedPot, -⟩ := projectRetirement_fin pot 0 delay hrate
  obtain ⟨later, hlater, hlaterPot, -⟩ :=
    projectRetirement_fin start contribution ((years - delay : ℕ) : ℚ) hrate
  rw [periodsIn_natCast] at hnowPot hwaitedPot hlaterPot
  have hremaining : mathMax 0 ((years : JsNumber) - delay) = .fin ((years - delay : ℕ) : ℚ) := by
    rw [JsNumber.natCast_eq_fin, JsNumber.natCast_eq_fin, JsNumber.fin_sub_fin,
      JsNumber.ofNat_eq_fin, mathMax_fin, Nat.cast_sub hdelay, max_eq_right]
    have : (delay : ℚ) ≤ years := by exact_mod_cast hdelay
    push_cast
    linarith
  have hdelayed : mathMin (delay : JsNumber) years = .fin (delay : ℚ) := by
    rw [JsNumber.natCast_eq_fin, JsNumber.natCast_eq_fin, mathMin_fin, min_eq_left]
    exact_mod_cast hdelay
  refine ⟨start, hstart.symm, ?_⟩
  have hstartPot : waited.projectedPotMinor = ((start : ℕ) : JsNumber) := by
    rw [hwaitedPot, hstart]
    rfl
  unfold startNowVsLater
  simp only [hremaining, hdelayed]
  rw [show projectRetirement ⟨pot, contribution, (years : JsNumber), .fin rate⟩ = some now
    from hnow]
  rw [show projectRetirement ⟨pot, 0, .fin (delay : ℚ), .fin rate⟩ = some waited from hwaited]
  simp only [Option.bind_eq_bind, Option.bind_some, hstartPot, hlater, hnowPot, hlaterPot]

/-- Before rounding, the later pot is the earlier one without the payments of
the delay and with the pence of the rounding. -/
theorem waiting_exact (hdelay : delay ≤ years) {start : ℕ}
    (hstart : (start : ℤ) = potAfter rate 0 pot (12 * delay)) :
    (accrue (rate / monthsPerYear) (contribution : ℚ))^[12 * (years - delay)] start +
        contribution * payments (rate / 12) (12 * delay) *
          (1 + rate / 12) ^ (12 * (years - delay)) =
      (accrue (rate / monthsPerYear) (contribution : ℚ))^[12 * years] pot +
        carriedPence rate pot years delay := by
  have hmonths : 12 * years = 12 * (years - delay) + 12 * delay := by omega
  have hround : (start : ℚ) = (round (grownPot rate pot delay) : ℤ) := by
    rw [potAfter, Nat.cast_zero, iterate_accrue_zero] at hstart
    exact_mod_cast hstart
  rw [hmonths, Function.iterate_add_apply, iterate_accrue, iterate_accrue, iterate_accrue, hround,
    carriedPence, grownPot]
  simp only [monthsPerYear, Nat.cast_ofNat]
  ring

/-- A month's contribution is more than rounding can add. -/
theorem carriedPence_le (hrate : 0 ≤ rate) (hcontribution : contribution ≠ 0) (hwaits : delay ≠ 0) :
    carriedPence rate pot years delay ≤
      contribution * payments (rate / 12) (12 * delay) *
        (1 + rate / 12) ^ (12 * (years - delay)) := by
  have hmonthly : 0 ≤ rate / 12 := div_nonneg hrate (by norm_num)
  have hgrowth : (0 : ℚ) ≤ (1 + rate / 12) ^ (12 * (years - delay)) := by positivity
  have hhalf : (round (grownPot rate pot delay) : ℚ) - grownPot rate pot delay ≤ 1 / 2 := by
    have := round_le_add_half (grownPot rate pot delay)
    linarith
  have hpaid : (1 : ℚ) ≤ contribution * payments (rate / 12) (12 * delay) := by
    have hone : (1 : ℚ) ≤ contribution := by exact_mod_cast Nat.one_le_iff_ne_zero.2 hcontribution
    have hmonths : ((12 * delay : ℕ) : ℚ) ≤ payments (rate / 12) (12 * delay) :=
      le_payments _ hmonthly
    have htwelve : (1 : ℚ) ≤ ((12 * delay : ℕ) : ℚ) := by
      exact_mod_cast (show 1 ≤ 12 * delay by omega)
    nlinarith
  exact mul_le_mul_of_nonneg_right (by linarith) hgrowth

/-- Nobody waits, and nothing is rounded but the start pot itself. -/
theorem carriedPence_zero : carriedPence rate pot years 0 = 0 := by
  have hwhole : grownPot rate pot 0 = (pot : ℚ) := by simp [grownPot]
  rw [carriedPence, hwhole, round_natCast]
  simp

end

/-- **Waiting never pays, exactly when something is contributed or the last
rounding absorbs the pence of the first.** -/
theorem waiting_never_pays_iff (pot contribution : ℕ) {years delay : ℕ} {rate : ℚ}
    (hrate : 0 ≤ rate) (hdelay : delay ≤ years) :
    (∃ result, startNowVsLater ⟨⟨pot, contribution, years, .fin rate⟩, delay⟩ = some result ∧
      WaitingNeverPays contribution delay result) ↔
    (contribution = 0 → Absorbed rate pot years delay) := by
  obtain ⟨start, hstart, hresult⟩ := startNowVsLater_fin pot contribution hrate hdelay
  have hexact := waiting_exact pot contribution hdelay hstart
  set now := potAfter rate contribution pot (12 * years) with hnow
  set later := potAfter rate contribution start (12 * (years - delay)) with hlater
  -- without contributions the pots differ by the carried pence alone
  have habsorbed : contribution = 0 → (later = now ↔ Absorbed rate pot years delay) := by
    intro hnothing
    rw [hnothing, Nat.cast_zero, zero_mul, zero_mul, add_zero] at hexact
    have hgrown : (accrue (rate / monthsPerYear) 0)^[12 * years] (pot : ℚ) =
        grownPot rate pot years := iterate_accrue_zero _ _ _
    rw [hlater, hnow, potAfter, potAfter, hnothing, Nat.cast_zero, hexact, hgrown]
    exact round_add_eq_iff _ _
  rw [hresult]
  constructor
  · rintro ⟨result, hsome, hpays⟩ hnothing
    rw [← Option.some.inj hsome] at hpays
    have hequal := (hpays.costless (.inl hnothing)).1
    exact (habsorbed hnothing).1 (by exact_mod_cast JsNumber.fin.inj hequal)
  · intro hcondition
    have hcostless : contribution = 0 ∨ delay = 0 → later = now := by
      intro hwhy
      by_cases hnothing : contribution = 0
      · exact (habsorbed hnothing).2 (hcondition hnothing)
      · have hnone : delay = 0 := by omega
        subst hnone
        rw [carriedPence_zero, add_zero] at hexact
        have hpays : payments (rate / 12) (12 * 0) = 0 := by simp [payments]
        rw [hpays, mul_zero, zero_mul, add_zero] at hexact
        rw [hlater, hnow, potAfter, potAfter, hexact]
    have hle : later ≤ now := by
      by_cases hwhy : contribution = 0 ∨ delay = 0
      · exact le_of_eq (hcostless hwhy)
      · have hcarried := @carriedPence_le rate pot contribution years delay hrate
          (fun h => hwhy (.inl h)) (fun h => hwhy (.inr h))
        exact round_le_round (by linarith)
    have hleQ : (later : ℚ) ≤ now := by exact_mod_cast hle
    have hcost : mathMax 0 (JsNumber.fin now - .fin later) = .fin now - .fin later := by
      rw [JsNumber.fin_sub_fin, JsNumber.ofNat_eq_fin, mathMax_fin, max_eq_right]
      push_cast
      linarith
    refine ⟨_, rfl, ⟨JsNumber.fin_le_fin.2 hleQ, fun hwhy => ?_, hcost⟩⟩
    have hequal := hcostless hwhy
    refine ⟨by rw [hequal], ?_⟩
    rw [hcost, hequal, JsNumber.fin_sub_fin, sub_self]
    rfl

/-- A hundred pounds a month for thirty years, against ten years' delay. -/
theorem waiting_never_pays_thirty_years :
    ∃ result, startNowVsLater ⟨⟨(0 : ℕ), (10000 : ℕ), (30 : ℕ), .fin (1 / 20)⟩, (10 : ℕ)⟩ =
      some result ∧ WaitingNeverPays 10000 10 result :=
  (waiting_never_pays_iff 0 10000 (by norm_num) (by norm_num)).2 (by norm_num)

/-- Fifty pence left alone for two years at five per cent come to more when
contributions of nothing start a year late, and twenty-eight to less. -/
theorem idle_pot_waits :
    startNowVsLater ⟨⟨(50 : ℕ), (0 : ℕ), (2 : ℕ), .fin (1 / 20)⟩, (1 : ℕ)⟩ =
        some ⟨.fin 55, .fin 56, .fin 0⟩ ∧
      startNowVsLater ⟨⟨(28 : ℕ), (0 : ℕ), (2 : ℕ), .fin (1 / 20)⟩, (1 : ℕ)⟩ =
        some ⟨.fin 31, .fin 30, .fin 1⟩ ∧
      ¬ WaitingNeverPays 0 1 ⟨.fin 55, .fin 56, .fin 0⟩ := by
  refine ⟨by decide +kernel, by decide +kernel, fun h => ?_⟩
  exact absurd h.later_le (by decide)

end AgentWorth.Finance
