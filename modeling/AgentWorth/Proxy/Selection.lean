import AgentWorth.Lib.Double
import AgentWorth.Proxy.X402Proxy

/-!
# The cheapest offer

`selectRequirement` and `intentFor` of `src/proxy/x402Proxy.ts`, with the amounts
of the offers as the doubles that `Number` makes of their texts.  An offer is
payable when its text is the decimal spelling of a positive integer, but what is
selected is the first least finite number, whatever text it comes from.
-/

namespace AgentWorth.X402Selection

open AgentWorth.Js

/-! ## The first least element -/

section

variable {α β : Type} [LinearOrder β] {key : α → β}

/-- The lesser of two elements, the first of equals. -/
def lesser (key : α → β) (best x : α) : α := if key x < key best then x else best

/-- The elements before are greater, those after are not less. -/
structure FirstLeast (key : α → β) (before : List α) (m : α) (after : List α) : Prop where
  before : ∀ b ∈ before, key m < key b
  after : ∀ a ∈ after, key m ≤ key a

theorem foldl_lesser_spec : ∀ (xs : List α) (x : α), ∃ before after,
    x :: xs = before ++ xs.foldl (lesser key) x :: after ∧
      FirstLeast key before (xs.foldl (lesser key) x) after
  | [], x => ⟨[], [], rfl, by simp, by simp⟩
  | y :: xs, x => by
      obtain ⟨before, after, heq, hleast⟩ := foldl_lesser_spec xs (lesser key x y)
      rw [List.foldl_cons]
      generalize xs.foldl (lesser key) (lesser key x y) = m at heq hleast
      unfold lesser at heq
      split at heq
      · next hlt =>
          refine ⟨x :: before, after, by rw [heq, List.cons_append], ?_, hleast.after⟩
          refine List.forall_mem_cons.2 ⟨?_, hleast.before⟩
          have hle : key m ≤ key y := by
            cases before with
            | nil => exact (congrArg key (List.cons.inj heq).1).ge
            | cons b bs =>
                rw [(List.cons.inj heq).1]
                exact (hleast.before b List.mem_cons_self).le
          exact hle.trans_lt hlt
      · next hge =>
          cases before with
          | nil =>
              obtain ⟨rfl, rfl⟩ := List.cons.inj heq
              refine ⟨[], y :: xs, rfl, by simp, ?_⟩
              exact List.forall_mem_cons.2 ⟨not_lt.1 hge, hleast.after⟩
          | cons b bs =>
              obtain ⟨rfl, rfl⟩ := List.cons.inj heq
              have hx := hleast.before x List.mem_cons_self
              refine ⟨x :: y :: bs, after, rfl, ?_, hleast.after⟩
              refine List.forall_mem_cons.2 ⟨hx, List.forall_mem_cons.2 ⟨?_, ?_⟩⟩
              · exact hx.trans_le (not_lt.1 hge)
              · exact fun b hb => hleast.before b (List.mem_cons_of_mem _ hb)

/-- An element that nothing is less than stays. -/
theorem foldl_lesser_of_le {m : α} : ∀ {xs : List α}, (∀ x ∈ xs, key m ≤ key x) →
    xs.foldl (lesser key) m = m
  | [], _ => rfl
  | x :: xs, h => by
      obtain ⟨hx, hxs⟩ := List.forall_mem_cons.1 h
      rw [List.foldl_cons, lesser, if_neg (not_lt.2 hx)]
      exact foldl_lesser_of_le hxs

theorem foldl_lesser_eq {m : α} {after : List α} : ∀ {before : List α} {x : α},
    FirstLeast key (x :: before) m after → (before ++ m :: after).foldl (lesser key) x = m
  | [], x, h => by
      rw [List.nil_append, List.foldl_cons, lesser, if_pos (h.before x List.mem_cons_self)]
      exact foldl_lesser_of_le h.after
  | b :: before, x, h => by
      rw [List.cons_append, List.foldl_cons]
      refine foldl_lesser_eq ⟨?_, h.after⟩
      obtain ⟨hx, hrest⟩ := List.forall_mem_cons.1 h.before
      obtain ⟨hb, hbefore⟩ := List.forall_mem_cons.1 hrest
      refine List.forall_mem_cons.2 ⟨?_, hbefore⟩
      unfold lesser
      split
      · exact hb
      · exact hx

/-- `xs.reduce(lesser)`. -/
def reduceLesser (key : α → β) : List α → Option α
  | [] => none
  | x :: xs => some (xs.foldl (lesser key) x)

/-- **The reduction finds the first least element.** -/
theorem reduceLesser_eq_some_iff {l : List α} {m : α} : reduceLesser key l = some m ↔
    ∃ before after, l = before ++ m :: after ∧ FirstLeast key before m after := by
  constructor
  · intro h
    cases l with
    | nil => cases h
    | cons x xs =>
        cases h
        exact foldl_lesser_spec xs x
  · rintro ⟨before, after, rfl, h⟩
    cases before with
    | nil => exact congrArg some (foldl_lesser_of_le h.after)
    | cons b bs => exact congrArg some (foldl_lesser_eq h)

end

/-! ## The selection -/

/-- `Number(r.maxAmountRequired)`. -/
def offered (r : PaymentRequirements) : JsNumber := toNumber r.maxAmountRequired.toList

/-- The offers that are compared. -/
def eligible (networks : Option (List String)) (r : PaymentRequirements) : Bool :=
  networkAllowed networks r.network && (offered r).isFinite

def cheaper (best r : PaymentRequirements) : PaymentRequirements :=
  if offered r < offered best then r else best

def selectRequirement (accepts : List PaymentRequirements) (networks : Option (List String)) :
    Option PaymentRequirements :=
  match accepts.filter (eligible networks) with
  | [] => none
  | r :: rs => some (rs.foldl cheaper r)

def intentFor (req : PaymentRequirements) (ctx : ChallengeContext) : PaymentIntent :=
  { X402Proxy.intentFor req ctx with amount := mathTrunc (offered req) }

/-- On an allowed network, and the decimal spelling of a positive integer. -/
structure Payable (networks : Option (List String)) (r : PaymentRequirements) (n : Nat) :
    Prop where
  network : networkAllowed networks r.network = true
  pos : 0 < n
  spelled : r.maxAmountRequired.toList = Nat.toDigits 10 n

/-- The selection a list of offers should have: none if none is payable, else a
payable one of the least amount, with an intent for that amount. -/
def CheapestPayable (networks : Option (List String)) (accepts : List PaymentRequirements) :
    Option PaymentRequirements → Prop
  | none => ∀ r ∈ accepts, ∀ n, ¬ Payable networks r n
  | some r => r ∈ accepts ∧ ∃ n, Payable networks r n ∧
      (∀ r' ∈ accepts, ∀ n', Payable networks r' n' → n ≤ n') ∧
      ∀ ctx, (intentFor r ctx).amount = .fin (n : ℚ)

/-- An offer between others: it is payable, for an amount that is a double, no
payable offer is for less, and no text of the earlier offers counts for as
little, none of the later ones for less. -/
structure Leads (networks : Option (List String)) (before : List PaymentRequirements)
    (r : PaymentRequirements) (n : Nat) (after : List PaymentRequirements) : Prop where
  payable : Payable networks r n
  double : offered r = .fin (n : ℚ)
  least : ∀ r' ∈ before ++ r :: after, ∀ n', Payable networks r' n' → n ≤ n'
  before : ∀ b ∈ before, eligible networks b = true → (.fin (n : ℚ) : JsNumber) < offered b
  after : ∀ a ∈ after, eligible networks a = true → (.fin (n : ℚ) : JsNumber) ≤ offered a

/-! ## Offers as doubles -/

theorem mathTrunc_intCast (z : ℤ) : mathTrunc (.fin (z : ℚ)) = .fin (z : ℚ) := by
  have hneg : (-(z : ℚ)).floor = -z := by
    rw [← Int.cast_neg, Rat.floor_intCast]
  unfold mathTrunc
  dsimp only
  split_ifs
  · rw [hneg, neg_neg]
  · rw [Rat.floor_intCast]

/-- The amount of a spelled integer is infinite or an integer. -/
theorem offered_of_spelled {r : PaymentRequirements} {n : Nat}
    (h : r.maxAmountRequired.toList = Nat.toDigits 10 n) :
    offered r = .posInf ∨ ∃ z : ℤ, offered r = .fin (z : ℚ) := by
  have hread : stringToNumber (Nat.toDigits 10 n) = _ :=
    stringToNumber_digits Nat.toDigits_ne_nil Numeral.isDigit_toDigits
  rw [Nat.ofDigitChars_ten_toDigits] at hread
  unfold offered toNumber
  rw [h, hread]
  unfold ofRational
  split_ifs with hbig hsmall
  · exact .inl rfl
  · have hpos : (0 : ℚ) ≤ n := Nat.cast_nonneg n
    have hlimit : (0 : ℚ) < 2 ^ 1024 - 2 ^ 970 :=
      sub_pos.2 (pow_lt_pow_right₀ one_lt_two (by decide))
    exact absurd (hsmall.trans_lt (neg_neg_of_pos hlimit)) (not_lt.2 hpos)
  · exact .inr (toDouble_natCast_integer n)

/-- An intent for the spelled integer is of an offer that counts as much. -/
theorem offered_of_amount {networks : Option (List String)} {r : PaymentRequirements} {n : Nat}
    (hpayable : Payable networks r n) (hamount : mathTrunc (offered r) = .fin (n : ℚ)) :
    offered r = .fin (n : ℚ) := by
  obtain hinf | ⟨z, hz⟩ := offered_of_spelled hpayable.spelled
  · rw [hinf] at hamount
    cases hamount
  · rwa [hz, mathTrunc_intCast, ← hz] at hamount

/-- A text spells one integer. -/
theorem Payable.unique {networks : Option (List String)} {r : PaymentRequirements} {n n' : Nat}
    (h : Payable networks r n) (h' : Payable networks r n') : n = n' := by
  have hdigits : Nat.toDigits 10 n = Nat.toDigits 10 n' := h.spelled.symm.trans h'.spelled
  have hread := congrArg (fun cs => Nat.ofDigitChars 10 cs 0) hdigits
  rwa [Nat.ofDigitChars_ten_toDigits, Nat.ofDigitChars_ten_toDigits] at hread

/-- Up to `2 ^ 53` the amount of a spelled integer is that integer. -/
theorem offered_eq_of_lt {networks : Option (List String)} {r : PaymentRequirements} {n : Nat}
    (hpayable : Payable networks r n) (h : n < 2 ^ 53) : offered r = .fin (n : ℚ) := by
  rw [offered, hpayable.spelled, toNumber_toDigits h]

/-! ## The selection is the first least -/

theorem foldl_cheaper {xs : List PaymentRequirements} {x : PaymentRequirements}
    (h : ∀ r ∈ x :: xs, (offered r).isFinite = true) :
    xs.foldl cheaper x = xs.foldl (lesser fun r => (offered r).value) x := by
  induction xs generalizing x with
  | nil => rfl
  | cons y xs ih =>
      obtain ⟨hx, hrest⟩ := List.forall_mem_cons.1 h
      obtain ⟨hy, hxs⟩ := List.forall_mem_cons.1 hrest
      have hstep : cheaper x y = lesser (fun r => (offered r).value) x y := by
        unfold cheaper lesser
        rw [← JsNumber.fin_value hx, ← JsNumber.fin_value hy]
        simp only [JsNumber.fin_lt_fin]
      rw [List.foldl_cons, List.foldl_cons, hstep]
      refine ih (List.forall_mem_cons.2 ⟨?_, hxs⟩)
      unfold lesser
      split
      · exact hy
      · exact hx

theorem selectRequirement_eq (accepts : List PaymentRequirements)
    (networks : Option (List String)) :
    selectRequirement accepts networks =
      reduceLesser (fun r => (offered r).value) (accepts.filter (eligible networks)) := by
  have hfinite : ∀ r ∈ accepts.filter (eligible networks), (offered r).isFinite = true := by
    intro r hr
    have := (List.mem_filter.1 hr).2
    rw [eligible, Bool.and_eq_true] at this
    exact this.2
  unfold selectRequirement
  cases hlist : accepts.filter (eligible networks) with
  | nil => rfl
  | cons r rs =>
      rw [hlist] at hfinite
      exact congrArg some (foldl_cheaper hfinite)

/-- **What is selected**: an eligible offer, less than the eligible ones before it
and not more than those after it. -/
theorem selectRequirement_eq_some_iff {accepts : List PaymentRequirements}
    {networks : Option (List String)} {r : PaymentRequirements} :
    selectRequirement accepts networks = some r ↔
      ∃ before after, accepts = before ++ r :: after ∧ eligible networks r = true ∧
        (∀ b ∈ before, eligible networks b = true → offered r < offered b) ∧
        ∀ a ∈ after, eligible networks a = true → offered r ≤ offered a := by
  have hfinite : ∀ r, eligible networks r = true → .fin (offered r).value = offered r := by
    intro r hr
    rw [eligible, Bool.and_eq_true] at hr
    exact JsNumber.fin_value hr.2
  rw [selectRequirement_eq, reduceLesser_eq_some_iff]
  constructor
  · rintro ⟨kept, kept', hsplit, hleast⟩
    obtain ⟨before, rest, rfl, rfl, hrest⟩ := List.filter_eq_append_iff.1 hsplit
    obtain ⟨skipped, after, rfl, hskipped, hr, rfl⟩ := List.filter_eq_cons_iff.1 hrest
    refine ⟨before ++ skipped, after, by simp, hr, fun b hb hb' => ?_, fun a ha ha' => ?_⟩
    · have hmem : b ∈ before.filter (eligible networks) := by
        obtain hb | hb := List.mem_append.1 hb
        · exact List.mem_filter.2 ⟨hb, hb'⟩
        · exact absurd hb' (by simpa using hskipped b hb)
      rw [← hfinite r hr, ← hfinite b hb', JsNumber.fin_lt_fin]
      exact hleast.before b hmem
    · rw [← hfinite r hr, ← hfinite a ha', JsNumber.fin_le_fin]
      exact hleast.after a (List.mem_filter.2 ⟨ha, ha'⟩)
  · rintro ⟨before, after, rfl, hr, hbefore, hafter⟩
    refine ⟨before.filter (eligible networks), after.filter (eligible networks), ?_, ?_, ?_⟩
    · rw [List.filter_append, List.filter_cons_of_pos hr]
    · intro b hb
      obtain ⟨hb, hb'⟩ := List.mem_filter.1 hb
      have := hbefore b hb hb'
      rwa [← hfinite r hr, ← hfinite b hb', JsNumber.fin_lt_fin] at this
    · intro a ha
      obtain ⟨ha, ha'⟩ := List.mem_filter.1 ha
      have := hafter a ha ha'
      rwa [← hfinite r hr, ← hfinite a ha', JsNumber.fin_le_fin] at this

theorem selectRequirement_eq_none_iff {accepts : List PaymentRequirements}
    {networks : Option (List String)} :
    selectRequirement accepts networks = none ↔ ∀ r ∈ accepts, eligible networks r = false := by
  have hnil : selectRequirement accepts networks = none ↔
      accepts.filter (eligible networks) = [] := by
    unfold selectRequirement
    cases accepts.filter (eligible networks) with
    | nil => simp
    | cons r rs => simp
  rw [hnil, List.filter_eq_nil_iff]
  simp only [Bool.not_eq_true]

/-! ## When it is the cheapest payable offer -/

/-- **The selection is right** if and only if no offer is compared and none is
payable, or a payable offer leads. -/
theorem selectRequirement_cheapest_iff (accepts : List PaymentRequirements)
    (networks : Option (List String)) :
    CheapestPayable networks accepts (selectRequirement accepts networks) ↔
      (∀ r ∈ accepts, eligible networks r = false ∧ ∀ n, ¬ Payable networks r n) ∨
        ∃ before r n after, accepts = before ++ r :: after ∧ Leads networks before r n after := by
  constructor
  · intro h
    cases hselected : selectRequirement accepts networks with
    | none =>
        rw [hselected] at h
        have hnone := selectRequirement_eq_none_iff.1 hselected
        exact .inl fun r hr => ⟨hnone r hr, h r hr⟩
    | some r =>
        rw [hselected] at h
        obtain ⟨-, n, hpayable, hleast, hamount⟩ := h
        obtain ⟨before, after, rfl, -, hbefore, hafter⟩ :=
          selectRequirement_eq_some_iff.1 hselected
        have hdouble := offered_of_amount hpayable (hamount
          { id := "", createdAt := "", rail := none, currencyOf := none, payeeClassOf := none,
            networks := networks })
        rw [hdouble] at hbefore hafter
        exact .inr ⟨before, r, n, after, rfl, hpayable, hdouble, hleast, hbefore, hafter⟩
  · rintro (hnone | ⟨before, r, n, after, rfl, hleads⟩)
    · rw [selectRequirement_eq_none_iff.2 fun r hr => (hnone r hr).1]
      exact fun r hr => (hnone r hr).2
    · have heligible : eligible networks r = true := by
        rw [eligible, hleads.payable.network, hleads.double]
        rfl
      have hselected : selectRequirement (before ++ r :: after) networks = some r := by
        refine selectRequirement_eq_some_iff.2 ⟨before, after, rfl, heligible, ?_, ?_⟩
        · rw [hleads.double]
          exact hleads.before
        · rw [hleads.double]
          exact hleads.after
      rw [hselected]
      refine ⟨List.mem_append_right _ List.mem_cons_self, n, hleads.payable, hleads.least, ?_⟩
      intro ctx
      show mathTrunc (offered r) = _
      rw [hleads.double, ← Int.cast_natCast, mathTrunc_intCast]

/-- Two offers on any network, the first without an amount. -/
theorem blank_offer_displaces :
    ¬ ∀ (accepts : List PaymentRequirements) (networks : Option (List String)),
      CheapestPayable networks accepts (selectRequirement accepts networks) := by
  intro h
  have hselected : selectRequirement [Sample.offer "mallory" "", Sample.offer "weather" "1000"]
      none = some (Sample.offer "mallory" "") := by
    decide +kernel
  have hcheapest := h [Sample.offer "mallory" "", Sample.offer "weather" "1000"] none
  rw [hselected] at hcheapest
  obtain ⟨-, n, hpayable, -⟩ := hcheapest
  exact Nat.toDigits_ne_nil hpayable.spelled.symm

/-- Where every offer on the networks spells a positive integer below `2 ^ 53`,
the selection is right. -/
theorem selectRequirement_cheapest {accepts : List PaymentRequirements}
    {networks : Option (List String)}
    (h : ∀ r ∈ accepts, networkAllowed networks r.network = true →
      ∃ n < 2 ^ 53, Payable networks r n) :
    CheapestPayable networks accepts (selectRequirement accepts networks) := by
  have hoffered : ∀ r ∈ accepts, ∀ n, Payable networks r n → offered r = .fin (n : ℚ) := by
    intro r hr n hpayable
    obtain ⟨n', hn', hpayable'⟩ := h r hr hpayable.network
    rw [hpayable.unique hpayable']
    exact offered_eq_of_lt hpayable' hn'
  have heligible : ∀ r ∈ accepts, ∀ n, Payable networks r n → eligible networks r = true := by
    intro r hr n hpayable
    rw [eligible, hpayable.network, hoffered r hr n hpayable]
    rfl
  refine (selectRequirement_cheapest_iff accepts networks).2 ?_
  cases hselected : selectRequirement accepts networks with
  | none =>
      refine .inl fun r hr => ⟨selectRequirement_eq_none_iff.1 hselected r hr, fun n hpayable => ?_⟩
      have hnot := selectRequirement_eq_none_iff.1 hselected r hr
      rw [heligible r hr n hpayable] at hnot
      cases hnot
  | some r =>
      obtain ⟨before, after, rfl, hr, hbefore, hafter⟩ :=
        selectRequirement_eq_some_iff.1 hselected
      have hmem : r ∈ before ++ r :: after := List.mem_append_right _ List.mem_cons_self
      rw [eligible, Bool.and_eq_true] at hr
      obtain ⟨n, -, hpayable⟩ := h r hmem hr.1
      rw [hoffered r hmem n hpayable] at hbefore hafter
      refine .inr ⟨before, r, n, after, rfl, hpayable, hoffered r hmem n hpayable, ?_, hbefore,
        hafter⟩
      intro r' hr' n' hpayable'
      have hcost := hoffered r' hr' n' hpayable'
      have helig := heligible r' hr' n' hpayable'
      obtain hr' | hr' := List.mem_append.1 hr'
      · have hlt := hbefore r' hr' helig
        rw [hcost, JsNumber.fin_lt_fin] at hlt
        exact_mod_cast hlt.le
      · obtain rfl | hr' := List.mem_cons.1 hr'
        · exact (hpayable.unique hpayable').le
        · have hle := hafter r' hr' helig
          rw [hcost, JsNumber.fin_le_fin] at hle
          exact_mod_cast hle

/-- Where the texts spell doubles, the exact amounts select the same offer. -/
theorem selectRequirement_eq_exact {accepts : List PaymentRequirements}
    (networks : Option (List String)) (h : ∀ r ∈ accepts, offered r = r.price) :
    selectRequirement accepts networks = X402Proxy.selectRequirement accepts networks := by
  have hfilter : accepts.filter (eligible networks) =
      accepts.filter fun r => networkAllowed networks r.network && r.price.isFinite :=
    List.filter_congr fun r hr => by rw [eligible, h r hr]
  have hfold : ∀ (xs : List PaymentRequirements) (x : PaymentRequirements),
      (∀ r ∈ x :: xs, offered r = r.price) →
        xs.foldl cheaper x = xs.foldl X402Proxy.cheaper x := by
    intro xs
    induction xs with
    | nil => exact fun _ _ => rfl
    | cons y xs ih =>
        intro x hall
        obtain ⟨hx, hrest⟩ := List.forall_mem_cons.1 hall
        obtain ⟨hy, hxs⟩ := List.forall_mem_cons.1 hrest
        have hstep : cheaper x y = X402Proxy.cheaper x y := by
          unfold cheaper X402Proxy.cheaper
          rw [hx, hy]
        rw [List.foldl_cons, List.foldl_cons, hstep]
        refine ih _ (List.forall_mem_cons.2 ⟨?_, hxs⟩)
        unfold X402Proxy.cheaper
        split
        · exact hy
        · exact hx
  unfold selectRequirement X402Proxy.selectRequirement
  rw [← hfilter]
  have hkept : ∀ r ∈ accepts.filter (eligible networks), offered r = r.price :=
    fun r hr => h r (List.mem_filter.1 hr).1
  cases hlist : accepts.filter (eligible networks) with
  | nil => rfl
  | cons r rs =>
      rw [hlist] at hkept
      exact congrArg some (hfold rs r hkept)

end AgentWorth.X402Selection
