import AgentWorth.Core.SpendCard
import AgentWorth.Store.Periods

/-!
# What a derived card admits

The card inferred from a history has one entry for each class and currency of
it; the entry's caps are bounds on what was spent that the history attains.
Where the active mandates cover the card, the same payments pass the caps of
the gate again, as long as the calendar period they are counted in is no longer
than the rolling one.
-/

namespace AgentWorth

open AgentWorth.Js AgentWorth.Js.Date AgentWorth.Lib AgentWorth.Lib.Window

/-- What the gate has let through and a clock has stamped. -/
structure CardPayment (p : PaymentIntent) : Prop where
  amount : p.amount.isInteger = true
  time : (parse p.createdAt).isSome = true

/-- When a payment was made, and how much it was. -/
def paymentPoint (p : PaymentIntent) : ℚ × ℚ := ((getTime p.createdAt).value, p.amount.value)

/-- The payments of a history that an entry for a class and a currency is about. -/
def groupOf (history : List PaymentIntent) (payeeClass currency : String) :
    List PaymentIntent :=
  history.filter fun p => counted p && (p.payeeClass == payeeClass && p.currency == currency)

/-- The sum of payments made from `start` on and before `stop`. -/
def spentIn (start stop : ℚ) (ps : List PaymentIntent) : ℚ :=
  sumIn start stop (ps.map paymentPoint)

/-- An entry that payments stay within: rails, single amounts, rolling windows. -/
structure Admits (req : SpendCardRequiredMandate) (ps : List PaymentIntent) : Prop where
  rails : ∀ p ∈ ps, p.rail ∈ req.rails
  perTx : ∀ p ∈ ps, p.amount ≤ req.suggestedPerTxCap
  perPeriod : ∀ start, .fin (spentIn start (start + periodMs req.period) ps) ≤
    req.suggestedPerPeriodCap

/-- An entry with nothing to spare: every rail is used and both caps are met. -/
structure Attains (req : SpendCardRequiredMandate) (ps : List PaymentIntent) : Prop where
  rails : ∀ r ∈ req.rails, ∃ p ∈ ps, p.rail = r
  perTx : ∃ p ∈ ps, p.amount = req.suggestedPerTxCap
  perPeriod : ∃ start, .fin (spentIn start (start + periodMs req.period) ps) =
    req.suggestedPerPeriodCap

/-! ## A history -/

def firstShop : PaymentIntent where
  id := "1"
  payee := "store"
  payeeClass := "groceries"
  amount := 2000
  currency := "GBP"
  rail := .card
  rationale := "weekly shop"
  createdAt := "2026-05-01T00:00:00Z"

def secondShop : PaymentIntent :=
  { firstShop with id := "2", amount := 3500, createdAt := "2026-05-08T00:00:00Z" }

def thirdShop : PaymentIntent :=
  { firstShop with
    id := "3", amount := 1500, rail := .checkout, createdAt := "2026-05-15T00:00:00Z" }

def subscription : PaymentIntent :=
  { firstShop with
    id := "4", payeeClass := "saas", amount := 900, currency := "USD"
    createdAt := "2026-05-02T00:00:00Z" }

/-- Three payments for groceries, by card and at a checkout, and a subscription. -/
def shopperHistory : List PaymentIntent := [firstShop, secondShop, thirdShop, subscription]

/-- No options given. -/
def plainCard : DeriveSpendCardOptions where
  agentId := none
  period := none
  capPadding := none

/-- Mandates that cover what the history needs. -/
def shopperMandates : List Mandate :=
  let grant := fun (id payeeClass currency : String) (rails : List RailKind)
      (perTxCap perPeriodCap : JsNumber) =>
    ({ id := id, label := payeeClass, scope := .class payeeClass, currency := currency
       allowedRails := rails, perTxCap := perTxCap, perPeriodCap := perPeriodCap
       period := .month, grantedAt := "2026-04-01T00:00:00Z"
       expiresAt := "2027-04-01T00:00:00Z", status := .active } : Mandate)
  [grant "m1" "groceries" "GBP" [.card, .checkout] 3500 7000,
    grant "m2" "saas" "USD" [.card] 900 900]

theorem shopperHistory_settled : ∀ p ∈ shopperHistory, CardPayment p := by
  have hall : shopperHistory.all (fun p =>
      p.amount.isInteger && (parse p.createdAt).isSome) = true := by decide +kernel
  intro p hp
  have h := List.all_eq_true.1 hall p hp
  rw [Bool.and_eq_true] at h
  exact ⟨h.1, h.2⟩

theorem shopperHistory_class :
    ∀ p ∈ shopperHistory, '\x00' ∉ p.payeeClass.toList ∧ p.payeeClass ≠ "" := by
  decide +kernel

theorem shopperCard : (deriveSpendCard shopperHistory plainCard).requiredMandates =
    [⟨"groceries", "GBP", 3500, 7000, .month, [.card, .checkout]⟩,
      ⟨"saas", "USD", 900, 900, .month, [.card]⟩] := by
  decide +kernel

/-! ## Groups -/

theorem mem_groupOf {history : List PaymentIntent} {payeeClass currency : String}
    {p : PaymentIntent} : p ∈ groupOf history payeeClass currency ↔
      p ∈ history ∧ counted p = true ∧ p.payeeClass = payeeClass ∧ p.currency = currency := by
  simp [groupOf]

/-- Without a NUL in the classes a key says class and currency. -/
theorem spendKey_eq_iff {p q : PaymentIntent} (hp : '\x00' ∉ p.payeeClass.toList)
    (hq : '\x00' ∉ q.payeeClass.toList) :
    spendKey p = spendKey q ↔ p.payeeClass = q.payeeClass ∧ p.currency = q.currency := by
  have hcut : ∀ x : PaymentIntent, '\x00' ∉ x.payeeClass.toList →
      cut '\x00' (spendKey x).toList = some (x.payeeClass.toList, x.currency.toList) := by
    intro x hx
    have htext : (spendKey x).toList = x.payeeClass.toList ++ '\x00' :: x.currency.toList := by
      simp [spendKey]
    rw [htext]
    exact cut_append hx _
  constructor
  · intro h
    have heq := hcut p hp
    rw [h, hcut q hq, Option.some.injEq, Prod.mk.injEq] at heq
    exact ⟨String.toList_injective heq.1.symm, String.toList_injective heq.2.symm⟩
  · rintro ⟨hclass, hcurrency⟩
    unfold spendKey
    rw [hclass, hcurrency]

/-- Payments added to a group that stands. -/
theorem foldl_addSpend (ps : List PaymentIntent) (g : SpendGroup) :
    ∃ rails, ps.foldl (fun entry p => some (addSpend entry p)) (some g) =
        some { g with rails := rails, spends := g.spends ++ ps.map cardSpend } ∧
      ∀ r, r ∈ rails ↔ r ∈ g.rails ∨ ∃ p ∈ ps, p.rail = r := by
  induction ps generalizing g with
  | nil => exact ⟨g.rails, by simp, by simp⟩
  | cons p ps ih =>
      obtain ⟨rails, hfold, hrails⟩ := ih (addSpend (some g) p)
      refine ⟨rails, ?_, ?_⟩
      · rw [List.foldl_cons, hfold]
        simp [addSpend]
      · intro r
        have hstep : r ∈ (addSpend (some g) p).rails ↔ r ∈ g.rails ∨ p.rail = r := by
          simp only [addSpend, Option.getD_some]
          by_cases hhas : g.rails.contains p.rail = true
          · rw [if_pos hhas]
            rw [List.contains_iff_mem] at hhas
            constructor
            · exact Or.inl
            · rintro (h | rfl)
              · exact h
              · exact hhas
          · rw [if_neg hhas]
            simp [eq_comm]
        rw [hrails, hstep]
        simp [or_assoc]

/-- The group of a key: the payments of one class and currency. -/
structure GroupSays (g : SpendGroup) (ps : List PaymentIntent) : Prop where
  spends : g.spends = ps.map cardSpend
  rails : ∀ r, r ∈ g.rails ↔ ∃ p ∈ ps, p.rail = r

section History

variable {history : List PaymentIntent}

theorem get_spendGroups (hclass : ∀ p ∈ history, '\x00' ∉ p.payeeClass.toList)
    {p : PaymentIntent} (hp : p ∈ history) (hcounted : counted p = true) :
    ∃ g, (spendGroups history).get (spendKey p) = some g ∧ g.payeeClass = p.payeeClass ∧
      g.currency = p.currency ∧ GroupSays g (groupOf history p.payeeClass p.currency) := by
  have hgroup : (history.filter counted).filter (fun q => spendKey q == spendKey p) =
      groupOf history p.payeeClass p.currency := by
    rw [List.filter_filter]
    apply List.filter_congr
    intro q hq
    have hiff := spendKey_eq_iff (hclass q hq) (hclass p hp)
    rw [Bool.eq_iff_iff]
    simp [hiff, and_comm]
  unfold spendGroups
  rw [get_groupInto, hgroup, JsMap.get_empty]
  have hmem : p ∈ groupOf history p.payeeClass p.currency :=
    mem_groupOf.2 ⟨hp, hcounted, rfl, rfl⟩
  have hall : ∀ q ∈ groupOf history p.payeeClass p.currency,
      q.payeeClass = p.payeeClass ∧ q.currency = p.currency := by
    intro q hq
    exact (mem_groupOf.1 hq).2.2
  generalize groupOf history p.payeeClass p.currency = ps at hmem hall ⊢
  cases ps with
  | nil => cases hmem
  | cons q ps =>
      obtain ⟨hqclass, hqcurrency⟩ := hall q List.mem_cons_self
      obtain ⟨rails, hfold, hrails⟩ := foldl_addSpend ps (addSpend none q)
      refine ⟨_, hfold, hqclass, hqcurrency, ?_, ?_⟩
      · simp [addSpend]
      · intro r
        rw [hrails]
        simp [addSpend, eq_comm]

/-- The entries of a card, and the keys they come from. -/
theorem mem_requiredMandates {opts : DeriveSpendCardOptions} {req : SpendCardRequiredMandate} :
    req ∈ (deriveSpendCard history opts).requiredMandates ↔
      ∃ p ∈ history, counted p = true ∧ ∃ g, (spendGroups history).get (spendKey p) = some g ∧
        requiredOf (cardPeriod opts) (cappedPadding opts) g = req := by
  have hkeys : ∀ k, k ∈ (spendGroups history).keys ↔
      ∃ p ∈ history, counted p = true ∧ spendKey p = k := by
    intro k
    unfold spendGroups
    rw [mem_keys_groupInto]
    simp [and_assoc]
  simp only [deriveSpendCard, List.mem_filterMap, mem_sortByKey, hkeys, Option.map_eq_some_iff]
  constructor
  · rintro ⟨_, ⟨p, hp, hcounted, rfl⟩, g, hg, heq⟩
    exact ⟨p, hp, hcounted, g, hg, heq⟩
  · rintro ⟨p, hp, hcounted, g, hg, heq⟩
    exact ⟨_, ⟨p, hp, hcounted, rfl⟩, g, hg, heq⟩

end History

/-! ## Caps -/

/-- A finite spend, by its point. -/
def ofPoint (x : ℚ × ℚ) : CardSpend where
  amount := .fin x.2
  t := .fin x.1

theorem windowSum_ofPoint (stop : ℚ) (xs : List (ℚ × ℚ)) :
    windowSum (.fin stop) (xs.map ofPoint) = .fin (headSum stop xs) := by
  unfold windowSum headSum
  rw [List.takeWhile_map, List.map_map]
  have hamount : CardSpend.amount ∘ ofPoint = JsNumber.fin ∘ Prod.snd := rfl
  have htime : ((fun s : CardSpend => decide (s.t < .fin stop)) ∘ ofPoint) =
      fun x : ℚ × ℚ => decide (x.1 < stop) := by
    funext x
    simp [ofPoint]
  rw [hamount, htime, ← List.map_map, JsNumber.sum_map_fin]

/-- The loop is the scan for the heaviest window. -/
theorem maxRollingFrom_ofPoint (width max : ℚ) (xs : List (ℚ × ℚ)) (hmax : 0 ≤ max) :
    maxRollingFrom (.fin width) (.fin max) (xs.map ofPoint) =
      .fin (Max.max max (heaviest (fun t => t + width) xs)) := by
  induction xs generalizing max with
  | nil =>
      show JsNumber.fin max = .fin (Max.max max 0)
      rw [max_eq_left hmax]
  | cons x xs ih =>
      have hsum : windowSum ((ofPoint x).t + .fin width) (ofPoint x :: xs.map ofPoint) =
          .fin (headSum (x.1 + width) (x :: xs)) :=
        windowSum_ofPoint (x.1 + width) (x :: xs)
      rw [List.map_cons, maxRollingFrom]
      simp only [hsum, JsNumber.fin_lt_fin]
      have hstep : (if max < headSum (x.1 + width) (x :: xs) then
          JsNumber.fin (headSum (x.1 + width) (x :: xs)) else .fin max) =
          .fin (Max.max max (headSum (x.1 + width) (x :: xs))) := by
        by_cases h : max < headSum (x.1 + width) (x :: xs)
        · rw [if_pos h, max_eq_right h.le]
        · rw [if_neg h, max_eq_left (not_lt.1 h)]
      rw [hstep, ih _ (le_trans hmax (le_max_left _ _)), max_assoc]
      rfl

/-- The order of the points. -/
def sortPoints (xs : List (ℚ × ℚ)) : List (ℚ × ℚ) := xs.insertionSort fun a b => a.1 ≤ b.1

theorem sortSpends_ofPoint (xs : List (ℚ × ℚ)) :
    sortSpends (xs.map ofPoint) = (sortPoints xs).map ofPoint := by
  refine (List.map_insertionSort (fun a b : ℚ × ℚ => a.1 ≤ b.1)
    (fun a b : CardSpend => ¬ 0 < a.t - b.t) ofPoint xs ?_).symm
  intro a _ b _
  simp [ofPoint]

theorem sorted_sortPoints (xs : List (ℚ × ℚ)) : Sorted (sortPoints xs) := by
  have htrans : IsTrans (ℚ × ℚ) fun a b => a.1 ≤ b.1 := ⟨fun _ _ _ => le_trans⟩
  have htotal : Std.Total fun a b : ℚ × ℚ => a.1 ≤ b.1 := ⟨fun a b => le_total a.1 b.1⟩
  exact List.pairwise_insertionSort _ xs

theorem sortPoints_perm (xs : List (ℚ × ℚ)) : (sortPoints xs).Perm xs :=
  List.perm_insertionSort _ xs

/-- The largest of some numbers and a first one. -/
theorem foldl_max_spec (xs : List ℚ) (a : ℚ) :
    (∀ x ∈ xs, x ≤ xs.foldl max a) ∧ a ≤ xs.foldl max a ∧
      (xs.foldl max a = a ∨ xs.foldl max a ∈ xs) := by
  induction xs generalizing a with
  | nil => simp
  | cons x xs ih =>
      obtain ⟨hall, hfirst, hmem⟩ := ih (max a x)
      have hx : x ≤ xs.foldl max (max a x) := le_trans (le_max_right a x) hfirst
      rw [List.foldl_cons]
      refine ⟨?_, le_trans (le_max_left a x) hfirst, ?_⟩
      · intro y hy
        cases List.mem_cons.1 hy with
        | inl heq => rw [heq]; exact hx
        | inr hrest => exact hall y hrest
      · cases hmem with
        | inr hin => exact Or.inr (List.mem_cons_of_mem x hin)
        | inl heq =>
            rw [heq]
            cases max_choice a x with
            | inl ha => exact Or.inl ha
            | inr hxa => rw [hxa]; exact Or.inr List.mem_cons_self

theorem foldl_mathMax_ofPoint (xs : List (ℚ × ℚ)) (a : ℚ) :
    (xs.map ofPoint).foldl (fun m s => mathMax m s.amount) (.fin a) =
      .fin ((xs.map Prod.snd).foldl max a) := by
  induction xs generalizing a with
  | nil => rfl
  | cons x xs ih =>
      have hstep : mathMax (.fin a) (ofPoint x).amount = .fin (max a x.2) := mathMax_fin a x.2
      rw [List.map_cons, List.foldl_cons, hstep, ih]
      rfl

theorem withPad_fin (pad n : ℚ) :
    withPad (.fin pad) (.fin n) = .fin (max 1 (⌈n * (1 + pad)⌉ : ℚ)) := by
  have hone : (1 : JsNumber) = .fin 1 := by simp
  unfold withPad
  rw [hone, JsNumber.fin_add_fin, fin_mul_fin, mathCeil, mathMax_fin]

/-- Padding takes nothing away. -/
theorem le_withPad {pad n : ℚ} (hpad : 0 ≤ pad) (hn : 0 ≤ n) :
    .fin n ≤ withPad (.fin pad) (.fin n) := by
  rw [withPad_fin, JsNumber.fin_le_fin]
  have hgrow : n ≤ n * (1 + pad) := by nlinarith
  exact le_trans (le_trans hgrow (Int.le_ceil _)) (le_max_right _ _)

/-- An exact fit keeps an integer amount. -/
theorem withPad_zero {n : ℤ} (hn : 1 ≤ n) : withPad (.fin 0) (.fin (n : ℚ)) = .fin (n : ℚ) := by
  rw [withPad_fin, add_zero, mul_one, Int.ceil_intCast]
  have hone : (1 : ℚ) ≤ n := by exact_mod_cast hn
  rw [max_eq_right hone]

theorem periodMs_pos (period : Period) : 0 < periodMs period := by
  cases period <;> norm_num [periodMs]

/-! ## One entry -/

/-- A counted payment of a settled history is of a positive whole amount, at an
instant. -/
theorem CardPayment.point {p : PaymentIntent} (h : CardPayment p)
    (hcounted : counted p = true) :
    cardSpend p = ofPoint (paymentPoint p) ∧ p.amount = .fin (paymentPoint p).2 ∧
      ∃ n : ℤ, 1 ≤ n ∧ (paymentPoint p).2 = n := by
  obtain ⟨n, hn⟩ := JsNumber.isInteger_iff.1 h.amount
  obtain ⟨t, ht⟩ := Option.isSome_iff_exists.1 h.time
  have htime : getTime p.createdAt = .fin (t : ℚ) := by
    unfold getTime
    rw [ht]
  have hpos : (0 : ℚ) < n := by
    simpa [counted, hn] using hcounted
  have hpos' : 0 < n := by exact_mod_cast hpos
  refine ⟨?_, ?_, n, by omega, ?_⟩
  · simp [cardSpend, ofPoint, paymentPoint, htime, hn]
  · simp [paymentPoint, hn]
  · simp [paymentPoint, hn]

section Entry

variable {ps : List PaymentIntent}

/-- Payments of positive whole amounts at instants. -/
structure WholePayments (ps : List PaymentIntent) : Prop where
  spends : ps.map cardSpend = (ps.map paymentPoint).map ofPoint
  amount : ∀ p ∈ ps, p.amount = .fin (paymentPoint p).2
  whole : ∀ p ∈ ps, ∃ n : ℤ, 1 ≤ n ∧ (paymentPoint p).2 = n

theorem wholePayments (hsettled : ∀ p ∈ ps, CardPayment p)
    (hcounted : ∀ p ∈ ps, counted p = true) : WholePayments ps where
  spends := by
    rw [List.map_map]
    exact List.map_congr_left fun p hp => ((hsettled p hp).point (hcounted p hp)).1
  amount p hp := ((hsettled p hp).point (hcounted p hp)).2.1
  whole p hp := ((hsettled p hp).point (hcounted p hp)).2.2

theorem WholePayments.weight (h : WholePayments ps) : ∀ x ∈ ps.map paymentPoint, 0 ≤ x.2 := by
  intro x hx
  obtain ⟨p, hp, rfl⟩ := List.mem_map.1 hx
  obtain ⟨n, hn, heq⟩ := h.whole p hp
  rw [heq]
  exact_mod_cast le_trans zero_le_one hn

/-- A window is a whole number of minor units. -/
theorem WholePayments.spentIn_int (h : WholePayments ps) (start stop : ℚ) :
    ∃ n : ℤ, spentIn start stop ps = n := by
  unfold spentIn sumIn
  have hall : ∀ x ∈ (ps.map paymentPoint).filter
      (fun x => decide (start ≤ x.1) && decide (x.1 < stop)), ∃ n : ℤ, x.2 = n := by
    intro x hx
    obtain ⟨p, hp, rfl⟩ := List.mem_map.1 (List.mem_of_mem_filter hx)
    obtain ⟨n, -, heq⟩ := h.whole p hp
    exact ⟨n, heq⟩
  generalize (ps.map paymentPoint).filter
    (fun x => decide (start ≤ x.1) && decide (x.1 < stop)) = xs at hall ⊢
  induction xs with
  | nil => exact ⟨0, by simp⟩
  | cons x xs ih =>
      obtain ⟨n, hn⟩ := hall x List.mem_cons_self
      obtain ⟨m, hm⟩ := ih fun y hy => hall y (List.mem_cons_of_mem x hy)
      refine ⟨n + m, ?_⟩
      rw [List.map_cons, List.sum_cons, hn, hm]
      push_cast
      rfl

/-- A payment lies in the window that opens with it. -/
theorem WholePayments.amount_le_spentIn (h : WholePayments ps) {p : PaymentIntent}
    (hp : p ∈ ps) {width : ℚ} (hwidth : 0 < width) :
    (paymentPoint p).2 ≤
      spentIn (paymentPoint p).1 ((paymentPoint p).1 + width) ps := by
  unfold spentIn sumIn
  have hmem : paymentPoint p ∈ (ps.map paymentPoint).filter (fun x =>
      decide ((paymentPoint p).1 ≤ x.1) && decide (x.1 < (paymentPoint p).1 + width)) := by
    rw [List.mem_filter]
    refine ⟨List.mem_map.2 ⟨p, hp, rfl⟩, ?_⟩
    simp [hwidth]
  have hsub := List.singleton_sublist.2 hmem
  have hle := sum_le_of_sublist hsub fun x hx => h.weight x (List.mem_of_mem_filter hx)
  simpa using hle

/-- What the loops of one entry find: the largest payment and the heaviest window. -/
theorem WholePayments.requiredOf_caps (h : WholePayments ps) {g : SpendGroup}
    (hmade : GroupSays g ps) (period : Period) (pad : JsNumber) :
    (requiredOf period pad g).suggestedPerTxCap =
        withPad pad (.fin (((sortPoints (ps.map paymentPoint)).map Prod.snd).foldl max 0)) ∧
      (requiredOf period pad g).suggestedPerPeriodCap =
        withPad pad (.fin (heaviest (fun t => t + periodMs period)
          (sortPoints (ps.map paymentPoint)))) := by
  have hsorted : sortSpends g.spends = (sortPoints (ps.map paymentPoint)).map ofPoint := by
    rw [hmade.spends, h.spends, sortSpends_ofPoint]
  have hzero : (0 : JsNumber) = .fin 0 := by simp
  constructor
  · show withPad pad ((sortSpends g.spends).foldl (fun m s => mathMax m s.amount) 0) = _
    rw [hsorted, hzero, foldl_mathMax_ofPoint]
  · show withPad pad (maxRollingFrom (.fin (periodMs period)) 0 (sortSpends g.spends)) = _
    rw [hsorted, hzero, maxRollingFrom_ofPoint _ _ _ (le_refl _),
      max_eq_right (heaviest_nonneg _ _)]

/-- The points of an entry in the order of time. -/
theorem WholePayments.sorted (h : WholePayments ps) :
    Sorted (sortPoints (ps.map paymentPoint)) ∧
      ∀ x ∈ sortPoints (ps.map paymentPoint), 0 ≤ x.2 := by
  refine ⟨sorted_sortPoints _, fun x hx => h.weight x ?_⟩
  exact (sortPoints_perm _).mem_iff.1 hx

theorem spentIn_le_heaviest (h : WholePayments ps) (period : Period) (start : ℚ) :
    spentIn start (start + periodMs period) ps ≤
      heaviest (fun t => t + periodMs period) (sortPoints (ps.map paymentPoint)) := by
  obtain ⟨hsorted, hweight⟩ := h.sorted
  have hmono : Monotone fun t : ℚ => t + periodMs period := fun _ _ h => by simpa using h
  have hle := sumIn_le_heaviest hmono hsorted hweight start
  rwa [sumIn_perm (sortPoints_perm (ps.map paymentPoint))] at hle

theorem exists_spentIn_eq_heaviest (h : WholePayments ps) (hne : ps ≠ []) (period : Period) :
    ∃ p ∈ ps, heaviest (fun t => t + periodMs period) (sortPoints (ps.map paymentPoint)) =
      spentIn (paymentPoint p).1 ((paymentPoint p).1 + periodMs period) ps := by
  obtain ⟨hsorted, hweight⟩ := h.sorted
  have hmono : Monotone fun t : ℚ => t + periodMs period := fun _ _ h => by simpa using h
  have hpoints : sortPoints (ps.map paymentPoint) ≠ [] := by
    intro hnil
    have hperm := sortPoints_perm (ps.map paymentPoint)
    rw [hnil] at hperm
    exact hne (List.map_eq_nil_iff.1 hperm.symm.eq_nil)
  obtain ⟨x, hx, heq⟩ := exists_heaviest hmono hsorted hweight hpoints
  obtain ⟨p, hp, rfl⟩ := List.mem_map.1 ((sortPoints_perm _).mem_iff.1 hx)
  refine ⟨p, hp, ?_⟩
  rw [heq, sumIn_perm (sortPoints_perm (ps.map paymentPoint))]
  rfl

theorem requiredOf_admits (h : WholePayments ps) {g : SpendGroup} (hmade : GroupSays g ps)
    (period : Period) {pad : ℚ} (hpad : 0 ≤ pad) :
    Admits (requiredOf period (.fin pad) g) ps := by
  obtain ⟨hperTx, hperPeriod⟩ := h.requiredOf_caps hmade period (.fin pad)
  refine ⟨?_, ?_, ?_⟩
  · intro p hp
    exact (mem_sortByKey RailKind.text).2 ((hmade.rails p.rail).2 ⟨p, hp, rfl⟩)
  · intro p hp
    obtain ⟨hall, hfirst, -⟩ :=
      foldl_max_spec ((sortPoints (ps.map paymentPoint)).map Prod.snd) 0
    have hin : (paymentPoint p).2 ∈ (sortPoints (ps.map paymentPoint)).map Prod.snd := by
      refine List.mem_map.2 ⟨paymentPoint p, ?_, rfl⟩
      exact (sortPoints_perm _).mem_iff.2 (List.mem_map.2 ⟨p, hp, rfl⟩)
    rw [hperTx, h.amount p hp]
    exact JsNumber.le_trans (JsNumber.fin_le_fin.2 (hall _ hin)) (le_withPad hpad hfirst)
  · intro start
    rw [hperPeriod]
    have hle := spentIn_le_heaviest h period start
    exact JsNumber.le_trans (JsNumber.fin_le_fin.2 hle) (le_withPad hpad (heaviest_nonneg _ _))

theorem requiredOf_attains (h : WholePayments ps) {g : SpendGroup} (hmade : GroupSays g ps)
    (hne : ps ≠ []) (period : Period) : Attains (requiredOf period (.fin 0) g) ps := by
  obtain ⟨hperTx, hperPeriod⟩ := h.requiredOf_caps hmade period (.fin 0)
  obtain ⟨q, hq, hheaviest⟩ := exists_spentIn_eq_heaviest h hne period
  obtain ⟨hall, -, hmem⟩ := foldl_max_spec ((sortPoints (ps.map paymentPoint)).map Prod.snd) 0
  refine ⟨?_, ?_, ?_⟩
  · intro r hr
    exact (hmade.rails r).1 ((mem_sortByKey RailKind.text).1 hr)
  · -- some payment is positive, so the maximum is the amount of one
    rw [hperTx]
    have hin : ∀ p ∈ ps, (paymentPoint p).2 ∈
        (sortPoints (ps.map paymentPoint)).map Prod.snd := by
      intro p hp
      refine List.mem_map.2 ⟨paymentPoint p, ?_, rfl⟩
      exact (sortPoints_perm _).mem_iff.2 (List.mem_map.2 ⟨p, hp, rfl⟩)
    obtain ⟨m, hm, heqm⟩ := h.whole q hq
    have hpos : ((sortPoints (ps.map paymentPoint)).map Prod.snd).foldl max 0 ≠ 0 := by
      intro hzero
      have hle := hall _ (hin q hq)
      rw [hzero, heqm] at hle
      have : (m : ℚ) ≤ 0 := hle
      have : m ≤ 0 := by exact_mod_cast this
      omega
    obtain ⟨x, hx, heq⟩ := List.mem_map.1 (hmem.resolve_left hpos)
    obtain ⟨p, hp, rfl⟩ := List.mem_map.1 ((sortPoints_perm _).mem_iff.1 hx)
    obtain ⟨n, hn, heqn⟩ := h.whole p hp
    refine ⟨p, hp, ?_⟩
    rw [h.amount p hp, ← heq, heqn, withPad_zero hn]
  · obtain ⟨n, hn⟩ := h.spentIn_int (paymentPoint q).1 ((paymentPoint q).1 + periodMs period)
    obtain ⟨m, hm, heqm⟩ := h.whole q hq
    have hone : 1 ≤ n := by
      have hle := h.amount_le_spentIn hq (periodMs_pos period)
      rw [hn, heqm] at hle
      have : m ≤ n := by exact_mod_cast hle
      omega
    refine ⟨(paymentPoint q).1, ?_⟩
    rw [hperPeriod, hheaviest]
    show JsNumber.fin (spentIn _ ((paymentPoint q).1 + periodMs period) ps) = _
    rw [hn, withPad_zero hone]

end Entry

/-! ## The card -/

theorem cappedPadding_fin {opts : DeriveSpendCardOptions} {q : ℚ}
    (h : opts.capPadding.getD 0 = .fin q) : cappedPadding opts = .fin (max 0 q) := by
  have hzero : (0 : JsNumber) = .fin 0 := by simp
  unfold cappedPadding
  rw [h, hzero, mathMax_fin]

section Card

variable {history : List PaymentIntent} {opts : DeriveSpendCardOptions}

theorem groupOf_whole (hsettled : ∀ p ∈ history, CardPayment p)
    (payeeClass currency : String) : WholePayments (groupOf history payeeClass currency) :=
  wholePayments (fun _ hp => hsettled _ (mem_groupOf.1 hp).1) fun _ hp => (mem_groupOf.1 hp).2.1

/-- No two entries are about one class and currency. -/
theorem nodup_requiredMandates (hclass : ∀ p ∈ history, '\x00' ∉ p.payeeClass.toList) :
    ((deriveSpendCard history opts).requiredMandates.map fun req =>
      (req.payeeClass, req.currency)).Nodup := by
  have hnodup : (sortByKey id (spendGroups history).keys).Nodup :=
    (sortByKey_perm id _).nodup_iff.2 (spendGroups history).nodup
  have hmem : ∀ k ∈ sortByKey id (spendGroups history).keys,
      ∃ p ∈ history, counted p = true ∧ spendKey p = k := by
    intro k hk
    rw [mem_sortByKey] at hk
    obtain ⟨p, hp, hkey⟩ := mem_keys_groupInto.1 hk
    obtain ⟨hp, hcounted⟩ := List.mem_filter.1 hp
    exact ⟨p, hp, hcounted, hkey⟩
  rw [List.Nodup, List.pairwise_map]
  simp only [deriveSpendCard]
  rw [List.pairwise_filterMap]
  refine hnodup.imp_of_mem ?_
  intro k k' hk hk' hne req hreq req' hreq' hsame
  obtain ⟨p, hp, hcounted, rfl⟩ := hmem k hk
  obtain ⟨q, hq, hcounted', rfl⟩ := hmem k' hk'
  obtain ⟨g, hget, hgclass, hgcurrency, -⟩ := get_spendGroups hclass hp hcounted
  obtain ⟨g', hget', hgclass', hgcurrency', -⟩ := get_spendGroups hclass hq hcounted'
  rw [hget, Option.map_some, Option.some.injEq] at hreq
  rw [hget', Option.map_some, Option.some.injEq] at hreq'
  rw [← hreq, ← hreq', Prod.mk.injEq] at hsame
  apply hne
  apply (spendKey_eq_iff (hclass p hp) (hclass q hq)).2
  exact ⟨hgclass.symm.trans (hsame.1.trans hgclass'),
    hgcurrency.symm.trans (hsame.2.trans hgcurrency')⟩

/-- Every entry of a card fits the payments of its group. -/
theorem requiredMandates_fit (hsettled : ∀ p ∈ history, CardPayment p)
    (hclass : ∀ p ∈ history, '\x00' ∉ p.payeeClass.toList)
    (hpad : (opts.capPadding.getD 0).isFinite = true)
    {req : SpendCardRequiredMandate}
    (hreq : req ∈ (deriveSpendCard history opts).requiredMandates) :
    groupOf history req.payeeClass req.currency ≠ [] ∧
      Admits req (groupOf history req.payeeClass req.currency) ∧
      (opts.capPadding.getD 0 ≤ 0 →
        Attains req (groupOf history req.payeeClass req.currency)) := by
  obtain ⟨q, hq⟩ := JsNumber.isFinite_iff.1 hpad
  obtain ⟨p, hp, hcounted, g, hget, rfl⟩ := mem_requiredMandates.1 hreq
  obtain ⟨g', hget', hgclass, hgcurrency, hmade⟩ := get_spendGroups hclass hp hcounted
  rw [hget, Option.some.injEq] at hget'
  subst hget'
  have hgroup : groupOf history (requiredOf (cardPeriod opts) (cappedPadding opts) g).payeeClass
      (requiredOf (cardPeriod opts) (cappedPadding opts) g).currency =
      groupOf history p.payeeClass p.currency := by
    show groupOf history g.payeeClass g.currency = _
    rw [hgclass, hgcurrency]
  have hne : groupOf history p.payeeClass p.currency ≠ [] :=
    List.ne_nil_of_mem (mem_groupOf.2 ⟨hp, hcounted, rfl, rfl⟩)
  have hwhole := groupOf_whole hsettled p.payeeClass p.currency
  rw [hgroup, cappedPadding_fin hq]
  refine ⟨hne, requiredOf_admits hwhole hmade _ (le_max_left _ _), ?_⟩
  intro hnone
  have hzero : max 0 q = 0 := by
    rw [hq, JsNumber.ofNat_eq_fin, JsNumber.fin_le_fin] at hnone
    exact max_eq_left (by exact_mod_cast hnone)
  rw [hzero]
  exact requiredOf_attains hwhole hmade hne _

theorem exists_required (hclass : ∀ p ∈ history, '\x00' ∉ p.payeeClass.toList)
    {p : PaymentIntent} (hp : p ∈ history) (hcounted : counted p = true) :
    ∃ req ∈ (deriveSpendCard history opts).requiredMandates, req.payeeClass = p.payeeClass ∧
      req.currency = p.currency ∧ req.period = cardPeriod opts := by
  obtain ⟨g, hget, hgclass, hgcurrency, -⟩ := get_spendGroups hclass hp hcounted
  exact ⟨_, mem_requiredMandates.2 ⟨p, hp, hcounted, g, hget, rfl⟩, hgclass, hgcurrency, rfl⟩

end Card

/-- The time value of a payment's date. -/
def instantOf (p : PaymentIntent) : ℤ := (parse p.createdAt).getD 0

theorem CardPayment.paymentPoint_fst {p : PaymentIntent} (h : CardPayment p) :
    (paymentPoint p).1 = (instantOf p : ℚ) := by
  obtain ⟨t, ht⟩ := Option.isSome_iff_exists.1 h.time
  unfold paymentPoint instantOf getTime
  rw [ht]
  rfl

/-- The days of a rolling period. -/
def periodDays : Period → ℤ
  | .day => 1
  | .week => 7
  | .month => 30

theorem periodMs_eq (period : Period) :
    periodMs period = ((periodDays period * msPerDay : ℤ) : ℚ) := by
  cases period <;> norm_num [periodMs, periodDays, msPerDay]

/-- A calendar period is no longer than the rolling one up to the instant, except
on the thirty-first of a month. -/
theorem lt_startOf_add (period : Period) (t : ℤ)
    (hday : period = .month → (civilFromDay (t / msPerDay)).day ≤ 30) :
    (t : ℚ) < (startOf period t : ℚ) + periodMs period := by
  have hdays : t / msPerDay < calendarStart (t / msPerDay) period + periodDays period := by
    cases period with
    | day => simp only [calendarStart, periodDays]; omega
    | week => simp only [calendarStart, weekDay, periodDays]; omega
    | month =>
        have hlast := hday rfl
        simp only [calendarStart, periodDays]
        omega
  have hlt : t < startOf period t + periodDays period * msPerDay := by
    unfold startOf
    unfold msPerDay at *
    omega
  rw [periodMs_eq]
  exact_mod_cast hlt

/-- A cap that is not below a bound is not below what stays within the bound. -/
theorem not_lt_of_le_bound {cap bound a : JsNumber} (hcap : ¬ cap < bound) (ha : a ≤ bound) :
    ¬ cap < a := by
  intro hlt
  apply hcap
  cases cap with
  | fin p =>
      cases a with
      | fin q =>
          cases bound with
          | fin r =>
              rw [JsNumber.fin_lt_fin] at *
              exact lt_of_lt_of_le hlt (JsNumber.fin_le_fin.1 ha)
          | posInf => rfl
          | _ => exact absurd ha Bool.false_ne_true
      | posInf => cases bound <;> first | exact hlt | exact absurd ha Bool.false_ne_true
      | _ => exact absurd hlt Bool.false_ne_true
  | negInf =>
      cases a with
      | fin q => cases bound <;> first | rfl | exact absurd ha Bool.false_ne_true
      | posInf => cases bound <;> first | rfl | exact absurd ha Bool.false_ne_true
      | _ => exact absurd hlt Bool.false_ne_true
  | _ => cases a <;> exact absurd hlt Bool.false_ne_true

section Replay

variable {history : List PaymentIntent} {opts : DeriveSpendCardOptions}

theorem exists_meetsRequired {card : SpendMandateCard} {mandates : List Mandate}
    (hcovers : (compareSpendCard card mandates).covers = true)
    {req : SpendCardRequiredMandate} (hreq : req ∈ card.requiredMandates) :
    ∃ m ∈ mandates, meetsRequired req m = true := by
  have hall : ∀ req ∈ card.requiredMandates, ¬ (!mandates.any (meetsRequired req)) = true := by
    rw [← List.filter_eq_nil_iff]
    exact List.isEmpty_iff.1 hcovers
  have hany := hall req hreq
  rw [Bool.not_eq_true, Bool.not_eq_false'] at hany
  exact List.any_eq_true.1 hany

/-- What some of a group's payments come to, all of them in one window. -/
theorem WholePayments.sum_le_spentIn {ps qs : List PaymentIntent} (h : WholePayments ps)
    (hsub : qs.Subperm ps) {start stop : ℚ}
    (hwindow : ∀ q ∈ qs, start ≤ (paymentPoint q).1 ∧ (paymentPoint q).1 < stop) :
    JsNumber.sum (qs.map PaymentIntent.amount) ≤ .fin (spentIn start stop ps) := by
  have hamounts : qs.map PaymentIntent.amount = ((qs.map paymentPoint).map Prod.snd).map .fin := by
    rw [List.map_map, List.map_map]
    exact List.map_congr_left fun q hq => h.amount q (hsub.subset hq)
  have hin : sumIn start stop (qs.map paymentPoint) = ((qs.map paymentPoint).map Prod.snd).sum := by
    unfold sumIn
    rw [List.filter_eq_self.2]
    intro x hx
    obtain ⟨q, hq, rfl⟩ := List.mem_map.1 hx
    simp [hwindow q hq]
  rw [hamounts, JsNumber.sum_map_fin, JsNumber.fin_le_fin, ← hin]
  obtain ⟨rs, hperm, hrs⟩ := hsub
  rw [← sumIn_perm (hperm.map paymentPoint)]
  exact sumIn_mono_sublist (hrs.map paymentPoint) h.weight

end Replay

/-- The payments made from `start` on and before `stop`. -/
def paidIn (start stop : ℚ) (ps : List PaymentIntent) : List PaymentIntent :=
  ps.filter fun p => decide (start ≤ (paymentPoint p).1) && decide ((paymentPoint p).1 < stop)

/-- Payments that are each within a bound. -/
theorem spentIn_le_length {ps : List PaymentIntent} {bound : ℚ}
    (h : ∀ p ∈ ps, (paymentPoint p).2 ≤ bound) (start stop : ℚ) :
    spentIn start stop ps ≤ (paidIn start stop ps).length * bound := by
  have heq : spentIn start stop ps =
      ((paidIn start stop ps).map fun p => (paymentPoint p).2).sum := by
    unfold spentIn sumIn paidIn
    rw [List.filter_map, List.map_map]
    rfl
  have hall : ∀ p ∈ paidIn start stop ps, (paymentPoint p).2 ≤ bound := fun p hp =>
    h p (List.mem_of_mem_filter hp)
  rw [heq]
  generalize paidIn start stop ps = qs at hall ⊢
  induction qs with
  | nil => simp
  | cons q qs ih =>
      have hq := hall q List.mem_cons_self
      have hrest := ih fun p hp => hall p (List.mem_cons_of_mem q hp)
      rw [List.map_cons, List.sum_cons, List.length_cons]
      push_cast
      linarith

/-- Rounding many of an amount up is no more than rounding each up. -/
theorem withPad_scale {pad n total : ℚ} {k : ℕ} (hk : 1 ≤ k) (hpad : 0 ≤ pad)
    (htotal : total ≤ k * n) {multiple : JsNumber}
    (h : withPad (.fin pad) (.fin n) * multiple ≤ withPad (.fin pad) (.fin total)) :
    multiple ≤ (k : JsNumber) := by
  have hk' : (1 : ℚ) ≤ k := by exact_mod_cast hk
  rw [withPad_fin, withPad_fin] at h
  have hceil : (⌈total * (1 + pad)⌉ : ℚ) ≤ k * (⌈n * (1 + pad)⌉ : ℚ) := by
    have hgrow : total * (1 + pad) ≤ k * (n * (1 + pad)) := by nlinarith
    have heach : k * (n * (1 + pad)) ≤ k * (⌈n * (1 + pad)⌉ : ℚ) := by
      have := Int.le_ceil (n * (1 + pad))
      nlinarith
    have hint : ⌈total * (1 + pad)⌉ ≤ (k : ℤ) * ⌈n * (1 + pad)⌉ := by
      apply Int.ceil_le.2
      push_cast
      exact le_trans hgrow heach
    exact_mod_cast hint
  have hmax : max 1 (⌈total * (1 + pad)⌉ : ℚ) ≤ k * max 1 (⌈n * (1 + pad)⌉ : ℚ) := by
    have hfirst : (1 : ℚ) ≤ max 1 (⌈n * (1 + pad)⌉ : ℚ) := le_max_left _ _
    have hsecond : (⌈n * (1 + pad)⌉ : ℚ) ≤ max 1 (⌈n * (1 + pad)⌉ : ℚ) := le_max_right _ _
    apply max_le
    · nlinarith
    · nlinarith
  have hpos : (0 : ℚ) < max 1 (⌈n * (1 + pad)⌉ : ℚ) := lt_of_lt_of_le one_pos (le_max_left _ _)
  cases multiple with
  | fin q =>
      rw [fin_mul_fin, JsNumber.fin_le_fin] at h
      rw [JsNumber.natCast_eq_fin, JsNumber.fin_le_fin]
      nlinarith
  | negInf => rfl
  | nan => exact absurd h (JsNumber.not_nan_le _)
  | posInf =>
      exfalso
      have hinf : JsNumber.fin (max 1 (⌈n * (1 + pad)⌉ : ℚ)) * .posInf = .posInf := by
        show JsNumber.infTimes _ = _
        unfold JsNumber.infTimes
        rw [if_neg hpos.ne', if_pos hpos]
      rw [hinf] at h
      exact Bool.false_ne_true h

section Lint

variable {history : List PaymentIntent} {opts : DeriveSpendCardOptions}

/-- The third warning of an entry is about its budget. -/
theorem widePeriodBudget_of_mem {highCap wideMultiple : JsNumber}
    {req : SpendCardRequiredMandate} {w : SpendCardLintWarning}
    (hw : w ∈ lintRequired highCap wideMultiple req) (hcode : w.code = .widePeriodBudget) :
    w.payeeClass = req.payeeClass ∧ WidePeriodBudget wideMultiple req := by
  unfold lintRequired at hw
  rw [List.mem_append, List.mem_append] at hw
  obtain hw | hw | hw := hw
  · split at hw
    · rw [List.mem_singleton.1 hw] at hcode
      cases hcode
    · cases hw
  · split at hw
    · rw [List.mem_singleton.1 hw] at hcode
      cases hcode
    · cases hw
  · split at hw
    · next hwide =>
        rw [List.mem_singleton.1 hw]
        exact ⟨rfl, hwide⟩
    · cases hw

theorem exists_wide_warning {highCap wideMultiple : JsNumber} {req : SpendCardRequiredMandate}
    (h : WidePeriodBudget wideMultiple req) :
    ∃ w ∈ lintRequired highCap wideMultiple req, w.code = .widePeriodBudget ∧
      w.payeeClass = req.payeeClass := by
  unfold lintRequired
  rw [if_pos h]
  exact ⟨_, List.mem_append_right _ (List.mem_append_right _ (List.mem_singleton_self _)),
    rfl, rfl⟩

end Lint

end AgentWorth
