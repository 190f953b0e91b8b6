import AgentWorth.Lib.Map
import AgentWorth.Lib.Number
import Mathlib.Algebra.Order.Floor.Ring

/-!
# The rate limiter

`src/ingress/rateLimit.ts`: fixed windows per key, opened by the first call
after the last one has run out.  The calls of other keys do not count, so each
key has a limiter of its own; its windows are at least their length apart, and
any interval of that length meets at most two of them.
-/

namespace AgentWorth.RateLimit

open AgentWorth.Js

structure RateLimitResult where
  ok : Bool
  retryAfterMs : Option JsNumber
  remaining : JsNumber
  deriving DecidableEq

/-- The options with their defaults. -/
structure RateLimiterOptions where
  windowMs : JsNumber := 60000
  max : JsNumber := 120

structure Bucket where
  windowStart : JsNumber
  count : Nat
  deriving DecidableEq

/-- `check`, at the time the clock shows. -/
def check (opts : RateLimiterOptions) (buckets : JsMap Bucket) (t : ℚ) (key : String) :
    RateLimitResult × JsMap Bucket :=
  match buckets.get key with
  | none =>
      ({ ok := true, retryAfterMs := none, remaining := opts.max - 1 },
        buckets.set key { windowStart := .fin t, count := 1 })
  | some b =>
      if opts.windowMs ≤ .fin t - b.windowStart then
        ({ ok := true, retryAfterMs := none, remaining := opts.max - 1 },
          buckets.set key { windowStart := .fin t, count := 1 })
      else if opts.max ≤ (b.count : JsNumber) then
        ({ ok := false, retryAfterMs := some (b.windowStart + opts.windowMs - .fin t),
           remaining := 0 }, buckets)
      else
        ({ ok := true, retryAfterMs := none,
           remaining := opts.max - ((b.count + 1 : Nat) : JsNumber) },
          buckets.set key { b with count := b.count + 1 })

/-- A call: the time the clock shows, and the key. -/
abbrev LimitCall := ℚ × String

/-- The state after some calls. -/
def bucketsAfter (opts : RateLimiterOptions) (buckets : JsMap Bucket) (calls : List LimitCall) :
    JsMap Bucket :=
  calls.foldl (fun buckets call => (check opts buckets call.1 call.2).2) buckets

/-- Each call with its result. -/
def answers (opts : RateLimiterOptions) :
    JsMap Bucket → List LimitCall → List (LimitCall × RateLimitResult)
  | _, [] => []
  | buckets, call :: calls =>
      (call, (check opts buckets call.1 call.2).1) ::
        answers opts (check opts buckets call.1 call.2).2 calls

/-! ## What is promised -/

/-- No bucket of the key, or one whose window has run out. -/
def OpensWindow (opts : RateLimiterOptions) (buckets : JsMap Bucket) (call : LimitCall) : Prop :=
  ∀ b, buckets.get call.2 = some b → opts.windowMs ≤ .fin call.1 - b.windowStart

/-- The allowed calls of a key at times of a kind. -/
def allowed (key : String) (p : ℚ → Prop) [DecidablePred p]
    (answered : List (LimitCall × RateLimitResult)) : Nat :=
  answered.countP fun x => x.1.2 == key && x.2.ok && decide (p x.1.1)

/-- At most `k` times the maximum, rounded up; an infinite maximum is none. -/
def AtMost (k : Nat) (max : JsNumber) (n : Nat) : Prop :=
  ∀ q, max = .fin q → (n : ℤ) ≤ k * ⌈q⌉

/-- What a limiter keeps to over a sequence of calls. -/
structure RateLimited (opts : RateLimiterOptions) (calls : List LimitCall) : Prop where
  /-- from a call that opens a window until the window has run out -/
  window : ∀ before call after, calls = before ++ call :: after →
    OpensWindow opts (bucketsAfter opts .empty before) call →
    AtMost 1 opts.max (allowed call.2 (fun t => .fin t < .fin call.1 + opts.windowMs)
      (answers opts (bucketsAfter opts .empty before) (call :: after)))
  /-- in any interval of the length of a window -/
  sliding : ∀ key a, AtMost 2 opts.max
    (allowed key (fun t => a ≤ t ∧ .fin t < .fin a + opts.windowMs) (answers opts .empty calls))
  /-- a key has the results it would have alone -/
  ownCalls : ∀ key, (answers opts .empty calls).filter (fun x => x.1.2 == key) =
    answers opts .empty (calls.filter fun call => call.2 == key)
  /-- the retry hint is positive, within a window, and honored -/
  retry : ∀ before t key after r, calls = before ++ (t, key) :: after →
    (check opts (bucketsAfter opts .empty before) t key).1.ok = false →
    (check opts (bucketsAfter opts .empty before) t key).1.retryAfterMs = some r →
    0 < r ∧ r ≤ opts.windowMs ∧
      ∀ between t' rest, after = between ++ (t', key) :: rest → (∀ c ∈ between, c.2 ≠ key) →
        .fin t + r ≤ .fin t' →
          (check opts (bucketsAfter opts .empty (before ++ (t, key) :: between)) t' key).1.ok = true

/-! ## One call -/

section

variable {opts : RateLimiterOptions} {buckets : JsMap Bucket} {t : ℚ} {key : String}

/-- What a call does to its key: it opens a window, is refused, or counts. -/
theorem check_cases (opts : RateLimiterOptions) (buckets : JsMap Bucket) (t : ℚ) (key : String) :
    (OpensWindow opts buckets (t, key) ∧ (check opts buckets t key).1.ok = true ∧
        (check opts buckets t key).2.get key = some { windowStart := .fin t, count := 1 }) ∨
      ∃ b, buckets.get key = some b ∧ ¬ opts.windowMs ≤ .fin t - b.windowStart ∧
        (opts.max ≤ (b.count : JsNumber) ∧ (check opts buckets t key).2 = buckets ∧
            (check opts buckets t key).1.ok = false ∧
            (check opts buckets t key).1.retryAfterMs =
              some (b.windowStart + opts.windowMs - .fin t) ∨
          ¬ opts.max ≤ (b.count : JsNumber) ∧ (check opts buckets t key).1.ok = true ∧
            (check opts buckets t key).2.get key = some { b with count := b.count + 1 }) := by
  cases h : buckets.get key with
  | none =>
      have hcheck : check opts buckets t key =
          ({ ok := true, retryAfterMs := none, remaining := opts.max - 1 },
            buckets.set key { windowStart := .fin t, count := 1 }) := by
        rw [check, h]
      rw [hcheck]
      refine .inl ⟨fun b hb => ?_, rfl, JsMap.get_set_self _ _ _⟩
      rw [h] at hb
      cases hb
  | some b =>
      by_cases hopens : opts.windowMs ≤ .fin t - b.windowStart
      · have hcheck : check opts buckets t key =
            ({ ok := true, retryAfterMs := none, remaining := opts.max - 1 },
              buckets.set key { windowStart := .fin t, count := 1 }) := by
          rw [check, h]
          exact if_pos hopens
        rw [hcheck]
        refine .inl ⟨fun b' hb' => ?_, rfl, JsMap.get_set_self _ _ _⟩
        rw [h] at hb'
        cases hb'
        exact hopens
      · refine .inr ⟨b, rfl, hopens, ?_⟩
        by_cases hfull : opts.max ≤ (b.count : JsNumber)
        · have hcheck : check opts buckets t key =
              ({ ok := false, retryAfterMs := some (b.windowStart + opts.windowMs - .fin t),
                 remaining := 0 }, buckets) := by
            rw [check, h]
            simp only [if_neg hopens, if_pos hfull]
          rw [hcheck]
          exact .inl ⟨hfull, rfl, rfl, rfl⟩
        · have hcheck : check opts buckets t key =
              ({ ok := true, retryAfterMs := none,
                 remaining := opts.max - ((b.count + 1 : Nat) : JsNumber) },
                buckets.set key { b with count := b.count + 1 }) := by
            rw [check, h]
            simp only [if_neg hopens, if_neg hfull]
          rw [hcheck]
          exact .inr ⟨hfull, rfl, JsMap.get_set_self _ _ _⟩

/-- A call leaves the buckets of the other keys. -/
theorem get_check_of_ne {key' : String} (h : key' ≠ key) :
    (check opts buckets t key').2.get key = buckets.get key := by
  have hset : ∀ b : Bucket, (buckets.set key' b).get key = buckets.get key := fun b => by
    rw [JsMap.get_set, if_neg (Ne.symm h)]
  unfold check
  split
  · exact hset _
  · split_ifs
    · exact hset _
    · rfl
    · exact hset _

/-- A call reads the bucket of its key only. -/
theorem check_congr (opts : RateLimiterOptions) (t : ℚ) {buckets' : JsMap Bucket}
    (h : buckets.get key = buckets'.get key) :
    (check opts buckets t key).1 = (check opts buckets' t key).1 ∧
      (check opts buckets t key).2.get key = (check opts buckets' t key).2.get key := by
  unfold check
  rw [← h]
  cases hb : buckets.get key with
  | none => exact ⟨rfl, by rw [JsMap.get_set_self, JsMap.get_set_self]⟩
  | some b =>
      simp only
      split_ifs
      · exact ⟨rfl, by rw [JsMap.get_set_self, JsMap.get_set_self]⟩
      · exact ⟨rfl, by rw [hb, ← h, hb]⟩
      · exact ⟨rfl, by rw [JsMap.get_set_self, JsMap.get_set_self]⟩

end

theorem answers_cons (opts : RateLimiterOptions) (buckets : JsMap Bucket) (t : ℚ) (key : String)
    (calls : List LimitCall) :
    answers opts buckets ((t, key) :: calls) =
      ((t, key), (check opts buckets t key).1) ::
        answers opts (check opts buckets t key).2 calls := rfl

/-- **A key has the results it would have alone.** -/
theorem answers_own (opts : RateLimiterOptions) (key : String) : ∀ (calls : List LimitCall)
    (buckets buckets' : JsMap Bucket), buckets.get key = buckets'.get key →
      (answers opts buckets calls).filter (fun x => x.1.2 == key) =
        answers opts buckets' (calls.filter fun call => call.2 == key)
  | [], _, _, _ => rfl
  | (t, key') :: calls, buckets, buckets', h => by
      by_cases hkey : key' = key
      · subst hkey
        obtain ⟨hresult, hget⟩ := check_congr opts t h
        have ih := answers_own opts key' calls _ _ hget
        rw [answers_cons, List.filter_cons_of_pos (by simp), List.filter_cons_of_pos (by simp),
          answers_cons, ih, hresult]
      · have hother : (check opts buckets t key').2.get key = buckets'.get key := by
          rw [get_check_of_ne hkey, h]
        have ih := answers_own opts key calls _ _ hother
        rw [answers_cons, List.filter_cons_of_neg (by simpa using hkey),
          List.filter_cons_of_neg (by simpa using hkey), ih]

/-! ## Windows -/

section

variable {W : JsNumber} {a s t : ℚ}

/-- A length of a window is finite or infinite. -/
private theorem length_cases (hW : 0 < W) : (∃ w : ℚ, 0 < w ∧ W = .fin w) ∨ W = .posInf := by
  cases W with
  | fin w => exact .inl ⟨w, by simpa using hW, rfl⟩
  | posInf => exact .inr rfl
  | nan => exact absurd hW (JsNumber.not_lt_nan _)
  | negInf => exact absurd hW Bool.false_ne_true

/-- A window that has not run out is still open. -/
theorem not_elapsed_iff (hW : 0 < W) :
    ¬ W ≤ .fin t - .fin s ↔ (.fin t : JsNumber) < .fin s + W := by
  obtain ⟨w, -, rfl⟩ | rfl := length_cases hW
  · simp only [JsNumber.fin_sub_fin, JsNumber.fin_le_fin, JsNumber.fin_add_fin,
      JsNumber.fin_lt_fin]
    constructor <;> intro h <;> linarith
  · exact ⟨fun _ => rfl, fun _ h => absurd h Bool.false_ne_true⟩

/-- A window opened later closes later. -/
theorem within_mono (hW : 0 < W) (has : a ≤ s) (h : (.fin t : JsNumber) < .fin a + W) :
    (.fin t : JsNumber) < .fin s + W := by
  obtain ⟨w, -, rfl⟩ | rfl := length_cases hW
  · simp only [JsNumber.fin_add_fin, JsNumber.fin_lt_fin] at h ⊢
    linarith
  · rfl

/-- Past the end of a window the time is later. -/
theorem not_within_later (hW : 0 < W) {t' : ℚ} (htt' : t ≤ t')
    (h : ¬ (.fin t : JsNumber) < .fin s + W) : ¬ (.fin t' : JsNumber) < .fin s + W := by
  obtain ⟨w, -, rfl⟩ | rfl := length_cases hW
  · simp only [JsNumber.fin_add_fin, JsNumber.fin_lt_fin] at h ⊢
    linarith
  · exact absurd rfl h

end

/-! ## Counting the allowed calls -/

section

variable {opts : RateLimiterOptions} {key : String} {p : ℚ → Prop} [DecidablePred p]

/-- The calls come in the order of time. -/
def InOrder (calls : List LimitCall) : Prop := calls.Pairwise fun c d => c.1 ≤ d.1

theorem allowed_cons_of_ne {t : ℚ} {key' : String} (h : key' ≠ key) (r : RateLimitResult)
    (answered : List (LimitCall × RateLimitResult)) :
    allowed key p (((t, key'), r) :: answered) = allowed key p answered := by
  rw [allowed, allowed, List.countP_cons_of_neg]
  simp [h]

theorem allowed_cons_of_refused {call : LimitCall} {r : RateLimitResult} (h : r.ok = false)
    (answered : List (LimitCall × RateLimitResult)) :
    allowed key p ((call, r) :: answered) = allowed key p answered := by
  rw [allowed, allowed, List.countP_cons_of_neg]
  simp [h]

theorem allowed_cons_of_not {t : ℚ} {key' : String} (h : ¬ p t) (r : RateLimitResult)
    (answered : List (LimitCall × RateLimitResult)) :
    allowed key p (((t, key'), r) :: answered) = allowed key p answered := by
  rw [allowed, allowed, List.countP_cons_of_neg]
  simp [h]

theorem allowed_cons_le (key : String) (p : ℚ → Prop) [DecidablePred p] (call : LimitCall)
    (r : RateLimitResult) (answered : List (LimitCall × RateLimitResult)) :
    allowed key p ((call, r) :: answered) ≤ allowed key p answered + 1 := by
  rw [allowed, allowed, List.countP_cons]
  split <;> omega

/-- Calls at other times do not count. -/
theorem allowed_eq_zero : ∀ (calls : List LimitCall) (buckets : JsMap Bucket),
    (∀ c ∈ calls, ¬ p c.1) → allowed key p (answers opts buckets calls) = 0
  | [], _, _ => rfl
  | (t, key') :: calls, buckets, h => by
      obtain ⟨ht, hcalls⟩ := List.forall_mem_cons.1 h
      rw [answers_cons, allowed_cons_of_not ht]
      exact allowed_eq_zero calls _ hcalls

variable {q : ℚ} (hmax : opts.max = .fin q) (hW : 0 < opts.windowMs)

include hmax in
/-- A bucket that is not full has room for one more. -/
private theorem count_lt_ceil {c : Nat} (h : ¬ opts.max ≤ (c : JsNumber)) : (c : ℤ) + 1 ≤ ⌈q⌉ := by
  rw [hmax, JsNumber.natCast_eq_fin, JsNumber.fin_le_fin, not_le] at h
  have hcast : ((c : ℤ) : ℚ) < q := by exact_mod_cast h
  have := Int.lt_ceil.2 hcast
  omega

include hmax hW in
/-- **An open window gives out what is left of the maximum.** -/
theorem window_le {s : ℚ} (hp : ∀ t, p t → (.fin t : JsNumber) < .fin s + opts.windowMs) :
    ∀ (calls : List LimitCall) (buckets : JsMap Bucket) (c : Nat),
      buckets.get key = some { windowStart := .fin s, count := c } → (c : ℤ) ≤ ⌈q⌉ →
        InOrder calls → (allowed key p (answers opts buckets calls) : ℤ) ≤ ⌈q⌉ - c := by
  intro calls
  induction calls with
  | nil =>
      intro buckets c _ hc _
      simpa [answers, allowed] using hc
  | cons call calls ih =>
      obtain ⟨t, key'⟩ := call
      intro buckets c hget hc hsorted
      obtain ⟨hlater, hcalls⟩ := List.pairwise_cons.1 hsorted
      by_cases hkey : key' = key
      · subst hkey
        obtain ⟨hopens, -, -⟩ | ⟨b, hb, -, hb'⟩ := check_cases opts buckets t key'
        · have hpast : ¬ (.fin t : JsNumber) < .fin s + opts.windowMs := by
            rw [← not_elapsed_iff hW, not_not]
            exact hopens _ hget
          have hnone : ∀ c ∈ (t, key') :: calls, ¬ p c.1 := by
            intro c hc hpc
            obtain rfl | hc := List.mem_cons.1 hc
            · exact hpast (hp _ hpc)
            · exact not_within_later hW (hlater c hc) hpast (hp _ hpc)
          rw [allowed_eq_zero _ _ hnone]
          simpa using hc
        · rw [hget] at hb
          cases hb
          rw [answers_cons]
          obtain ⟨-, hsame, hrefused, -⟩ | ⟨hroom, -, hcounted⟩ := hb'
          · rw [allowed_cons_of_refused hrefused, hsame]
            exact ih buckets c hget hc hcalls
          · have hrest := ih _ (c + 1) hcounted (by exact_mod_cast count_lt_ceil hmax hroom) hcalls
            have hone := allowed_cons_le key' p (t, key')
              (check opts buckets t key').1 (answers opts (check opts buckets t key').2 calls)
            push_cast at hrest
            omega
      · rw [answers_cons, allowed_cons_of_ne hkey]
        exact ih _ c (by rw [get_check_of_ne hkey, hget]) hc hcalls

include hmax hW in
/-- **A window that opens gives out the maximum.** -/
theorem opening_le (h1 : 1 ≤ ⌈q⌉) {buckets : JsMap Bucket} {t : ℚ} {calls : List LimitCall}
    (hopens : OpensWindow opts buckets (t, key)) (hsorted : InOrder calls)
    (hp : ∀ t', p t' → (.fin t' : JsNumber) < .fin t + opts.windowMs) :
    (allowed key p (answers opts buckets ((t, key) :: calls)) : ℤ) ≤ ⌈q⌉ := by
  have hget : (check opts buckets t key).2.get key =
      some { windowStart := .fin t, count := 1 } := by
    obtain ⟨-, -, hget⟩ | ⟨b, hb, hopen, -⟩ := check_cases opts buckets t key
    · exact hget
    · exact absurd (hopens b hb) hopen
  have hrest := window_le hmax hW hp calls _ 1 hget (by simpa using h1) hsorted
  have hone := allowed_cons_le key p (t, key) (check opts buckets t key).1
    (answers opts (check opts buckets t key).2 calls)
  rw [answers_cons]
  push_cast at hrest
  omega

/-- The buckets of a key that a limiter can have: opened at a time, and with no
more calls than the maximum. -/
def Filled (q : ℚ) (buckets : JsMap Bucket) (key : String) : Prop :=
  ∀ b, buckets.get key = some b → (∃ s, b.windowStart = .fin s) ∧ (b.count : ℤ) ≤ ⌈q⌉

/-- The calls that the window of a key has counted. -/
def used (buckets : JsMap Bucket) (key : String) : Nat :=
  ((buckets.get key).map Bucket.count).getD 0

theorem used_of_get {buckets : JsMap Bucket} {b : Bucket} (h : buckets.get key = some b) :
    used buckets key = b.count := by
  simp [used, h]

theorem used_check_of_ne (opts : RateLimiterOptions) {buckets : JsMap Bucket} (t : ℚ)
    {key' : String} (h : key' ≠ key) :
    used (check opts buckets t key').2 key = used buckets key := by
  rw [used, get_check_of_ne h, used]

theorem Filled.used_le (h1 : 1 ≤ ⌈q⌉) {buckets : JsMap Bucket} (h : Filled q buckets key) :
    (used buckets key : ℤ) ≤ ⌈q⌉ := by
  cases hb : buckets.get key with
  | none =>
      simp only [used, hb, Option.map_none, Option.getD_none]
      omega
  | some b =>
      rw [used_of_get hb]
      exact (h b hb).2

include hmax in
/-- A call keeps the buckets filled. -/
theorem Filled.check (h1 : 1 ≤ ⌈q⌉) {buckets : JsMap Bucket} (h : Filled q buckets key) (t : ℚ)
    (key' : String) : Filled q (check opts buckets t key').2 key := by
  intro b hb
  by_cases hkey : key' = key
  · subst hkey
    obtain ⟨-, -, hget⟩ | ⟨b', hb', -, hcases⟩ := check_cases opts buckets t key'
    · rw [hget] at hb
      cases hb
      exact ⟨⟨t, rfl⟩, by simpa using h1⟩
    · obtain ⟨-, hsame, -⟩ | ⟨hroom, -, hget⟩ := hcases
      · rw [hsame] at hb
        exact h b hb
      · rw [hget] at hb
        cases hb
        exact ⟨(h b' hb').1, by exact_mod_cast count_lt_ceil hmax hroom⟩
  · rw [get_check_of_ne hkey] at hb
    exact h b hb

include hmax hW in
/-- From the start of an interval of the length of a window on, the open window
gives out what it has left, and the next one the maximum. -/
theorem sliding_le_of_started (h1 : 1 ≤ ⌈q⌉) {a : ℚ} :
    ∀ (calls : List LimitCall) (buckets : JsMap Bucket), Filled q buckets key → InOrder calls →
      (∀ c ∈ calls, a ≤ c.1) →
        (allowed key (fun t => a ≤ t ∧ (.fin t : JsNumber) < .fin a + opts.windowMs)
          (answers opts buckets calls) : ℤ) ≤ 2 * ⌈q⌉ - used buckets key := by
  intro calls
  induction calls with
  | nil =>
      intro buckets hfilled _ _
      have hused := hfilled.used_le h1
      simp only [answers, allowed, List.countP_nil]
      omega
  | cons call calls ih =>
      obtain ⟨t, key'⟩ := call
      intro buckets hfilled hsorted hstarted
      obtain ⟨hat, hrest⟩ := List.forall_mem_cons.1 hstarted
      obtain ⟨hlater, hcalls⟩ := List.pairwise_cons.1 hsorted
      by_cases hkey : key' = key
      · subst hkey
        have ih' := ih _ (hfilled.check hmax h1 t key') hcalls hrest
        obtain ⟨hopens, -⟩ | ⟨b, hb, hopen, hcases⟩ := check_cases opts buckets t key'
        · -- the rest of the interval lies within the window that opens here
          have hwindow := opening_le hmax hW h1 hopens hcalls fun t'
            (ht' : a ≤ t' ∧ (.fin t' : JsNumber) < .fin a + opts.windowMs) =>
              within_mono hW hat ht'.2
          have hused := hfilled.used_le h1
          omega
        · rw [answers_cons]
          obtain ⟨-, hsame, hrefused, -⟩ | ⟨-, -, hcounted⟩ := hcases
          · rw [allowed_cons_of_refused hrefused, hsame]
            rw [hsame] at ih'
            exact ih'
          · have hone := allowed_cons_le key'
              (fun t => a ≤ t ∧ (.fin t : JsNumber) < .fin a + opts.windowMs) (t, key')
              (check opts buckets t key').1 (answers opts (check opts buckets t key').2 calls)
            rw [used_of_get hcounted] at ih'
            rw [used_of_get hb]
            push_cast at ih'
            omega
      · rw [answers_cons, allowed_cons_of_ne hkey, ← used_check_of_ne opts t hkey]
        exact ih _ (hfilled.check hmax h1 t key') hcalls hrest

include hmax hW in
/-- **An interval of the length of a window meets at most two of them.** -/
theorem sliding_le (h1 : 1 ≤ ⌈q⌉) {a : ℚ} :
    ∀ (calls : List LimitCall) (buckets : JsMap Bucket), Filled q buckets key → InOrder calls →
      (allowed key (fun t => a ≤ t ∧ (.fin t : JsNumber) < .fin a + opts.windowMs)
        (answers opts buckets calls) : ℤ) ≤ 2 * ⌈q⌉
  | [], _, _, _ => by
      simp only [answers, allowed, List.countP_nil]
      omega
  | (t, key') :: calls, buckets, hfilled, hsorted => by
      by_cases hat : a ≤ t
      · have hstarted : ∀ c ∈ (t, key') :: calls, a ≤ c.1 := by
          intro c hc
          obtain rfl | hc := List.mem_cons.1 hc
          · exact hat
          · exact hat.trans ((List.pairwise_cons.1 hsorted).1 c hc)
        have := sliding_le_of_started hmax hW h1 _ buckets hfilled hsorted hstarted
        omega
      · rw [answers_cons, allowed_cons_of_not fun h => hat h.1]
        exact sliding_le h1 calls _ (hfilled.check hmax h1 t key') (List.pairwise_cons.1 hsorted).2

end

/-! ## The retry hint -/

section

variable {opts : RateLimiterOptions} {key : String}

/-- The window of the key opened at or before a time. -/
def StartedBy (t : ℚ) (buckets : JsMap Bucket) (key : String) : Prop :=
  ∀ b, buckets.get key = some b → ∃ s ≤ t, b.windowStart = .fin s

theorem StartedBy.check {buckets : JsMap Bucket} {t u : ℚ} (h : StartedBy u buckets key)
    (htu : t ≤ u) (key' : String) : StartedBy u (check opts buckets t key').2 key := by
  intro b hb
  by_cases hkey : key' = key
  · subst hkey
    obtain ⟨-, -, hget⟩ | ⟨b', hb', -, hcases⟩ := check_cases opts buckets t key'
    · rw [hget] at hb
      cases hb
      exact ⟨t, htu, rfl⟩
    · obtain ⟨-, hsame, -⟩ | ⟨-, -, hget⟩ := hcases
      · rw [hsame] at hb
        exact h b hb
      · rw [hget] at hb
        cases hb
        exact h b' hb'
  · rw [get_check_of_ne hkey] at hb
    exact h b hb

/-- After calls up to a time the window of a key has opened by then. -/
theorem startedBy_bucketsAfter (opts : RateLimiterOptions) {t : ℚ} :
    ∀ (calls : List LimitCall) (buckets : JsMap Bucket),
      (∀ c ∈ calls, c.1 ≤ t) → StartedBy t buckets key →
        StartedBy t (bucketsAfter opts buckets calls) key
  | [], _, _, h => h
  | call :: calls, _, hcalls, h =>
      startedBy_bucketsAfter opts calls _ (fun c hc => hcalls c (List.mem_cons_of_mem _ hc))
        (h.check (hcalls call List.mem_cons_self) call.2)

/-- Calls with other keys leave the bucket of the key. -/
theorem get_bucketsAfter_of_ne : ∀ (calls : List LimitCall) (buckets : JsMap Bucket),
    (∀ c ∈ calls, c.2 ≠ key) → (bucketsAfter opts buckets calls).get key = buckets.get key
  | [], _, _ => rfl
  | call :: calls, buckets, h => by
      obtain ⟨hcall, hcalls⟩ := List.forall_mem_cons.1 h
      have ih := get_bucketsAfter_of_ne calls (check opts buckets call.1 call.2).2 hcalls
      rw [get_check_of_ne hcall] at ih
      exact ih

theorem bucketsAfter_append (buckets : JsMap Bucket) (calls calls' : List LimitCall) :
    bucketsAfter opts buckets (calls ++ calls') =
      bucketsAfter opts (bucketsAfter opts buckets calls) calls' :=
  List.foldl_append

/-- A refusal is of a full window, and says how long it is still open. -/
theorem refusal {buckets : JsMap Bucket} {t : ℚ} {r : JsNumber}
    (hok : (check opts buckets t key).1.ok = false)
    (hr : (check opts buckets t key).1.retryAfterMs = some r) :
    ∃ b, buckets.get key = some b ∧ ¬ opts.windowMs ≤ .fin t - b.windowStart ∧
      r = b.windowStart + opts.windowMs - .fin t ∧ (check opts buckets t key).2 = buckets := by
  obtain ⟨-, htrue, -⟩ | ⟨b, hb, hopen, ⟨-, hsame, -, hhint⟩ | ⟨-, htrue, -⟩⟩ :=
    check_cases opts buckets t key
  · rw [htrue] at hok
    cases hok
  · rw [hhint, Option.some_inj] at hr
    exact ⟨b, hb, hopen, hr.symm, hsame⟩
  · rw [htrue] at hok
    cases hok

/-- The hint is positive, at most a window, and leads past the end of it. -/
theorem hint_bounds (hW : 0 < opts.windowMs) {s t : ℚ} (hst : s ≤ t)
    (hopen : (.fin t : JsNumber) < .fin s + opts.windowMs) :
    0 < (.fin s + opts.windowMs - .fin t : JsNumber) ∧
      (.fin s + opts.windowMs - .fin t : JsNumber) ≤ opts.windowMs ∧
      ∀ t' : ℚ, (.fin t : JsNumber) + (.fin s + opts.windowMs - .fin t) ≤ .fin t' →
        opts.windowMs ≤ .fin t' - .fin s := by
  obtain ⟨w, -, hw⟩ | hw := length_cases hW
  · rw [hw] at hopen ⊢
    simp only [JsNumber.fin_add_fin, JsNumber.fin_lt_fin, JsNumber.fin_sub_fin,
      JsNumber.fin_le_fin, JsNumber.ofNat_eq_fin, Nat.cast_zero] at hopen ⊢
    refine ⟨by linarith, by linarith, fun t' ht' => by linarith⟩
  · rw [hw]
    exact ⟨rfl, rfl, fun _ h => absurd h Bool.false_ne_true⟩

/-- A call that opens a window is allowed. -/
theorem ok_of_opens {buckets : JsMap Bucket} {t : ℚ} (h : OpensWindow opts buckets (t, key)) :
    (check opts buckets t key).1.ok = true := by
  obtain ⟨-, hok, -⟩ | ⟨b, hb, hopen, -⟩ := check_cases opts buckets t key
  · exact hok
  · exact absurd (h b hb) hopen

end

/-! ## The promise -/

end AgentWorth.RateLimit
