import AgentWorth.Lib.Number

/-!
# ECMAScript strings

A JavaScript string is a sequence of UTF-16 code units: its `length` counts
units, and `<` and the default `sort()` compare units.  Strings themselves are
Lean strings, and only these observations go through `utf16`.
-/

namespace AgentWorth.Js

/-- The UTF-16 code units of one code point. -/
def charUnits (c : Char) : List Nat :=
  if c.toNat < 0x10000 then [c.toNat]
  else [0xD800 + (c.toNat - 0x10000) / 0x400, 0xDC00 + (c.toNat - 0x10000) % 0x400]

/-- The UTF-16 code units of a string. -/
def utf16 (s : String) : List Nat := s.toList.flatMap charUnits

/-- `s.length`. -/
def strLength (s : String) : Nat := (utf16 s).length

/-- Lexicographic `<` on code units. -/
def unitsLt : List Nat → List Nat → Bool
  | _, [] => false
  | [], _ :: _ => true
  | a :: as, b :: bs => decide (a < b) || (decide (a = b) && unitsLt as bs)

/-- `a < b` on strings; `a >= b` is its negation. -/
def strLt (a b : String) : Bool := unitsLt (utf16 a) (utf16 b)

theorem unitsLt_irrefl (as : List Nat) : unitsLt as as = false := by
  induction as with
  | nil => rfl
  | cons a as ih => simp [unitsLt, ih]

theorem unitsLt_trans : ∀ (as bs cs : List Nat),
    unitsLt as bs = true → unitsLt bs cs = true → unitsLt as cs = true
  | _, _, [], _, h => by simp [unitsLt] at h
  | _, [], _ :: _, h, _ => by simp [unitsLt] at h
  | [], _ :: _, _ :: _, _, _ => rfl
  | a :: as, b :: bs, c :: cs, hab, hbc => by
      simp only [unitsLt, Bool.or_eq_true, Bool.and_eq_true, decide_eq_true_eq]
        at hab hbc ⊢
      rcases hab with hab | ⟨rfl, hab⟩
      · rcases hbc with hbc | ⟨rfl, _⟩
        · exact Or.inl (by omega)
        · exact Or.inl hab
      · rcases hbc with hbc | ⟨rfl, hbc⟩
        · exact Or.inl hbc
        · exact Or.inr ⟨rfl, unitsLt_trans as bs cs hab hbc⟩

@[simp] theorem strLt_irrefl (s : String) : strLt s s = false :=
  unitsLt_irrefl _

theorem strLt_trans {a b c : String} (hab : strLt a b = true)
    (hbc : strLt b c = true) : strLt a c = true :=
  unitsLt_trans _ _ _ hab hbc

theorem strLt_asymm {a b : String} (h : strLt a b = true) :
    strLt b a = false := by
  cases hba : strLt b a with
  | false => rfl
  | true =>
      have haa := strLt_trans h hba
      rw [strLt_irrefl] at haa
      exact absurd haa Bool.false_ne_true

/-- The order `>=` on strings is transitive: two refused `<` compose. -/
theorem unitsLt_total_trans : ∀ (as bs cs : List Nat),
    unitsLt as bs = false → unitsLt bs cs = false → unitsLt as cs = false
  | _, _, [], _, _ => by simp [unitsLt]
  | _, [], _ :: _, _, h => by simp [unitsLt] at h
  | [], _ :: _, _ :: _, h, _ => by simp [unitsLt] at h
  | a :: as, b :: bs, c :: cs, hab, hbc => by
      simp only [unitsLt, Bool.or_eq_false_iff, Bool.and_eq_false_iff,
        decide_eq_false_iff_not] at hab hbc ⊢
      obtain ⟨hab, habt⟩ := hab
      obtain ⟨hbc, hbct⟩ := hbc
      refine ⟨by omega, ?_⟩
      by_cases hac : a = c
      · have hb : a = b := by omega
        subst hb
        subst hac
        right
        exact unitsLt_total_trans as bs cs
          (habt.resolve_left (fun h => h rfl)) (hbct.resolve_left (fun h => h rfl))
      · exact Or.inl hac

theorem strLt_false_trans {a b c : String} (hab : strLt a b = false)
    (hbc : strLt b c = false) : strLt a c = false :=
  unitsLt_total_trans _ _ _ hab hbc

/-! ### Order of code points

Databases compare text by its UTF-8 bytes, which is by code points.  The two
orders differ only where a surrogate meets a unit above the surrogates. -/

/-- Lexicographic `<` on code points. -/
def textLt (a b : String) : Bool :=
  unitsLt (a.toList.map Char.toNat) (b.toList.map Char.toNat)

/-- A property of every character of a text, checked along the text. -/
theorem forall_chars {p : Char → Prop} [DecidablePred p] {cs : List Char}
    (h : (cs.all fun c => decide (p c)) = true) : ∀ c ∈ cs, p c :=
  fun c hc => of_decide_eq_true (List.all_eq_true.1 h c hc)

/-- Only characters below U+0080. -/
def IsAscii (s : String) : Prop := ∀ c ∈ s.toList, c.toNat < 0x80

/-- The first unit of a character: the character itself, or a surrogate. -/
theorem charUnits_head (c : Char) : ∃ u us, charUnits c = u :: us ∧
    (u = c.toNat ∧ us = [] ∨ 0x80 < u ∧ 0x80 < c.toNat) := by
  unfold charUnits
  split
  · exact ⟨_, _, rfl, .inl ⟨rfl, rfl⟩⟩
  · exact ⟨_, _, rfl, .inr ⟨by omega, by omega⟩⟩

theorem charUnits_of_ascii {c : Char} (hc : c.toNat < 0x80) : charUnits c = [c.toNat] :=
  if_pos (by omega)

theorem unitsLt_left_ascii : ∀ (as bs : List Char), (∀ c ∈ as, c.toNat < 0x80) →
    unitsLt (as.flatMap charUnits) (bs.flatMap charUnits) =
      unitsLt (as.map Char.toNat) (bs.map Char.toNat)
  | [], [], _ => rfl
  | _ :: _, [], _ => by simp [unitsLt]
  | [], b :: bs, _ => by
      obtain ⟨u, us, hu, -⟩ := charUnits_head b
      rw [List.flatMap_cons, hu]
      rfl
  | a :: as, b :: bs, h => by
      have ha := h a (List.mem_cons_self ..)
      have ih := unitsLt_left_ascii as bs fun c hc => h c (List.mem_cons_of_mem _ hc)
      obtain ⟨u, us, hu, hcases⟩ := charUnits_head b
      rw [List.flatMap_cons, List.flatMap_cons, charUnits_of_ascii ha, hu]
      simp only [List.cons_append, List.nil_append, List.map_cons, unitsLt]
      rcases hcases with ⟨rfl, rfl⟩ | ⟨hlo, hlo'⟩
      · rw [List.nil_append, ih]
      · have h1 : a.toNat < u := by omega
        have h2 : a.toNat < b.toNat := by omega
        simp [h1, h2]

theorem unitsLt_right_ascii : ∀ (as bs : List Char), (∀ c ∈ bs, c.toNat < 0x80) →
    unitsLt (as.flatMap charUnits) (bs.flatMap charUnits) =
      unitsLt (as.map Char.toNat) (bs.map Char.toNat)
  | [], [], _ => rfl
  | _ :: _, [], _ => by simp [unitsLt]
  | [], b :: bs, _ => by
      obtain ⟨u, us, hu, -⟩ := charUnits_head b
      rw [List.flatMap_cons, hu]
      rfl
  | a :: as, b :: bs, h => by
      have hb := h b (List.mem_cons_self ..)
      have ih := unitsLt_right_ascii as bs fun c hc => h c (List.mem_cons_of_mem _ hc)
      obtain ⟨u, us, hu, hcases⟩ := charUnits_head a
      rw [List.flatMap_cons, List.flatMap_cons, charUnits_of_ascii hb, hu]
      simp only [List.cons_append, List.nil_append, List.map_cons, unitsLt]
      rcases hcases with ⟨rfl, rfl⟩ | ⟨hlo, hlo'⟩
      · rw [List.nil_append, ih]
      · have h1 : ¬ u < b.toNat := by omega
        have h2 : ¬ a.toNat < b.toNat := by omega
        have h3 : u ≠ b.toNat := by omega
        have h4 : a.toNat ≠ b.toNat := by omega
        simp [h1, h2, h3, h4]

/-- **The orders agree against ASCII text.** -/
theorem textLt_eq_strLt {a b : String} (h : IsAscii a ∨ IsAscii b) : textLt a b = strLt a b := by
  rcases h with h | h
  · exact (unitsLt_left_ascii _ _ h).symm
  · exact (unitsLt_right_ascii _ _ h).symm

/-! ### Sorting

`xs.sort()` and `xs.sort((a, b) => a.id < b.id ? -1 : a.id > b.id ? 1 : 0)`
are stable; insertion keeps equal keys in their original order. -/

section Sorting

variable {α : Type} (key : α → String)

/-- Insert `x` before the first element whose key exceeds its own. -/
def insertByKey (x : α) : List α → List α
  | [] => [x]
  | y :: ys => if strLt (key y) (key x) then y :: insertByKey x ys else x :: y :: ys

/-- Stable sort by a string key. -/
def sortByKey : List α → List α
  | [] => []
  | x :: xs => insertByKey key x (sortByKey xs)

theorem insertByKey_perm (x : α) (xs : List α) :
    (insertByKey key x xs).Perm (x :: xs) := by
  induction xs with
  | nil => exact List.Perm.refl _
  | cons y ys ih =>
      unfold insertByKey
      split
      · exact (ih.cons y).trans (List.Perm.swap x y ys)
      · exact List.Perm.refl _

theorem sortByKey_perm (xs : List α) : (sortByKey key xs).Perm xs := by
  induction xs with
  | nil => exact List.Perm.refl _
  | cons x xs ih => exact (insertByKey_perm key x _).trans (ih.cons x)

@[simp] theorem mem_sortByKey {x : α} {xs : List α} :
    x ∈ sortByKey key xs ↔ x ∈ xs := (sortByKey_perm key xs).mem_iff

theorem filter_insertByKey (k : String) (x : α) (xs : List α) :
    (insertByKey key x xs).filter (fun y => key y == k) =
      (x :: xs).filter fun y => key y == k := by
  induction xs with
  | nil => rfl
  | cons y ys ih =>
      unfold insertByKey
      by_cases hlt : strLt (key y) (key x) = true
      · rw [if_pos hlt, List.filter_cons, ih]
        by_cases hx : key x = k
        · have hy : key y ≠ k := by
            rintro rfl
            rw [hx, strLt_irrefl] at hlt
            cases hlt
          simp [hx, hy]
        · simp [hx, List.filter_cons]
      · rw [if_neg hlt]

/-- Ascending by key; equal keys in any order. -/
def SortedByKey (xs : List α) : Prop := xs.Pairwise fun x y => strLt (key y) (key x) = false

theorem sortedByKey_insertByKey (x : α) {xs : List α} (h : SortedByKey key xs) :
    SortedByKey key (insertByKey key x xs) := by
  induction xs with
  | nil => exact List.pairwise_singleton _ x
  | cons y ys ih =>
      obtain ⟨hy, hys⟩ := List.pairwise_cons.1 h
      unfold insertByKey
      split
      · next hlt =>
          refine List.pairwise_cons.2 ⟨?_, ih hys⟩
          intro z hz
          rcases List.mem_cons.1 ((insertByKey_perm key x ys).mem_iff.1 hz) with rfl | hz
          · exact strLt_asymm hlt
          · exact hy z hz
      · next hlt =>
          have hxy : strLt (key y) (key x) = false := by simpa using hlt
          refine List.pairwise_cons.2 ⟨?_, h⟩
          intro z hz
          rcases List.mem_cons.1 hz with rfl | hz
          · exact hxy
          · exact strLt_false_trans (hy z hz) hxy

theorem sortedByKey_sortByKey (xs : List α) : SortedByKey key (sortByKey key xs) := by
  induction xs with
  | nil => exact List.Pairwise.nil
  | cons x xs ih => exact sortedByKey_insertByKey key x ih

/-- A sorted list is left as it is. -/
theorem sortByKey_of_sorted {xs : List α} (h : SortedByKey key xs) :
    sortByKey key xs = xs := by
  induction xs with
  | nil => rfl
  | cons x xs ih =>
      obtain ⟨hx, hxs⟩ := List.pairwise_cons.1 h
      rw [sortByKey, ih hxs]
      cases xs with
      | nil => rfl
      | cons y ys =>
          have hxy := hx y (List.mem_cons_self ..)
          rw [insertByKey, if_neg (by rw [hxy]; exact Bool.false_ne_true)]

/-- **Stability**: elements with one key keep their order. -/
theorem filter_sortByKey (k : String) (xs : List α) :
    (sortByKey key xs).filter (fun y => key y == k) = xs.filter fun y => key y == k := by
  induction xs with
  | nil => rfl
  | cons x xs ih =>
      rw [sortByKey, filter_insertByKey, List.filter_cons, List.filter_cons, ih]

end Sorting

/-! ### Whitespace and numerals -/

/-- ECMAScript `WhiteSpace` and `LineTerminator` code points. -/
def isSpace (c : Char) : Bool :=
  let n := c.toNat
  n == 0x9 || n == 0xA || n == 0xB || n == 0xC || n == 0xD || n == 0x20 || n == 0xA0 ||
    n == 0x1680 || (0x2000 ≤ n && n ≤ 0x200A) || n == 0x2028 || n == 0x2029 ||
    n == 0x202F || n == 0x205F || n == 0x3000 || n == 0xFEFF

/-- `s.trim()`. -/
def trim (s : String) : String :=
  String.ofList ((s.toList.dropWhile isSpace).reverse.dropWhile isSpace).reverse

/-- Value of a nonempty run of decimal digits. -/
def decimal? (cs : List Char) : Option Nat :=
  if cs ≠ [] ∧ cs.all Char.isDigit then some (Nat.ofDigitChars 10 cs 0) else none

/-- `Number(s)` on decimal text: blank text is zero, an optional sign and an
optional fraction are read, and anything else is `NaN`. -/
def number (s : String) : JsNumber :=
  let unsigned (cs : List Char) : JsNumber :=
    match cs.span (· ≠ '.') with
    | (whole, []) => ((decimal? whole).map fun n => JsNumber.fin (n : ℚ)).getD .nan
    | (whole, _ :: frac) =>
        match decimal? whole, decimal? frac with
        | some w, some f => .fin ((w : ℚ) + (f : ℚ) / 10 ^ frac.length)
        | _, _ => .nan
  match (trim s).toList with
  | [] => 0
  | '-' :: cs => -unsigned cs
  | '+' :: cs => unsigned cs
  | cs => unsigned cs

end AgentWorth.Js
