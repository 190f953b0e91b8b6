import AgentWorth.Lib.Text

/-!
# String methods

The string methods that parsers of header values are written with, and
`Number(s)` on any text.
-/

namespace AgentWorth.Js

/-- `s.toUpperCase()`, on ASCII letters. -/
def toUpperCase (s : String) : String := String.ofList (s.toList.map Char.toUpper)

/-- `s.toLowerCase()`, on ASCII letters. -/
def toLowerCase (s : String) : String := String.ofList (s.toList.map Char.toLower)

/-- The text before and after the first `c`, where `s.indexOf(c)` finds one. -/
def cut (c : Char) : List Char → Option (List Char × List Char)
  | [] => none
  | x :: xs =>
      if x = c then some ([], xs) else (cut c xs).map fun r => (x :: r.1, r.2)

/-- `s.trim()` on characters. -/
def trimChars (cs : List Char) : List Char :=
  ((cs.dropWhile isSpace).reverse.dropWhile isSpace).reverse

/-- The first `c` ends the text before it. -/
theorem cut_append {c : Char} {before : List Char} (h : c ∉ before) (after : List Char) :
    cut c (before ++ c :: after) = some (before, after) := by
  induction before with
  | nil => rw [List.nil_append, cut, if_pos rfl]
  | cons x xs ih =>
      have hx : x ≠ c := fun hx => h (hx ▸ List.mem_cons_self)
      have hxs : c ∉ xs := fun hc => h (List.mem_cons_of_mem _ hc)
      rw [List.cons_append, cut, if_neg hx, ih hxs]
      rfl

theorem cut_eq_some {c : Char} {cs before after : List Char}
    (h : cut c cs = some (before, after)) : cs = before ++ c :: after ∧ c ∉ before := by
  induction cs generalizing before with
  | nil => cases h
  | cons x xs ih =>
      unfold cut at h
      by_cases hx : x = c
      · rw [if_pos hx] at h
        cases h
        exact ⟨by rw [hx]; rfl, List.not_mem_nil⟩
      · rw [if_neg hx] at h
        obtain ⟨⟨before', after'⟩, hcut, heq⟩ := Option.map_eq_some_iff.1 h
        cases heq
        obtain ⟨hxs, hfree⟩ := ih hcut
        refine ⟨by rw [hxs]; rfl, ?_⟩
        rw [List.mem_cons, not_or]
        exact ⟨fun hc => hx hc.symm, hfree⟩

theorem mem_trimChars {c : Char} {cs : List Char} (h : c ∈ trimChars cs) : c ∈ cs := by
  unfold trimChars at h
  rw [List.mem_reverse] at h
  have hmem := (List.dropWhile_sublist _).subset h
  rw [List.mem_reverse] at hmem
  exact (List.dropWhile_sublist _).subset hmem

/-- Text that neither starts nor ends in white space is left as it is. -/
theorem trimChars_eq_self {cs : List Char} (hhead : ∀ c ∈ cs.head?, isSpace c = false)
    (hlast : ∀ c ∈ cs.getLast?, isSpace c = false) : trimChars cs = cs := by
  have hdrop : ∀ ds : List Char, (∀ c ∈ ds.head?, isSpace c = false) →
      ds.dropWhile isSpace = ds := by
    intro ds hds
    cases ds with
    | nil => rfl
    | cons d ds => exact List.dropWhile_cons_of_neg (by simp [hds d rfl])
  unfold trimChars
  rw [hdrop cs hhead, hdrop _ (by rwa [List.head?_reverse]), List.reverse_reverse]

/-- What trimming takes away is white space on both sides. -/
theorem trimChars_split (cs : List Char) : ∃ before after,
    cs = before ++ (trimChars cs ++ after) ∧ (∀ c ∈ before, isSpace c = true) ∧
      ∀ c ∈ after, isSpace c = true := by
  have hspaces : ∀ ds : List Char, ∀ c ∈ ds.takeWhile isSpace, isSpace c = true :=
    fun ds => List.all_eq_true.1 List.all_takeWhile
  refine ⟨cs.takeWhile isSpace, ((cs.dropWhile isSpace).reverse.takeWhile isSpace).reverse, ?_,
    hspaces cs, fun c hc => hspaces _ c (List.mem_reverse.1 hc)⟩
  unfold trimChars
  rw [← List.reverse_append, List.takeWhile_append_dropWhile, List.reverse_reverse,
    List.takeWhile_append_dropWhile]

theorem trimChars_trimChars (cs : List Char) : trimChars (trimChars cs) = trimChars cs := by
  have hhead : ∀ (ds : List Char), ∀ c ∈ (ds.dropWhile isSpace).head?, isSpace c = false := by
    intro ds c hc
    have hkept := List.head?_dropWhile_not isSpace ds
    rw [Option.mem_def.1 hc] at hkept
    exact hkept
  refine trimChars_eq_self (fun c hc => ?_) fun c hc => ?_
  · -- the first character is the first of what trimming the front leaves
    obtain ⟨rest, hrest⟩ : ∃ rest, cs.dropWhile isSpace = trimChars cs ++ rest := by
      refine ⟨((cs.dropWhile isSpace).reverse.takeWhile isSpace).reverse, ?_⟩
      unfold trimChars
      rw [← List.reverse_append, List.takeWhile_append_dropWhile, List.reverse_reverse]
    refine hhead cs c ?_
    rw [hrest]
    cases htrim : trimChars cs with
    | nil =>
        rw [htrim] at hc
        cases hc
    | cons d ds =>
        rw [htrim] at hc
        exact hc
  · unfold trimChars at hc
    rw [List.getLast?_reverse] at hc
    exact hhead _ c hc

/-! ## `Number(s)` -/

/-- A finite value as a double sees it: too large for one is infinite. -/
def ofRational (q : ℚ) : JsNumber :=
  if 2 ^ 1024 - 2 ^ 970 ≤ q then .posInf
  else if q ≤ -(2 ^ 1024 - 2 ^ 970) then .negInf else .fin q

/-- The value of a nonempty run of digits in a base up to sixteen. -/
def radixDigits (base : Nat) (cs : List Char) : Option Nat :=
  let digit (c : Char) : Option Nat :=
    let d := if c.isDigit then c.toNat - 48 else (c.toLower.toNat - 97) + 10
    if c.isAlphanum ∧ d < base then some d else none
  if cs = [] then none
  else cs.foldl (fun acc c => acc.bind fun n => (digit c).map fun d => n * base + d) (some 0)

/-- An exponent part that ends the text: `e` or `E`, a sign, digits. -/
def exponentPart : List Char → Option ℤ
  | [] => some 0
  | c :: cs =>
      if c = 'e' ∨ c = 'E' then
        match cs with
        | '-' :: ds => (radixDigits 10 ds).map fun n => -(n : ℤ)
        | '+' :: ds => (radixDigits 10 ds).map fun n => (n : ℤ)
        | ds => (radixDigits 10 ds).map fun n => (n : ℤ)
      else none

/-- `StrUnsignedDecimalLiteral` without `Infinity`. -/
def unsignedDecimal (cs : List Char) : Option ℚ :=
  let whole := cs.takeWhile Char.isDigit
  let rest := cs.dropWhile Char.isDigit
  let frac := match rest with
    | '.' :: ds => ds.takeWhile Char.isDigit
    | _ => []
  let tail := match rest with
    | '.' :: ds => ds.dropWhile Char.isDigit
    | _ => rest
  if whole = [] ∧ frac = [] then none
  else (exponentPart tail).map fun e =>
    ((Nat.ofDigitChars 10 whole 0 : ℚ) + (Nat.ofDigitChars 10 frac 0 : ℚ) / 10 ^ frac.length) *
      (10 : ℚ) ^ e

/-- A decimal literal without its sign. -/
def unsignedLiteral (cs : List Char) : JsNumber :=
  if cs = "Infinity".toList then .posInf
  else ((unsignedDecimal cs).map ofRational).getD .nan

/-- `Number(s)`: blank text is zero, then the prefixed integers, then a signed
decimal literal; anything else is `NaN`. -/
def stringToNumber (s : List Char) : JsNumber :=
  let prefixed (base : Nat) (ds : List Char) : JsNumber :=
    ((radixDigits base ds).map fun n => ofRational n).getD .nan
  match trimChars s with
  | [] => 0
  | '0' :: 'x' :: ds | '0' :: 'X' :: ds => prefixed 16 ds
  | '0' :: 'o' :: ds | '0' :: 'O' :: ds => prefixed 8 ds
  | '0' :: 'b' :: ds | '0' :: 'B' :: ds => prefixed 2 ds
  | '-' :: cs => -unsignedLiteral cs
  | '+' :: cs => unsignedLiteral cs
  | cs => unsignedLiteral cs

end AgentWorth.Js
