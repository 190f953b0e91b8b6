import AgentWorth.Lib.Json

/-!
# Text on one line

Neither a printed number nor JSON without a gap contains a line break, so text
that joins such parts with line breaks comes apart again.
-/

namespace AgentWorth.Js

def OneLine (cs : List Char) : Prop := '\n' ∉ cs

instance (cs : List Char) : Decidable (OneLine cs) := inferInstanceAs (Decidable (_ ∉ _))

@[simp] theorem oneLine_nil : OneLine [] := List.not_mem_nil

theorem oneLine_append {as bs : List Char} :
    OneLine (as ++ bs) ↔ OneLine as ∧ OneLine bs := by
  simp [OneLine, List.mem_append, not_or]

theorem oneLine_cons {c : Char} {cs : List Char} :
    OneLine (c :: cs) ↔ c ≠ '\n' ∧ OneLine cs := by
  simp [OneLine, eq_comm]

theorem oneLine_intercalate {sep : List Char} (hsep : OneLine sep) {parts : List (List Char)}
    (h : ∀ p ∈ parts, OneLine p) : OneLine (sep.intercalate parts) := by
  induction parts with
  | nil => exact oneLine_nil
  | cons p ps ih =>
      have hp := h p (List.mem_cons_self ..)
      have hrest := ih fun q hq => h q (List.mem_cons_of_mem _ hq)
      cases ps with
      | nil => rwa [List.intercalate_singleton]
      | cons q qs =>
          rw [List.intercalate_cons_cons]
          exact oneLine_append.2 ⟨oneLine_append.2 ⟨hp, hsep⟩, hrest⟩

/-! ## Splitting at a line break -/

/-- The first line of a text. -/
theorem firstLine_inj {as as' bs bs' : List Char} (has : OneLine as) (has' : OneLine as')
    (h : as ++ '\n' :: bs = as' ++ '\n' :: bs') : as = as' ∧ bs = bs' := by
  induction as generalizing as' with
  | nil =>
      cases as' with
      | nil => exact ⟨rfl, (List.cons.inj h).2⟩
      | cons c cs => exact absurd (List.cons.inj h).1.symm (oneLine_cons.1 has').1
  | cons c cs ih =>
      cases as' with
      | nil => exact absurd (List.cons.inj h).1 (oneLine_cons.1 has).1
      | cons c' cs' =>
          obtain ⟨hc, hrest⟩ := List.cons.inj h
          obtain ⟨hcs, hbs⟩ := ih (oneLine_cons.1 has).2 (oneLine_cons.1 has').2 hrest
          exact ⟨by rw [hc, hcs], hbs⟩

/-- The last line of a text. -/
theorem lastLine_inj {as as' bs bs' : List Char} (hbs : OneLine bs) (hbs' : OneLine bs')
    (h : as ++ '\n' :: bs = as' ++ '\n' :: bs') : as = as' ∧ bs = bs' := by
  have hrev : bs.reverse ++ '\n' :: as.reverse = bs'.reverse ++ '\n' :: as'.reverse := by
    have := congrArg List.reverse h
    simpa using this
  obtain ⟨hb, ha⟩ := firstLine_inj (by simpa [OneLine] using hbs)
    (by simpa [OneLine] using hbs') hrev
  exact ⟨List.reverse_injective ha, List.reverse_injective hb⟩

/-! ## Numbers -/

/-- A number that its text shows in full. -/
def IsPlain : JsNumber → Prop
  | .fin q => JsNumber.Terminates q
  | _ => True

theorem isPlain_natCast (n : Nat) : IsPlain (n : JsNumber) := by
  have h := JsNumber.terminates_intCast n
  rwa [Int.cast_natCast] at h

/-- A finite double has a significand of 53 bits, scaled. -/
def IsDouble : JsNumber → Prop
  | .fin q => ∃ m e : ℤ, |m| < 2 ^ 53 ∧ q = m * (2 : ℚ) ^ e
  | _ => True

private theorem terminates_of_isDouble {q : ℚ} (h : IsDouble (.fin q)) :
    JsNumber.Terminates q := by
  obtain ⟨m, e, -, rfl⟩ := h
  obtain ⟨k, rfl | rfl⟩ := e.eq_nat_or_neg
  · rw [zpow_natCast]
    have hint : (m : ℚ) * 2 ^ k = ((m * 2 ^ k : ℤ) : ℚ) := by push_cast; rfl
    rw [hint]
    exact JsNumber.terminates_intCast _
  · refine JsNumber.terminates_of_den (k := k) ?_
    have hint : (m : ℚ) * 2 ^ (-(k : ℤ)) * 10 ^ k = ((m * 5 ^ k : ℤ) : ℚ) := by
      rw [zpow_neg, zpow_natCast, show (10 : ℚ) = 2 * 5 by norm_num, mul_pow]
      push_cast
      field_simp
    rw [hint]
    exact Rat.den_intCast _

theorem IsDouble.isPlain {x : JsNumber} (h : IsDouble x) : IsPlain x := by
  cases x with
  | fin q => exact terminates_of_isDouble h
  | _ => trivial

theorem oneLine_digits {cs : List Char} (h : ∀ c ∈ cs, c.isDigit = true) : OneLine cs :=
  fun hmem => absurd (h _ hmem) (by decide)

theorem oneLine_decimalText (q : ℚ) : OneLine (JsNumber.decimalText q) := by
  have hdigits : ∀ n, OneLine (Nat.toDigits 10 n) :=
    fun n => oneLine_digits Numeral.isDigit_toDigits
  unfold JsNumber.decimalText
  refine oneLine_append.2 ⟨?_, oneLine_append.2 ⟨hdigits _, ?_⟩⟩
  · split
    · decide
    · exact oneLine_nil
  · split
    · exact oneLine_nil
    · exact oneLine_cons.2 ⟨by decide, oneLine_digits (Numeral.isDigit_leftpad _ _)⟩

theorem oneLine_number (x : JsNumber) : OneLine x.toString.toList := by
  cases x with
  | fin q =>
      rw [JsNumber.toString, String.toList_ofList]
      exact oneLine_decimalText _
  | nan => decide
  | posInf => decide
  | negInf => decide

/-- The text of a plain number reads back as a numeral if it is finite. -/
theorem readNumeral_toString {x : JsNumber} (hx : IsPlain x) :
    readNumeral x.toString.toList =
      match x with
      | .fin q => some (q, [])
      | _ => none := by
  cases x with
  | fin q =>
      have hread := @JsNumber.readNumeral_decimalText q hx [] fun c hc => by cases hc
      rw [List.append_nil] at hread
      rw [JsNumber.toString, String.toList_ofList, JsNumber.shown_of_terminates hx]
      exact hread
  | nan => rfl
  | posInf => rfl
  | negInf => rfl

/-- Distinct plain numbers have distinct texts. -/
theorem toString_injective {x y : JsNumber} (hx : IsPlain x) (hy : IsPlain y)
    (h : x.toString = y.toString) : x = y := by
  have hread := readNumeral_toString hx
  rw [h, readNumeral_toString hy] at hread
  cases x with
  | fin p =>
      cases y with
      | fin q =>
          simp only [Option.some.injEq, Prod.mk.injEq, and_true] at hread
          rw [hread]
      | _ => simp at hread
  | _ =>
      cases y with
      | fin q => simp at hread
      | _ => first | rfl | exact absurd h (by decide)

/-! ## JSON without a gap -/

theorem oneLine_quoteChar (c : Char) : OneLine (Json.quoteChar c) := by
  have hhex : ∀ n, Json.hexDigit n ≠ '\n' := by
    intro n
    have hlt := Nat.mod_lt n (show 0 < 16 by decide)
    unfold Json.hexDigit
    generalize n % 16 = k at hlt
    revert k
    decide
  unfold Json.quoteChar
  split
  · decide
  split
  · decide
  split
  · decide
  split
  · decide
  split
  · decide
  split
  · decide
  split
  · decide
  split
  · simp [oneLine_cons, hhex]
  · next hne _ _ _ =>
      refine oneLine_cons.2 ⟨?_, oneLine_nil⟩
      rintro rfl
      exact hne rfl

theorem oneLine_quoted (s : String) : OneLine (Json.quoted s) := by
  unfold Json.quoted
  refine oneLine_cons.2 ⟨by decide, oneLine_append.2 ⟨?_, by decide⟩⟩
  intro hmem
  obtain ⟨c, -, hc⟩ := List.mem_flatMap.1 hmem
  exact oneLine_quoteChar c hc

theorem oneLine_bracketed {opening closing : Char} (hopening : opening ≠ '\n')
    (hclosing : closing ≠ '\n') {ps : List (List Char)} (hps : ∀ p ∈ ps, OneLine p) :
    OneLine (Json.bracketed opening closing [] [] ps) := by
  cases ps with
  | nil => exact oneLine_cons.2 ⟨hopening, oneLine_cons.2 ⟨hclosing, oneLine_nil⟩⟩
  | cons p ps =>
      simp only [Json.bracketed, Json.lineBreak, if_true, List.nil_append]
      refine oneLine_cons.2 ⟨hopening, oneLine_append.2 ⟨hps p (List.mem_cons_self ..),
        oneLine_append.2 ⟨?_, oneLine_cons.2 ⟨hclosing, oneLine_nil⟩⟩⟩⟩
      intro hmem
      obtain ⟨q, hq, hc⟩ := List.mem_flatMap.1 hmem
      rcases List.mem_cons.1 hc with hc | hc
      · exact absurd hc (by decide)
      · exact hps q (List.mem_cons_of_mem _ hq) hc

mutual

/-- Serialised without a gap, a value is one line. -/
theorem oneLine_render : ∀ v : JsValue, OneLine (Json.render [] [] v)
  | .bool true => by decide
  | .bool false => by decide
  | .num (.fin q) => oneLine_decimalText _
  | .num .nan | .num .posInf | .num .negInf => by decide
  | .str s => oneLine_quoted s
  | .arr items => oneLine_bracketed (by decide) (by decide) (oneLine_renderItems items)
  | .obj members => oneLine_bracketed (by decide) (by decide) (oneLine_renderMembers members)
  | .undefined | .null | .function | .symbol => by decide

theorem oneLine_renderItems : ∀ vs : List JsValue,
    ∀ p ∈ Json.renderItems [] [] vs, OneLine p
  | [] => by simp [Json.renderItems]
  | v :: vs => by
      intro p hp
      rcases List.mem_cons.1 hp with rfl | hp
      · exact oneLine_render v
      · exact oneLine_renderItems vs p hp

theorem oneLine_renderMembers : ∀ ms : List (String × JsValue),
    ∀ p ∈ Json.renderMembers [] [] ms, OneLine p
  | [] => by simp [Json.renderMembers]
  | (k, v) :: ms => by
      intro p hp
      unfold Json.renderMembers at hp
      split at hp
      · exact oneLine_renderMembers ms p hp
      · rcases List.mem_cons.1 hp with rfl | hp
        · exact oneLine_append.2 ⟨oneLine_quoted k,
            oneLine_cons.2 ⟨by decide, oneLine_render v⟩⟩
        · exact oneLine_renderMembers ms p hp

end

/-! ## Text between brackets -/

/-- Text that starts and ends with the given characters. -/
def Framed (opening closing : Char) (cs : List Char) : Prop :=
  ∃ mid, cs = opening :: (mid ++ [closing])

theorem framed_bracketed (opening closing : Char) (gap indent : List Char)
    (ps : List (List Char)) :
    Framed opening closing (Json.bracketed opening closing gap indent ps) := by
  cases ps with
  | nil => exact ⟨[], rfl⟩
  | cons p ps =>
      refine ⟨Json.lineBreak gap (indent ++ gap) ++ (p ++
        (ps.flatMap (fun q => ',' :: (Json.lineBreak gap (indent ++ gap) ++ q)) ++
          Json.lineBreak gap indent)), ?_⟩
      simp only [Json.bracketed, List.append_assoc]

theorem framed_intercalate {opening closing : Char} {sep : List Char}
    {parts : List (List Char)} (h : ∀ p ∈ parts, Framed opening closing p)
    (hne : parts ≠ []) : Framed opening closing (sep.intercalate parts) := by
  induction parts with
  | nil => exact absurd rfl hne
  | cons p ps ih =>
      obtain ⟨mid, hp⟩ := h p (List.mem_cons_self ..)
      cases ps with
      | nil =>
          rw [List.intercalate_singleton]
          exact ⟨mid, hp⟩
      | cons q qs =>
          obtain ⟨mid', hrest⟩ := ih (fun r hr => h r (List.mem_cons_of_mem _ hr)) (by simp)
          rw [List.intercalate_cons_cons, hrest, hp]
          exact ⟨mid ++ [closing] ++ sep ++ opening :: mid', by simp⟩

/-- Text between characters that are no white space is not trimmed. -/
theorem trim_framed {opening closing : Char} (hopening : isSpace opening = false)
    (hclosing : isSpace closing = false) {s : String}
    (h : Framed opening closing s.toList) : trim s = s := by
  obtain ⟨mid, hs⟩ := h
  have hfront : s.toList.dropWhile isSpace = s.toList := by
    rw [hs, List.dropWhile_cons_of_neg (by simp [hopening])]
  have hback : s.toList.reverse.dropWhile isSpace = s.toList.reverse := by
    rw [hs, List.reverse_cons, List.reverse_append, List.reverse_singleton, List.append_assoc,
      List.singleton_append, List.dropWhile_cons_of_neg (by simp [hclosing])]
  rw [trim, hfront, hback, List.reverse_reverse, String.ofList_toList]

end AgentWorth.Js
