import AgentWorth.Erc7710.Terms

/-!
# Which texts are read as hexadecimal

`hexToBytes` hands each pair of code units to `parseInt`, which takes what a
number starts with: white space and a sign before a digit, and a digit before
anything.  Hexadecimal text is read as the number it spells, and the texts that
are read besides are exactly those whose pairs `parseInt` all takes.
-/

namespace AgentWorth.Erc7710

open AgentWorth.Js AgentWorth.Lib

/-- The code units behind an optional `0x`. -/
def hexBody (s : String) : List Nat :=
  match utf16 s with
  | 48 :: 120 :: us => us
  | us => us

/-- Only hexadecimal digits behind an optional `0x`. -/
def IsHex (s : String) : Prop := ∀ u ∈ hexBody s, (hexDigit u).isSome

instance (s : String) : Decidable (IsHex s) := inferInstanceAs (Decidable (∀ u ∈ _, _))

/-- The number the digits spell. -/
def hexValue (s : String) : Nat := ofHexDigits ((hexBody s).filterMap hexDigit)

/-- A pair of code units that `parseInt` makes a number of. -/
def TakenPair (a b : Nat) : Prop :=
  ((hexDigit a).isSome ∧ ¬ (a = 48 ∧ (b = 120 ∨ b = 88))) ∨
    (isSpaceUnit a = true ∨ a = 43 ∨ a = 45) ∧ (hexDigit b).isSome

/-- Every pair of a text of even length is taken. -/
def Taken : List Nat → Prop
  | a :: b :: us => TakenPair a b ∧ Taken us
  | _ => True

/-- What `hexToBytes` is for, on one text. -/
structure ReadsHexExactly (s : String) : Prop where
  accepts : (∃ bytes, hexToBytes s = .ok bytes) ↔ IsHex s
  value : ∀ bytes, hexToBytes s = .ok bytes → bigEndian bytes = hexValue s
  address : ∀ a, normalizeAddress s = .ok a → IsHex s

theorem hexUnits_eq (s : String) :
    hexUnits s = if (hexBody s).length % 2 ≠ 0 then 48 :: hexBody s else hexBody s := rfl

/-! ## One pair -/

theorem parseHexMagnitude_singleton (b : Nat) :
    (parseHexMagnitude [b]).isSome = (hexDigit b).isSome := by
  cases hb : hexDigit b <;> simp [parseHexMagnitude, hexRun, hb]

theorem parseHexMagnitude_pair (a b : Nat) :
    (parseHexMagnitude [a, b]).isSome ↔
      (hexDigit a).isSome ∧ ¬ (a = 48 ∧ (b = 120 ∨ b = 88)) := by
  by_cases hzero : a = 48
  · subst hzero
    have hdigit : hexDigit 48 = some 0 := rfl
    by_cases hb : b = 120 ∨ b = 88 <;> simp [parseHexMagnitude, hexRun, hdigit, hb]
  · cases ha : hexDigit a <;> simp [parseHexMagnitude, hexRun, ha, hzero]

/-- A sign keeps a number a number. -/
private theorem isSome_bind_some (o : Option Nat) (f : Nat → Int) :
    (o.bind fun n => some (f n)).isSome = o.isSome := by
  cases o <;> rfl

/-- **What `parseInt` takes of a pair.** -/
theorem parseIntHex_pair_isSome (a b : Nat) : (parseIntHex [a, b]).isSome ↔ TakenPair a b := by
  have hspace : ∀ u, (isSpaceUnit u = true ∨ u = 43 ∨ u = 45) → hexDigit u = none := by
    intro u hu
    by_contra hdigit
    obtain ⟨d, hd⟩ := Option.ne_none_iff_exists'.1 hdigit
    obtain ⟨-, hs, hplus, hminus, -⟩ := hexDigit_cases hd
    rcases hu with hu | rfl | rfl
    · rw [hs] at hu
      cases hu
    · exact hplus rfl
    · exact hminus rfl
  unfold parseIntHex TakenPair
  by_cases ha : isSpaceUnit a = true
  · rw [List.dropWhile_cons_of_pos ha]
    by_cases hb : isSpaceUnit b = true
    · rw [List.dropWhile_cons_of_pos hb]
      simp [parseHexMagnitude, hexRun, hspace a (.inl ha), hspace b (.inl hb)]
    · rw [List.dropWhile_cons_of_neg hb]
      by_cases hminus : b = 45
      · subst hminus
        simp [parseHexMagnitude, hexRun, hspace a (.inl ha), hspace 45 (.inr (.inr rfl))]
      · by_cases hplus : b = 43
        · subst hplus
          simp [parseHexMagnitude, hexRun, hspace a (.inl ha), hspace 43 (.inr (.inl rfl))]
        · simp [hminus, hplus, isSome_bind_some, parseHexMagnitude_singleton, hspace a (.inl ha),
            ha]
  · rw [List.dropWhile_cons_of_neg ha]
    by_cases hminus : a = 45
    · subst hminus
      simp [isSome_bind_some, parseHexMagnitude_singleton, hspace 45 (.inr (.inr rfl))]
    · by_cases hplus : a = 43
      · subst hplus
        simp [isSome_bind_some, parseHexMagnitude_singleton, hspace 43 (.inr (.inl rfl))]
      · simp [hminus, hplus, ha, isSome_bind_some, parseHexMagnitude_pair]

/-! ## The text -/

theorem hexPairs_isSome : ∀ us : List Nat, (hexPairs us).isSome ↔ Taken us
  | [] => by simp [hexPairs, Taken]
  | [_] => by simp [hexPairs, Taken]
  | a :: b :: us => by
      have hpair := parseIntHex_pair_isSome a b
      have ih := hexPairs_isSome us
      rw [Taken, ← hpair, ← ih, hexPairs]
      cases parseIntHex [a, b] <;> cases hexPairs us <;> simp

theorem hexToBytes_ok_iff (s : String) :
    (∃ bytes, hexToBytes s = .ok bytes) ↔ Taken (hexUnits s) := by
  rw [← hexPairs_isSome]
  unfold hexToBytes
  cases hexPairs (hexUnits s) <;> simp

/-- Digits have their values. -/
theorem hexText_filterMap {us : List Nat} (h : ∀ u ∈ us, (hexDigit u).isSome) :
    HexText us (us.filterMap hexDigit) := by
  induction us with
  | nil => rfl
  | cons u us ih =>
      obtain ⟨d, hd⟩ := Option.isSome_iff_exists.1 (h u List.mem_cons_self)
      have hrest := ih fun v hv => h v (List.mem_cons_of_mem _ hv)
      unfold HexText at hrest ⊢
      rw [List.filterMap_cons_some hd, List.map_cons, List.map_cons, hd, hrest]

/-- Hexadecimal text is read, as the number it spells. -/
theorem hexToBytes_of_isHex {s : String} (h : IsHex s) :
    ∃ bytes, hexToBytes s = .ok bytes ∧ bigEndian bytes = hexValue s ∧
      2 * bytes.length = (hexUnits s).length := by
  have htext := hexText_filterMap h
  obtain ⟨ds, hds, hvalue, heven⟩ : ∃ ds, HexText (hexUnits s) ds ∧ ofHexDigits ds = hexValue s ∧
      (hexUnits s).length % 2 = 0 := by
    rw [hexUnits_eq]
    by_cases hodd : (hexBody s).length % 2 ≠ 0
    · rw [if_pos hodd]
      refine ⟨0 :: (hexBody s).filterMap hexDigit, ?_, rfl, by rw [List.length_cons]; omega⟩
      unfold HexText at htext ⊢
      rw [List.map_cons, List.map_cons, htext]
      rfl
    · rw [if_neg hodd]
      exact ⟨_, htext, rfl, not_not.1 hodd⟩
  obtain ⟨bytes, hpairs, hlen, hbytes⟩ := hexPairs_of_hexText _ ds hds heven
  refine ⟨bytes, ?_, hbytes.trans hvalue, hlen⟩
  unfold hexToBytes
  rw [hpairs]

/-- **Hexadecimal is read exactly unless every pair of another text is taken.** -/
theorem readsHexExactly_iff (s : String) :
    ReadsHexExactly s ↔ IsHex s ∨ ¬ Taken (hexUnits s) := by
  constructor
  · intro h
    by_cases hhex : IsHex s
    · exact .inl hhex
    · exact .inr fun htaken => hhex (h.accepts.1 ((hexToBytes_ok_iff s).2 htaken))
  · rintro (hhex | hrefused)
    · obtain ⟨bytes, hread, hvalue, -⟩ := hexToBytes_of_isHex hhex
      refine ⟨iff_of_true ⟨bytes, hread⟩ hhex, fun bytes' hread' => ?_, fun _ _ => hhex⟩
      cases hread.symm.trans hread'
      exact hvalue
    · have hnot : ∀ bytes, hexToBytes s ≠ .ok bytes := fun bytes hread =>
        hrefused ((hexToBytes_ok_iff s).1 ⟨bytes, hread⟩)
      refine ⟨iff_of_false (fun ⟨bytes, hread⟩ => hnot bytes hread) fun hhex => ?_,
        fun bytes hread => absurd hread (hnot bytes), fun a ha => ?_⟩
      · obtain ⟨bytes, hread, -⟩ := hexToBytes_of_isHex hhex
        exact hnot bytes hread
      · obtain ⟨bytes, hread, -⟩ := except_bind_eq_ok.1 ha
        exact absurd hread (hnot bytes)

/-- Twenty digits, each before a letter that is none, name another address. -/
theorem letters_name_an_address :
    ¬ IsHex "0x1g1g1g1g1g1g1g1g1g1g1g1g1g1g1g1g1g1g1g1g" ∧
      normalizeAddress "0x1g1g1g1g1g1g1g1g1g1g1g1g1g1g1g1g1g1g1g1g" =
        .ok "0x0101010101010101010101010101010101010101" ∧
      ¬ ReadsHexExactly "0x1g1g1g1g1g1g1g1g1g1g1g1g1g1g1g1g1g1g1g1g" := by
  have hnot : ¬ IsHex "0x1g1g1g1g1g1g1g1g1g1g1g1g1g1g1g1g1g1g1g1g" := by decide +kernel
  have hread : normalizeAddress "0x1g1g1g1g1g1g1g1g1g1g1g1g1g1g1g1g1g1g1g1g" =
      .ok "0x0101010101010101010101010101010101010101" := by decide +kernel
  exact ⟨hnot, hread, fun h => hnot (h.address _ hread)⟩

end AgentWorth.Erc7710
