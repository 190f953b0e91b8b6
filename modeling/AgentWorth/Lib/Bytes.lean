import AgentWorth.Lib.Text
import Mathlib.Algebra.Order.Group.Nat
import Mathlib.Tactic.Ring

/-!
# Byte strings, hexadecimal text and bigints

Byte strings as numbers, most significant byte first, and as hexadecimal text
the way `Number.parseInt(text, 16)` reads it; then the two conversions between
`bigint` and `number`.
-/

namespace AgentWorth.Lib

/-! ## Big-endian numbers -/

/-- The number a byte string spells, most significant byte first. -/
def bigEndian (bytes : List UInt8) : Nat := bytes.foldl (fun v b => v * 256 + b.toNat) 0

theorem foldl_bigEndian (bytes : List UInt8) : ∀ v : Nat,
    bytes.foldl (fun v b => v * 256 + b.toNat) v = v * 256 ^ bytes.length + bigEndian bytes := by
  induction bytes with
  | nil =>
      intro v
      simp [bigEndian]
  | cons b bs ih =>
      intro v
      have hzero := ih (0 * 256 + b.toNat)
      have hstep := ih (v * 256 + b.toNat)
      simp only [List.foldl_cons, List.length_cons, bigEndian] at hzero hstep ⊢
      rw [hstep, hzero]
      ring

theorem bigEndian_append (as bs : List UInt8) :
    bigEndian (as ++ bs) = bigEndian as * 256 ^ bs.length + bigEndian bs := by
  unfold bigEndian
  rw [List.foldl_append]
  exact foldl_bigEndian bs _

@[simp] theorem bigEndian_nil : bigEndian [] = 0 := rfl

theorem bigEndian_cons (b : UInt8) (bs : List UInt8) :
    bigEndian (b :: bs) = b.toNat * 256 ^ bs.length + bigEndian bs := by
  have h := bigEndian_append [b] bs
  rw [List.singleton_append] at h
  rw [h]
  simp [bigEndian]

theorem bigEndian_lt (bytes : List UInt8) : bigEndian bytes < 256 ^ bytes.length := by
  induction bytes with
  | nil => simp
  | cons b bs ih =>
      have hb : b.toNat < 256 := b.toNat_lt
      rw [bigEndian_cons, List.length_cons, pow_succ]
      calc b.toNat * 256 ^ bs.length + bigEndian bs
          < b.toNat * 256 ^ bs.length + 256 ^ bs.length := by omega
        _ = (b.toNat + 1) * 256 ^ bs.length := by ring
        _ ≤ 256 * 256 ^ bs.length := Nat.mul_le_mul_right _ hb
        _ = 256 ^ bs.length * 256 := Nat.mul_comm _ _

@[simp] theorem bigEndian_replicate_zero (k : Nat) (bytes : List UInt8) :
    bigEndian (List.replicate k 0 ++ bytes) = bigEndian bytes := by
  induction k with
  | zero => rfl
  | succ k ih =>
      rw [List.replicate_succ, List.cons_append, bigEndian_cons, ih]
      simp

/-- The low bytes spell the remainder. -/
theorem bigEndian_drop (bytes : List UInt8) (k : Nat) :
    bigEndian (bytes.drop k) = bigEndian bytes % 256 ^ (bytes.length - k) := by
  have hlt := bigEndian_lt (bytes.drop k)
  have happ := bigEndian_append (bytes.take k) (bytes.drop k)
  rw [List.take_append_drop] at happ
  rw [List.length_drop] at hlt happ
  rw [happ, Nat.mul_comm, Nat.mul_add_mod, Nat.mod_eq_of_lt hlt]

end AgentWorth.Lib

namespace AgentWorth.Js

open AgentWorth.Lib

/-! ## Hexadecimal text -/

/-- The value of a code unit as a hexadecimal digit. -/
def hexDigit (u : Nat) : Option Nat :=
  if 48 ≤ u ∧ u ≤ 57 then some (u - 48)
  else if 97 ≤ u ∧ u ≤ 102 then some (u - 87)
  else if 65 ≤ u ∧ u ≤ 70 then some (u - 55)
  else none

/-- The digits a text starts with. -/
def hexRun : List Nat → List Nat
  | [] => []
  | u :: us =>
      match hexDigit u with
      | some d => d :: hexRun us
      | none => []

def ofHexDigits (ds : List Nat) : Nat := ds.foldl (fun v d => v * 16 + d) 0

def isSpaceUnit (u : Nat) : Bool := isSpace (Char.ofNat u)

/-- What follows the sign: an optional `0x`, then the longest run of digits. -/
def parseHexMagnitude (us : List Nat) : Option Nat :=
  let body := match us with
    | 48 :: x :: rest => if x = 120 ∨ x = 88 then rest else us
    | _ => us
  if hexRun body = [] then none else some (ofHexDigits (hexRun body))

/-- `Number.parseInt(text, 16)` on the code units of a text; `none` is `NaN`. -/
def parseIntHex (text : List Nat) : Option Int :=
  match text.dropWhile isSpaceUnit with
  | 45 :: us => (parseHexMagnitude us).map fun n => -(n : Int)
  | 43 :: us => (parseHexMagnitude us).map fun n => (n : Int)
  | us => (parseHexMagnitude us).map fun n => (n : Int)

/-- What a number stores into a byte. -/
def toUint8 (v : Int) : UInt8 := UInt8.ofNat (v % 256).toNat

/-- The bytes of a text read two code units at a time. -/
def hexPairs : List Nat → Option (List UInt8)
  | a :: b :: us =>
      (parseIntHex [a, b]).bind fun v => (hexPairs us).map fun bytes => toUint8 v :: bytes
  | _ => some []

/-- `b.toString(16).padStart(2, "0")`. -/
def byteHex (b : UInt8) : List Char := (Nat.toDigits 16 b.toNat).leftpad 2 '0'

/-- The digits of a run of digits are its values. -/
def HexText (us ds : List Nat) : Prop := us.map hexDigit = ds.map some

theorem hexDigit_cases {u d : Nat} (h : hexDigit u = some d) :
    d < 16 ∧ isSpaceUnit u = false ∧ u ≠ 43 ∧ u ≠ 45 ∧ u ≠ 120 ∧ u ≠ 88 := by
  have hu : u ≤ 102 := by
    by_contra hlt
    have hnone : hexDigit u = none := by
      unfold hexDigit
      rw [if_neg (by omega), if_neg (by omega), if_neg (by omega)]
    rw [hnone] at h
    cases h
  have hall : ∀ u ≤ 102, ∀ d ∈ hexDigit u,
      d < 16 ∧ isSpaceUnit u = false ∧ u ≠ 43 ∧ u ≠ 45 ∧ u ≠ 120 ∧ u ≠ 88 := by decide
  exact hall u hu d h

theorem parseIntHex_pair {a b x y : Nat} (ha : hexDigit a = some x) (hb : hexDigit b = some y) :
    parseIntHex [a, b] = some ((x * 16 + y : Nat) : Int) := by
  obtain ⟨-, hspace, hplus, hminus, -, -⟩ := hexDigit_cases ha
  obtain ⟨-, -, -, -, hx, hX⟩ := hexDigit_cases hb
  have hbody : parseHexMagnitude [a, b] = some (x * 16 + y) := by
    unfold parseHexMagnitude
    have hstrip : (match [a, b] with
      | 48 :: x :: rest => if x = 120 ∨ x = 88 then rest else [a, b]
      | _ => [a, b]) = [a, b] := by
      split
      · next h =>
          cases h
          exact if_neg (by omega)
      · rfl
    simp [hstrip, hexRun, ha, hb, ofHexDigits]
  unfold parseIntHex
  rw [List.dropWhile_cons_of_neg (by simp [hspace])]
  split
  · next h =>
      cases h
      exact absurd rfl hminus
  · next h =>
      cases h
      exact absurd rfl hplus
  · rw [hbody]
    rfl

theorem toUint8_natCast {n : Nat} (h : n < 256) : (toUint8 n).toNat = n := by
  unfold toUint8
  rw [show ((n : Int) % 256).toNat = n by omega]
  simp [Nat.mod_eq_of_lt h]

theorem foldl_ofHexDigits (ds : List Nat) : ∀ v : Nat,
    ds.foldl (fun v d => v * 16 + d) v = v * 16 ^ ds.length + ofHexDigits ds := by
  induction ds with
  | nil =>
      intro v
      simp [ofHexDigits]
  | cons d ds ih =>
      intro v
      have hzero := ih (0 * 16 + d)
      have hstep := ih (v * 16 + d)
      simp only [List.foldl_cons, List.length_cons, ofHexDigits] at hzero hstep ⊢
      rw [hstep, hzero]
      ring

theorem ofHexDigits_append (as bs : List Nat) :
    ofHexDigits (as ++ bs) = ofHexDigits as * 16 ^ bs.length + ofHexDigits bs := by
  unfold ofHexDigits
  rw [List.foldl_append]
  exact foldl_ofHexDigits bs _

@[simp] theorem ofHexDigits_zero_cons (ds : List Nat) :
    ofHexDigits (0 :: ds) = ofHexDigits ds := rfl

/-- A run of digits read in pairs spells the same number in bytes. -/
theorem hexPairs_of_hexText : ∀ (us ds : List Nat), HexText us ds → us.length % 2 = 0 →
    ∃ bytes, hexPairs us = some bytes ∧ 2 * bytes.length = us.length ∧
      bigEndian bytes = ofHexDigits ds
  | [], ds, h, _ => by
      have hds : ds = [] := List.map_eq_nil_iff.1 h.symm
      exact ⟨[], rfl, rfl, by rw [hds]; rfl⟩
  | [_], _, _, hlen => by simp at hlen
  | a :: b :: us, ds, h, hlen => by
      obtain ⟨x, ds, rfl⟩ : ∃ x ds', ds = x :: ds' := by
        cases ds with
        | nil => simp [HexText] at h
        | cons x ds' => exact ⟨x, ds', rfl⟩
      obtain ⟨y, ds, rfl⟩ : ∃ y ds', ds = y :: ds' := by
        cases ds with
        | nil => simp [HexText] at h
        | cons y ds' => exact ⟨y, ds', rfl⟩
      simp only [HexText, List.map_cons, List.cons.injEq] at h
      obtain ⟨ha, hb, hrest⟩ := h
      have hx := (hexDigit_cases ha).1
      have hy := (hexDigit_cases hb).1
      have heven : us.length % 2 = 0 := by
        simp only [List.length_cons] at hlen
        omega
      obtain ⟨bytes, hpairs, hbytes, hvalue⟩ := hexPairs_of_hexText us ds hrest heven
      have hds : ds.length = us.length := by
        have := congrArg List.length hrest
        simpa using this.symm
      refine ⟨toUint8 ((x * 16 + y : Nat) : Int) :: bytes, ?_, ?_, ?_⟩
      · rw [hexPairs, parseIntHex_pair ha hb, hpairs]
        rfl
      · simp only [List.length_cons]
        omega
      · have hsplit := ofHexDigits_append [x, y] ds
        have hpow : (16 : Nat) ^ ds.length = 256 ^ bytes.length := by
          rw [hds, ← hbytes, pow_mul]
          norm_num
        rw [bigEndian_cons, toUint8_natCast (by omega), hvalue]
        rw [show x :: y :: ds = [x, y] ++ ds from rfl, hsplit, hpow]
        simp [ofHexDigits]

theorem hexDigit_digitChar : ∀ d < 16, hexDigit (Nat.digitChar d).toNat = some d := by decide

theorem digitChar_lower : ∀ d < 16,
    (Nat.digitChar d).toLower = Nat.digitChar d ∧ (Nat.digitChar d).toNat < 0x80 := by decide

/-- Every character is a lower-case hexadecimal digit. -/
def LowerHex (cs : List Char) : Prop := ∀ c ∈ cs, ∃ d < 16, c = Nat.digitChar d

theorem lowerHex_toDigits (n : Nat) : LowerHex (Nat.toDigits 16 n) := by
  induction n using Nat.strongRecOn with
  | ind n ih =>
      rcases Nat.lt_or_ge n 16 with hlt | hge
      · rw [Nat.toDigits_of_lt_base hlt]
        intro c hc
        exact ⟨n, hlt, List.mem_singleton.1 hc⟩
      · have hsplit := Nat.toDigits_append_toDigits (b := 16) (n := n / 16) (d := n % 16)
          (by decide) (by omega) (Nat.mod_lt _ (by decide))
        rw [Nat.div_add_mod] at hsplit
        rw [← hsplit, Nat.toDigits_of_lt_base (Nat.mod_lt _ (by decide))]
        intro c hc
        rcases List.mem_append.1 hc with h | h
        · exact ih (n / 16) (by omega) c h
        · exact ⟨n % 16, Nat.mod_lt _ (by decide), List.mem_singleton.1 h⟩

theorem hexText_of_lowerHex {cs : List Char} (h : LowerHex cs) :
    ∃ ds, HexText (cs.map Char.toNat) ds := by
  induction cs with
  | nil => exact ⟨[], rfl⟩
  | cons c cs ih =>
      obtain ⟨d, hd, rfl⟩ := h c List.mem_cons_self
      obtain ⟨ds, hds⟩ := ih fun c hc => h c (List.mem_cons_of_mem _ hc)
      refine ⟨d :: ds, ?_⟩
      simp only [HexText, List.map_cons, hexDigit_digitChar d hd, List.cons.injEq, true_and]
      exact hds

/-- The hexadecimal text of a number spells it. -/
theorem hexText_toDigits (n : Nat) :
    ∃ ds, HexText ((Nat.toDigits 16 n).map Char.toNat) ds ∧ ofHexDigits ds = n := by
  induction n using Nat.strongRecOn with
  | ind n ih =>
      rcases Nat.lt_or_ge n 16 with hlt | hge
      · refine ⟨[n], ?_, by simp [ofHexDigits]⟩
        rw [Nat.toDigits_of_lt_base hlt]
        simp [HexText, hexDigit_digitChar n hlt]
      · have hmod : n % 16 < 16 := Nat.mod_lt _ (by decide)
        have hsplit := Nat.toDigits_append_toDigits (b := 16) (n := n / 16) (d := n % 16)
          (by decide) (by omega) hmod
        rw [Nat.div_add_mod, Nat.toDigits_of_lt_base hmod] at hsplit
        obtain ⟨ds, hds, hvalue⟩ := ih (n / 16) (by omega)
        refine ⟨ds ++ [n % 16], ?_, ?_⟩
        · rw [← hsplit]
          simp only [HexText, List.map_append, List.map_cons, List.map_nil,
            hexDigit_digitChar _ hmod]
          rw [show List.map hexDigit (List.map Char.toNat (Nat.toDigits 16 (n / 16))) =
            List.map some ds from hds]
        · rw [ofHexDigits_append, hvalue]
          simp only [ofHexDigits, List.foldl_cons, List.foldl_nil, List.length_singleton]
          omega

/-- Two digits for each byte. -/
theorem byteHex_eq (b : UInt8) :
    byteHex b = [Nat.digitChar (b.toNat / 16), Nat.digitChar (b.toNat % 16)] := by
  have hb : b.toNat < 256 := b.toNat_lt
  unfold byteHex
  rcases Nat.lt_or_ge b.toNat 16 with hlt | hge
  · rw [Nat.toDigits_of_lt_base hlt, Nat.div_eq_of_lt hlt, Nat.mod_eq_of_lt hlt]
    rfl
  · have hsplit := Nat.toDigits_append_toDigits (b := 16) (n := b.toNat / 16)
      (d := b.toNat % 16) (by decide) (by omega) (Nat.mod_lt _ (by decide))
    rw [Nat.div_add_mod, Nat.toDigits_of_lt_base (by omega : b.toNat / 16 < 16),
      Nat.toDigits_of_lt_base (Nat.mod_lt _ (by decide) : b.toNat % 16 < 16)] at hsplit
    rw [← hsplit]
    rfl

theorem lowerHex_byteHex (bytes : List UInt8) : LowerHex (bytes.flatMap byteHex) := by
  intro c hc
  obtain ⟨b, -, hb⟩ := List.mem_flatMap.1 hc
  have hlt : b.toNat < 256 := b.toNat_lt
  rw [byteHex_eq, List.mem_cons, List.mem_singleton] at hb
  rcases hb with rfl | rfl
  · exact ⟨b.toNat / 16, by omega, rfl⟩
  · exact ⟨b.toNat % 16, by omega, rfl⟩

/-- The text of a byte string reads back as it. -/
theorem hexPairs_byteHex (bytes : List UInt8) :
    hexPairs ((bytes.flatMap byteHex).map Char.toNat) = some bytes := by
  induction bytes with
  | nil => rfl
  | cons b bs ih =>
      have hlt : b.toNat < 256 := b.toNat_lt
      have hpair := parseIntHex_pair (hexDigit_digitChar (b.toNat / 16) (by omega))
        (hexDigit_digitChar (b.toNat % 16) (by omega))
      rw [Nat.div_add_mod'] at hpair
      have hbyte : toUint8 (b.toNat : Int) = b := UInt8.toNat_inj.1 (toUint8_natCast hlt)
      rw [List.flatMap_cons, byteHex_eq, List.map_append]
      simp only [List.map_cons, List.map_nil, List.cons_append, List.nil_append, hexPairs, hpair,
        ih, Option.bind_some, Option.map_some, hbyte]

/-- ASCII text has one code unit a character. -/
theorem utf16_ofList_ascii {cs : List Char} (h : ∀ c ∈ cs, c.toNat < 0x80) :
    utf16 (String.ofList cs) = cs.map Char.toNat := by
  unfold utf16
  rw [String.toList_ofList]
  induction cs with
  | nil => rfl
  | cons c cs ih =>
      rw [List.flatMap_cons, charUnits_of_ascii (h c List.mem_cons_self),
        ih fun c hc => h c (List.mem_cons_of_mem _ hc)]
      rfl

theorem ascii_of_lowerHex {cs : List Char} (h : LowerHex cs) : ∀ c ∈ cs, c.toNat < 0x80 := by
  intro c hc
  obtain ⟨d, hd, rfl⟩ := h c hc
  exact (digitChar_lower d hd).2

/-! ## Bigints -/

/-- `BigInt(x)`: only an integer has one. -/
def toBigInt (x : JsNumber) : Except String Int :=
  match x with
  | .fin q =>
      if q.den = 1 then .ok q.num
      else .error ("The number " ++ toString x ++
        " cannot be converted to a BigInt because it is not an integer")
  | _ => .error ("The number " ++ toString x ++
      " cannot be converted to a BigInt because it is not an integer")

/-- `Number(n)` of a bigint that is not negative: the nearest double, ties to
the even one. -/
def ofBigInt (n : Nat) : JsNumber :=
  let e := n.log2 - 52
  let q := n / 2 ^ e
  let r := n % 2 ^ e
  let rounded := if 2 ^ e < 2 * r ∨ (2 ^ e = 2 * r ∧ q % 2 = 1) then q + 1 else q
  if (rounded * 2 ^ e).log2 < 1024 then ((rounded * 2 ^ e : Nat) : JsNumber) else .posInf

theorem ofBigInt_of_lt {n : Nat} (h : n < 2 ^ 53) : ofBigInt n = (n : JsNumber) := by
  have hlog : n.log2 < 53 := by
    rcases Nat.eq_zero_or_pos n with rfl | hpos
    · exact (by decide : Nat.log2 0 < 53)
    · exact (Nat.log2_lt hpos.ne').2 h
  have hexp : n.log2 - 52 = 0 := by omega
  have hround : ¬ (1 < 0 ∨ 1 = 0 ∧ n % 2 = 1) := by omega
  unfold ofBigInt
  simp only [hexp, pow_zero, Nat.div_one, Nat.mod_one, Nat.mul_one, Nat.mul_zero]
  rw [if_neg hround]
  exact if_pos (by omega)

/-- A large integer rounds to a large number. -/
theorem ofBigInt_of_ge {n : Nat} (h : 2 ^ 53 ≤ n) :
    ofBigInt n = .posInf ∨ ∃ m : Nat, 2 ^ 53 ≤ m ∧ ofBigInt n = (m : JsNumber) := by
  have hn : n ≠ 0 := by
    rintro rfl
    exact absurd h (by decide)
  have hlog : 53 ≤ n.log2 := (Nat.le_log2 hn).2 h
  have hlead : 2 ^ 52 ≤ n / 2 ^ (n.log2 - 52) := by
    rw [Nat.le_div_iff_mul_le (by positivity), ← pow_add, Nat.add_sub_cancel' (by omega)]
    exact Nat.log2_self_le hn
  have hpow : 2 ≤ 2 ^ (n.log2 - 52) :=
    le_self_pow₀ (by norm_num) (by omega)
  unfold ofBigInt
  dsimp only
  split_ifs
  · right
    refine ⟨_, ?_, rfl⟩
    exact le_trans (by norm_num) (Nat.mul_le_mul (le_trans hlead (Nat.le_succ _)) hpow)
  · exact .inl rfl
  · right
    exact ⟨_, le_trans (by norm_num) (Nat.mul_le_mul hlead hpow), rfl⟩
  · exact .inl rfl

theorem toBigInt_intCast (n : Int) : toBigInt (.fin (n : ℚ)) = .ok n := by
  simp [toBigInt]

end AgentWorth.Js
