import AgentWorth.Lib.Bytes
import AgentWorth.Lib.Effect
import AgentWorth.Lib.Strings

/-!
# Caveat terms

The byte helpers of `src/erc7710/index.ts` and the encoders and decoders of
enforcer terms.  What an encoder writes, its decoder reads back: a bigint
exactly, a count of seconds as the double nearest to it.
-/

namespace AgentWorth.Erc7710

open AgentWorth.Js AgentWorth.Lib

/-! ## Bytes and hex -/

/-- The code units of a hex text, without `0x` and of even length. -/
def hexUnits (hex : String) : List Nat :=
  let h := match utf16 hex with
    | 48 :: 120 :: us => us
    | us => us
  if h.length % 2 ≠ 0 then 48 :: h else h

def hexToBytes (hex : String) : Except String (List UInt8) :=
  match hexPairs (hexUnits hex) with
  | some bytes => .ok bytes
  | none => .error ("invalid hex: " ++ hex)

def bytesToHex (bytes : List UInt8) : String :=
  String.ofList ('0' :: 'x' :: bytes.flatMap byteHex)

def concatBytes (arrays : List (List UInt8)) : List UInt8 := arrays.flatten

/-- What `abiWord` pads: hex text or a bigint. -/
inductive AbiValue where
  | hex (text : String)
  | bigint (v : Int)

/-- `v.toString(16)` of a bigint that is not negative, padded to whole bytes. -/
def bigintHex (v : Nat) : String :=
  let h := Nat.toDigits 16 v
  String.ofList (if h.length % 2 ≠ 0 then '0' :: h else h)

/-- The bytes of a value before padding. -/
def abiBytes : AbiValue → Except String (List UInt8)
  | .hex text => hexToBytes text
  | .bigint v =>
      if v < 0 then .error "abiWord: negative values not supported"
      else if v = 0 then .ok []
      else hexToBytes (bigintHex v.toNat)

/-- Left-pad a value to a 32-byte word. -/
def abiWord (value : AbiValue) : Except String (List UInt8) :=
  (abiBytes value).bind fun bytes =>
    if 32 < bytes.length then .error "abiWord: value exceeds 32 bytes"
    else .ok (List.replicate (32 - bytes.length) 0 ++ bytes)

def bigintToBytes32 (v : Int) : Except String (List UInt8) := abiWord (.bigint v)

def normalizeAddress (addr : String) : Except String String :=
  (hexToBytes addr).bind fun bytes =>
    if bytes.length ≠ 20 then .error ("invalid address (expected 20 bytes): " ++ addr)
    else .ok (bytesToHex bytes)

def bytesToBigint (bytes : List UInt8) : Nat := bigEndian bytes

/-- `b.slice(i, j)`. -/
def slice (bytes : List UInt8) (i j : Nat) : List UInt8 := (bytes.take j).drop i

/-! ## Encoders -/

/-- The checks of the encoders on their `number` arguments. -/
def requireInteger (x : JsNumber) (positive : Bool) (message : String) :
    Except String Unit :=
  if !x.isInteger || (if positive then decide (x ≤ 0) else decide (x < 0)) then .error message
  else .ok ()

def requireNonNegative (v : Int) (message : String) : Except String Unit :=
  if v < 0 then .error message else .ok ()

def encodeTimestampTerms (beforeUnix afterUnix : JsNumber) : Except String (List UInt8) := do
  requireInteger beforeUnix false
    "encodeTimestampTerms: beforeUnix must be a non-negative integer"
  requireInteger afterUnix false
    "encodeTimestampTerms: afterUnix must be a non-negative integer"
  let after ← (toBigInt afterUnix).bind fun v => abiWord (.bigint v)
  let before ← (toBigInt beforeUnix).bind fun v => abiWord (.bigint v)
  -- the low 16 bytes of each word
  return after.drop 16 ++ before.drop 16

def encodeNativeAmountTerms (allowance : Int) : Except String (List UInt8) := do
  requireNonNegative allowance "encodeNativeAmountTerms: allowance must be >= 0"
  bigintToBytes32 allowance

def encodeErc20AmountTerms (token : String) (allowance : Int) : Except String (List UInt8) := do
  requireNonNegative allowance "encodeErc20AmountTerms: allowance must be >= 0"
  let tokenWord ← (normalizeAddress token).bind fun a => abiWord (.hex a)
  let amount ← bigintToBytes32 allowance
  return concatBytes [tokenWord, amount]

def encodePeriodTerms (token : String) (periodAmount : Int)
    (periodDuration startDate : JsNumber) : Except String (List UInt8) := do
  requireNonNegative periodAmount "encodePeriodTerms: periodAmount must be >= 0"
  requireInteger periodDuration true
    "encodePeriodTerms: periodDuration must be a positive integer"
  requireInteger startDate false "encodePeriodTerms: startDate must be a non-negative integer"
  let address ← (normalizeAddress token).bind hexToBytes
  let amount ← bigintToBytes32 periodAmount
  let duration ← (toBigInt periodDuration).bind bigintToBytes32
  let start ← (toBigInt startDate).bind bigintToBytes32
  return concatBytes [address, amount, duration, start]

def encodeNativePeriodTerms (periodAmount : Int) (periodDuration startDate : JsNumber) :
    Except String (List UInt8) := do
  requireNonNegative periodAmount "encodeNativePeriodTerms: periodAmount must be >= 0"
  requireInteger periodDuration true
    "encodeNativePeriodTerms: periodDuration must be a positive integer"
  requireInteger startDate false
    "encodeNativePeriodTerms: startDate must be a non-negative integer"
  let amount ← bigintToBytes32 periodAmount
  let duration ← (toBigInt periodDuration).bind bigintToBytes32
  let start ← (toBigInt startDate).bind bigintToBytes32
  return concatBytes [amount, duration, start]

def encodeAllowedTargetsTerms (addresses : List String) : Except String (List UInt8) :=
  if addresses = [] then
    .error "encodeAllowedTargetsTerms: at least one target required"
  else
    (addresses.mapM fun a => (normalizeAddress a).bind hexToBytes).map concatBytes

/-! ## Decoders -/

structure TimestampTerms where
  afterUnix : JsNumber
  beforeUnix : JsNumber
  deriving DecidableEq

structure Erc20AmountTerms where
  token : String
  allowance : Nat
  deriving DecidableEq

structure PeriodTerms where
  token : String
  periodAmount : Nat
  periodDuration : JsNumber
  startDate : JsNumber
  deriving DecidableEq

structure NativePeriodTerms where
  periodAmount : Nat
  periodDuration : JsNumber
  startDate : JsNumber
  deriving DecidableEq

/-- The length check of a decoder. -/
def termsOfLength (name : String) (length : Nat) (terms : String) :
    Except String (List UInt8) :=
  (hexToBytes terms).bind fun b =>
    if b.length ≠ length then
      .error (name ++ ": expected " ++ toString length ++ " bytes, got " ++ toString b.length)
    else .ok b

def decodeTimestampTerms (terms : String) : Except String TimestampTerms :=
  (termsOfLength "decodeTimestampTerms" 32 terms).map fun b =>
    { afterUnix := ofBigInt (bytesToBigint (slice b 0 16))
      beforeUnix := ofBigInt (bytesToBigint (slice b 16 32)) }

def decodeNativeAmountTerms (terms : String) : Except String Nat :=
  (termsOfLength "decodeNativeAmountTerms" 32 terms).map bytesToBigint

def decodeErc20AmountTerms (terms : String) : Except String Erc20AmountTerms :=
  (termsOfLength "decodeErc20AmountTerms" 64 terms).map fun b =>
    { token := bytesToHex (slice b 12 32)
      allowance := bytesToBigint (slice b 32 64) }

def decodePeriodTerms (terms : String) : Except String PeriodTerms :=
  (termsOfLength "decodePeriodTerms" 116 terms).map fun b =>
    { token := bytesToHex (slice b 0 20)
      periodAmount := bytesToBigint (slice b 20 52)
      periodDuration := ofBigInt (bytesToBigint (slice b 52 84))
      startDate := ofBigInt (bytesToBigint (slice b 84 116)) }

def decodeNativePeriodTerms (terms : String) : Except String NativePeriodTerms :=
  (termsOfLength "decodeNativePeriodTerms" 96 terms).map fun b =>
    { periodAmount := bytesToBigint (slice b 0 32)
      periodDuration := ofBigInt (bytesToBigint (slice b 32 64))
      startDate := ofBigInt (bytesToBigint (slice b 64 96)) }

/-- The first `count` addresses of 20 bytes each. -/
def packedAddresses : Nat → List UInt8 → List String
  | 0, _ => []
  | count + 1, b => bytesToHex (b.take 20) :: packedAddresses count (b.drop 20)

def decodeAllowedTargetsTerms (terms : String) : Except String (List String) :=
  (hexToBytes terms).bind fun b =>
    if b.length = 0 ∨ b.length % 20 ≠ 0 then
      .error "decodeAllowedTargetsTerms: length must be a non-zero multiple of 20"
    else .ok (packedAddresses (b.length / 20) b)

/-! ## Hex text reads back -/

theorem utf16_bytesToHex (bytes : List UInt8) :
    utf16 (bytesToHex bytes) = 48 :: 120 :: (bytes.flatMap byteHex).map Char.toNat := by
  have hascii : ∀ c ∈ '0' :: 'x' :: bytes.flatMap byteHex, c.toNat < 0x80 := by
    intro c hc
    rw [List.mem_cons, List.mem_cons] at hc
    rcases hc with rfl | rfl | hc
    · decide
    · decide
    · exact ascii_of_lowerHex (lowerHex_byteHex bytes) c hc
  exact utf16_ofList_ascii hascii

theorem length_flatMap_byteHex (bytes : List UInt8) :
    (bytes.flatMap byteHex).length = 2 * bytes.length := by
  induction bytes with
  | nil => rfl
  | cons b bs ih =>
      rw [List.flatMap_cons, List.length_append, ih, byteHex_eq]
      simp only [List.length_cons, List.length_nil]
      omega

@[simp] theorem hexToBytes_bytesToHex (bytes : List UInt8) :
    hexToBytes (bytesToHex bytes) = .ok bytes := by
  have hunits : hexUnits (bytesToHex bytes) = (bytes.flatMap byteHex).map Char.toNat := by
    unfold hexUnits
    rw [utf16_bytesToHex]
    have hlen := length_flatMap_byteHex bytes
    exact if_neg (by simp only [List.length_map, hlen]; omega)
  unfold hexToBytes
  rw [hunits, hexPairs_byteHex]

@[simp] theorem toLowerCase_bytesToHex (bytes : List UInt8) :
    toLowerCase (bytesToHex bytes) = bytesToHex bytes := by
  unfold toLowerCase bytesToHex
  rw [String.toList_ofList]
  congr 1
  rw [List.map_cons, List.map_cons]
  have hbody : (bytes.flatMap byteHex).map Char.toLower = bytes.flatMap byteHex := by
    refine (List.map_congr_left ?_).trans (List.map_id _)
    intro c hc
    obtain ⟨d, hd, rfl⟩ := lowerHex_byteHex bytes c hc
    exact (digitChar_lower d hd).1
  rw [hbody]
  rfl

/-- Twenty bytes in lower-case hex behind `0x`. -/
def IsAddress (a : String) : Prop := ∃ bytes : List UInt8, bytes.length = 20 ∧ a = bytesToHex bytes

theorem normalizeAddress_of_bytes {addr : String} {bytes : List UInt8}
    (h : hexToBytes addr = .ok bytes) (hlen : bytes.length = 20) :
    normalizeAddress addr = .ok (bytesToHex bytes) := by
  unfold normalizeAddress
  rw [h]
  exact if_neg (not_not.2 hlen)

theorem isAddress_of_normalize {addr a : String} (h : normalizeAddress addr = .ok a) :
    IsAddress a := by
  obtain ⟨bytes, -, hcheck⟩ := except_bind_eq_ok.1 h
  by_cases hlen : bytes.length = 20
  · rw [if_neg (not_not.2 hlen)] at hcheck
    exact ⟨bytes, hlen, (Except.ok.inj hcheck).symm⟩
  · rw [if_pos hlen] at hcheck
    cases hcheck

theorem IsAddress.normalize {a : String} (h : IsAddress a) : normalizeAddress a = .ok a := by
  obtain ⟨bytes, hlen, rfl⟩ := h
  exact normalizeAddress_of_bytes (hexToBytes_bytesToHex bytes) hlen

theorem IsAddress.toLowerCase {a : String} (h : IsAddress a) : toLowerCase a = a := by
  obtain ⟨bytes, -, rfl⟩ := h
  exact toLowerCase_bytesToHex bytes

theorem IsAddress.ne_empty {a : String} (h : IsAddress a) : a ≠ "" := by
  obtain ⟨bytes, -, rfl⟩ := h
  intro hempty
  have := congrArg String.toList hempty
  simp [bytesToHex] at this

/-! ## Words -/

/-- An even run of digits is its own units. -/
theorem hexUnits_of_lowerHex {cs : List Char} (h : LowerHex cs) (hlen : cs.length % 2 = 0) :
    hexUnits (String.ofList cs) = cs.map Char.toNat := by
  have hstrip : (match cs.map Char.toNat with
      | 48 :: 120 :: us => us
      | us => us) = cs.map Char.toNat := by
    split
    · next us hdigits =>
        obtain ⟨ds, hds⟩ := hexText_of_lowerHex h
        rw [hdigits] at hds
        unfold HexText at hds
        rcases ds with - | ⟨d, - | ⟨e, ds⟩⟩
        · cases hds
        · simp at hds
        · simp only [List.map_cons, List.cons.injEq] at hds
          exact absurd rfl (hexDigit_cases hds.2.1).2.2.2.2.1
    · rfl
  unfold hexUnits
  rw [utf16_ofList_ascii (ascii_of_lowerHex h), hstrip]
  exact if_neg (by simp only [List.length_map]; omega)

/-- The hexadecimal text of a bigint spells it in bytes. -/
theorem hexToBytes_bigintHex (v : Nat) :
    ∃ bytes, hexToBytes (bigintHex v) = .ok bytes ∧ bigEndian bytes = v ∧
      2 * bytes.length ≤ (Nat.toDigits 16 v).length + 1 := by
  obtain ⟨ds, hds, hvalue⟩ := hexText_toDigits v
  have hlower := lowerHex_toDigits v
  obtain ⟨cs, es, hcs, hclower, heven, htext, hsame, hlen⟩ : ∃ cs es,
      bigintHex v = String.ofList cs ∧ LowerHex cs ∧ cs.length % 2 = 0 ∧
        HexText (cs.map Char.toNat) es ∧ ofHexDigits es = v ∧
          cs.length ≤ (Nat.toDigits 16 v).length + 1 := by
    by_cases hodd : (Nat.toDigits 16 v).length % 2 ≠ 0
    · refine ⟨'0' :: Nat.toDigits 16 v, 0 :: ds, ?_, ?_, ?_, ?_, hvalue, le_refl _⟩
      · simp only [bigintHex, if_pos hodd]
      · intro c hc
        rcases List.mem_cons.1 hc with rfl | hc
        · exact ⟨0, by decide, rfl⟩
        · exact hlower c hc
      · simp only [List.length_cons]
        omega
      · unfold HexText at hds ⊢
        rw [List.map_cons, List.map_cons, hds]
        rfl
    · refine ⟨Nat.toDigits 16 v, ds, ?_, hlower, not_not.1 hodd, hds, hvalue,
        Nat.le_succ _⟩
      simp only [bigintHex, if_neg hodd]
  obtain ⟨bytes, hpairs, hcount, hbytes⟩ := hexPairs_of_hexText _ es htext (by
    simpa only [List.length_map] using heven)
  rw [List.length_map] at hcount
  refine ⟨bytes, ?_, hbytes.trans hsame, hcount.trans_le hlen⟩
  unfold hexToBytes
  rw [hcs, hexUnits_of_lowerHex hclower heven, hpairs]

/-- What a word that was written is: 32 bytes that spell the value. -/
theorem abiWord_bigint {v : Int} {word : List UInt8} (h : abiWord (.bigint v) = .ok word) :
    0 ≤ v ∧ word.length = 32 ∧ bigEndian word = v.toNat := by
  obtain ⟨bytes, hbytes, hpad⟩ := except_bind_eq_ok.1 h
  have hvalue : 0 ≤ v ∧ bigEndian bytes = v.toNat := by
    simp only [abiBytes] at hbytes
    by_cases hneg : v < 0
    · rw [if_pos hneg] at hbytes
      cases hbytes
    · rw [if_neg hneg] at hbytes
      refine ⟨not_lt.1 hneg, ?_⟩
      by_cases hzero : v = 0
      · rw [if_pos hzero] at hbytes
        cases hbytes
        rw [hzero]
        rfl
      · rw [if_neg hzero] at hbytes
        obtain ⟨bytes', hread, hspell, -⟩ := hexToBytes_bigintHex (v := v.toNat)
        cases hbytes.symm.trans hread
        exact hspell
  by_cases hlong : 32 < bytes.length
  · rw [if_pos hlong] at hpad
    cases hpad
  · rw [if_neg hlong] at hpad
    cases hpad
    refine ⟨hvalue.1, ?_, ?_⟩
    · rw [List.length_append, List.length_replicate]
      omega
    · rw [bigEndian_replicate_zero, hvalue.2]

theorem abiWord_address {bytes : List UInt8} (hlen : bytes.length = 20) :
    abiWord (.hex (bytesToHex bytes)) = .ok (List.replicate 12 0 ++ bytes) := by
  simp only [abiWord, abiBytes, hexToBytes_bytesToHex, Except.bind, hlen]
  rfl

/-! ## What is written reads back -/

/-- A field between what comes before and after it. -/
theorem slice_field (before field after : List UInt8) {i j : Nat} (hi : before.length = i)
    (hj : field.length + i = j) : slice (before ++ (field ++ after)) i j = field := by
  unfold slice
  rw [← List.append_assoc, List.take_append_of_le_length (by rw [List.length_append]; omega),
    List.take_of_length_le (by rw [List.length_append]; omega), ← hi, List.drop_left]

theorem termsOfLength_bytesToHex {name : String} {length : Nat} {bytes : List UInt8}
    (h : bytes.length = length) : termsOfLength name length (bytesToHex bytes) = .ok bytes := by
  unfold termsOfLength
  rw [hexToBytes_bytesToHex]
  exact if_neg (not_not.2 h)

theorem requireInteger_ok {x : JsNumber} {positive : Bool} {message : String}
    (h : requireInteger x positive message = .ok ()) : ∃ n : Nat, x = (n : JsNumber) := by
  unfold requireInteger at h
  rw [ite_eq_right_iff] at h
  by_cases hbad : (!x.isInteger || (if positive then decide (x ≤ 0) else decide (x < 0))) = true
  · cases h hbad
  · rw [Bool.not_eq_true, Bool.or_eq_false_iff, Bool.not_eq_false'] at hbad
    obtain ⟨n, hn⟩ := JsNumber.isInteger_iff.1 hbad.1
    have hnonneg : 0 ≤ n := by
      by_contra hneg
      have hlt : ((n : Int) : ℚ) < 0 := by exact_mod_cast not_le.1 hneg
      have hsign := hbad.2
      rw [hn] at hsign
      cases positive <;> simp [hlt, hlt.le] at hsign
    refine ⟨n.toNat, ?_⟩
    rw [hn, JsNumber.natCast_eq_fin]
    congr 1
    exact_mod_cast (Int.toNat_of_nonneg hnonneg).symm

theorem toBigInt_natCast (n : Nat) : toBigInt (n : JsNumber) = .ok (n : Int) := by
  rw [JsNumber.natCast_eq_fin]
  exact_mod_cast toBigInt_intCast (n : Int)

/-- A word read back as a number. -/
theorem abiWord_natCast {n : Nat} {word : List UInt8}
    (h : (toBigInt (n : JsNumber)).bind bigintToBytes32 = .ok word) :
    word.length = 32 ∧ bigEndian word = n := by
  rw [toBigInt_natCast] at h
  obtain ⟨-, hlen, hvalue⟩ := abiWord_bigint h
  exact ⟨hlen, hvalue⟩

theorem decodeTimestampTerms_encode {before after : Nat} {terms : List UInt8}
    (hbefore : before < 2 ^ 128) (hafter : after < 2 ^ 128)
    (h : encodeTimestampTerms before after = .ok terms) :
    decodeTimestampTerms (bytesToHex terms) =
      .ok { afterUnix := ofBigInt after, beforeUnix := ofBigInt before } := by
  obtain ⟨-, -, h⟩ := except_bind_eq_ok.1 h
  obtain ⟨-, -, h⟩ := except_bind_eq_ok.1 h
  obtain ⟨afterWord, ha, h⟩ := except_bind_eq_ok.1 h
  obtain ⟨beforeWord, hb, h⟩ := except_bind_eq_ok.1 h
  cases h
  obtain ⟨halen, havalue⟩ := abiWord_natCast ha
  obtain ⟨hblen, hbvalue⟩ := abiWord_natCast hb
  have hlow : ∀ {word : List UInt8} {n : Nat}, word.length = 32 → bigEndian word = n →
      n < 2 ^ 128 → (word.drop 16).length = 16 ∧ bigEndian (word.drop 16) = n := by
    intro word n hlen hvalue hn
    refine ⟨by rw [List.length_drop, hlen], ?_⟩
    rw [bigEndian_drop, hlen, hvalue]
    exact Nat.mod_eq_of_lt hn
  obtain ⟨halen', havalue'⟩ := hlow halen havalue hafter
  obtain ⟨hblen', hbvalue'⟩ := hlow hblen hbvalue hbefore
  have hfirst := slice_field [] (afterWord.drop 16) (beforeWord.drop 16) List.length_nil
    (show _ = 16 by omega)
  have hsecond := slice_field (afterWord.drop 16) (beforeWord.drop 16) [] halen' rfl
  rw [List.nil_append] at hfirst
  rw [List.append_nil, hblen'] at hsecond
  unfold decodeTimestampTerms
  rw [termsOfLength_bytesToHex (by rw [List.length_append, halen', hblen'])]
  simp only [Except.map, bytesToBigint, hfirst, hsecond, havalue', hbvalue']

theorem decodeNativeAmountTerms_encode {allowance : Int} {terms : List UInt8}
    (h : encodeNativeAmountTerms allowance = .ok terms) :
    decodeNativeAmountTerms (bytesToHex terms) = .ok allowance.toNat := by
  obtain ⟨-, -, h⟩ := except_bind_eq_ok.1 h
  obtain ⟨-, hlen, hvalue⟩ := abiWord_bigint h
  unfold decodeNativeAmountTerms
  rw [termsOfLength_bytesToHex hlen]
  simp only [Except.map, bytesToBigint, hvalue]

theorem decodeErc20AmountTerms_encode {token : String} {allowance : Int} {terms : List UInt8}
    (h : encodeErc20AmountTerms token allowance = .ok terms) :
    ∃ address, normalizeAddress token = .ok address ∧
      decodeErc20AmountTerms (bytesToHex terms) =
        .ok { token := address, allowance := allowance.toNat } := by
  obtain ⟨-, -, h⟩ := except_bind_eq_ok.1 h
  obtain ⟨tokenWord, htoken, h⟩ := except_bind_eq_ok.1 h
  obtain ⟨amount, hamount, h⟩ := except_bind_eq_ok.1 h
  cases h
  obtain ⟨address, haddress, hword⟩ := except_bind_eq_ok.1 htoken
  obtain ⟨bytes, hbytes, rfl⟩ := isAddress_of_normalize haddress
  rw [abiWord_address hbytes] at hword
  cases hword
  obtain ⟨-, hlen, hvalue⟩ := abiWord_bigint hamount
  refine ⟨_, haddress, ?_⟩
  have hconcat : concatBytes [List.replicate 12 0 ++ bytes, amount] =
      List.replicate 12 0 ++ (bytes ++ amount) := by simp [concatBytes]
  have hfirst := slice_field (List.replicate 12 0) bytes amount List.length_replicate
    (show bytes.length + 12 = 32 by omega)
  have hsecond := slice_field (List.replicate 12 0 ++ bytes) amount []
    (show _ = 32 by rw [List.length_append, List.length_replicate, hbytes])
    (show amount.length + 32 = 64 by omega)
  rw [List.append_nil, List.append_assoc] at hsecond
  unfold decodeErc20AmountTerms
  rw [hconcat, termsOfLength_bytesToHex (by
    rw [List.length_append, List.length_append, List.length_replicate, hbytes, hlen])]
  simp only [Except.map, bytesToBigint, hfirst, hsecond, hvalue]

/-- The three words of a period cap. -/
theorem period_words {periodAmount : Int} {duration start : Nat}
    {amountWord durationWord startWord : List UInt8}
    (hamount : bigintToBytes32 periodAmount = .ok amountWord)
    (hduration : (toBigInt (duration : JsNumber)).bind bigintToBytes32 = .ok durationWord)
    (hstart : (toBigInt (start : JsNumber)).bind bigintToBytes32 = .ok startWord) :
    (amountWord.length = 32 ∧ durationWord.length = 32 ∧ startWord.length = 32) ∧
      bytesToBigint amountWord = periodAmount.toNat ∧
      bytesToBigint durationWord = duration ∧ bytesToBigint startWord = start := by
  obtain ⟨-, halen, havalue⟩ := abiWord_bigint hamount
  obtain ⟨hdlen, hdvalue⟩ := abiWord_natCast hduration
  obtain ⟨hslen, hsvalue⟩ := abiWord_natCast hstart
  exact ⟨⟨halen, hdlen, hslen⟩, havalue, hdvalue, hsvalue⟩

theorem decodePeriodTerms_encode {token : String} {periodAmount : Int} {duration start : Nat}
    {terms : List UInt8}
    (h : encodePeriodTerms token periodAmount duration start = .ok terms) :
    ∃ address, normalizeAddress token = .ok address ∧
      decodePeriodTerms (bytesToHex terms) =
        .ok { token := address, periodAmount := periodAmount.toNat,
              periodDuration := ofBigInt duration, startDate := ofBigInt start } := by
  obtain ⟨-, -, h⟩ := except_bind_eq_ok.1 h
  obtain ⟨-, -, h⟩ := except_bind_eq_ok.1 h
  obtain ⟨-, -, h⟩ := except_bind_eq_ok.1 h
  obtain ⟨bytes, htoken, h⟩ := except_bind_eq_ok.1 h
  obtain ⟨amountWord, hamount, h⟩ := except_bind_eq_ok.1 h
  obtain ⟨durationWord, hdword, h⟩ := except_bind_eq_ok.1 h
  obtain ⟨startWord, hsword, h⟩ := except_bind_eq_ok.1 h
  cases h
  obtain ⟨address, haddress, hread⟩ := except_bind_eq_ok.1 htoken
  obtain ⟨bytes', hbytes, rfl⟩ := isAddress_of_normalize haddress
  rw [hexToBytes_bytesToHex] at hread
  cases hread
  obtain ⟨⟨halen, hdlen, hslen⟩, havalue, hdvalue, hsvalue⟩ :=
    period_words hamount hdword hsword
  refine ⟨_, haddress, ?_⟩
  have hconcat : concatBytes [bytes, amountWord, durationWord, startWord] =
      bytes ++ (amountWord ++ (durationWord ++ startWord)) := by simp [concatBytes]
  have hfirst := slice_field [] bytes (amountWord ++ (durationWord ++ startWord)) List.length_nil
    (show bytes.length + 0 = 20 by omega)
  have hsecond := slice_field bytes amountWord (durationWord ++ startWord) hbytes
    (show amountWord.length + 20 = 52 by omega)
  have hthird := slice_field (bytes ++ amountWord) durationWord startWord
    (show _ = 52 by rw [List.length_append, hbytes, halen])
    (show durationWord.length + 52 = 84 by omega)
  have hfourth := slice_field (bytes ++ (amountWord ++ durationWord)) startWord []
    (show _ = 84 by rw [List.length_append, List.length_append, hbytes, halen, hdlen])
    (show startWord.length + 84 = 116 by omega)
  rw [List.nil_append] at hfirst
  rw [List.append_assoc] at hthird
  rw [List.append_nil, List.append_assoc, List.append_assoc] at hfourth
  unfold decodePeriodTerms
  rw [hconcat, termsOfLength_bytesToHex (by
    simp only [List.length_append, hbytes, halen, hdlen, hslen])]
  simp only [Except.map, hfirst, hsecond, hthird, hfourth, havalue, hdvalue, hsvalue]

theorem decodeNativePeriodTerms_encode {periodAmount : Int} {duration start : Nat}
    {terms : List UInt8}
    (h : encodeNativePeriodTerms periodAmount duration start = .ok terms) :
    decodeNativePeriodTerms (bytesToHex terms) =
      .ok { periodAmount := periodAmount.toNat, periodDuration := ofBigInt duration,
            startDate := ofBigInt start } := by
  obtain ⟨-, -, h⟩ := except_bind_eq_ok.1 h
  obtain ⟨-, -, h⟩ := except_bind_eq_ok.1 h
  obtain ⟨-, -, h⟩ := except_bind_eq_ok.1 h
  obtain ⟨amountWord, hamount, h⟩ := except_bind_eq_ok.1 h
  obtain ⟨durationWord, hdword, h⟩ := except_bind_eq_ok.1 h
  obtain ⟨startWord, hsword, h⟩ := except_bind_eq_ok.1 h
  cases h
  obtain ⟨⟨halen, hdlen, hslen⟩, havalue, hdvalue, hsvalue⟩ :=
    period_words hamount hdword hsword
  have hconcat : concatBytes [amountWord, durationWord, startWord] =
      amountWord ++ (durationWord ++ startWord) := by simp [concatBytes]
  have hfirst := slice_field [] amountWord (durationWord ++ startWord) List.length_nil
    (show amountWord.length + 0 = 32 by omega)
  have hsecond := slice_field amountWord durationWord startWord halen
    (show durationWord.length + 32 = 64 by omega)
  have hthird := slice_field (amountWord ++ durationWord) startWord []
    (show _ = 64 by rw [List.length_append, halen, hdlen])
    (show startWord.length + 64 = 96 by omega)
  rw [List.nil_append] at hfirst
  rw [List.append_nil, List.append_assoc] at hthird
  unfold decodeNativePeriodTerms
  rw [hconcat, termsOfLength_bytesToHex (by
    simp only [List.length_append, halen, hdlen, hslen])]
  simp only [Except.map, hfirst, hsecond, hthird, havalue, hdvalue, hsvalue]

theorem packedAddresses_flatten (arrays : List (List UInt8))
    (h : ∀ bytes ∈ arrays, bytes.length = 20) :
    packedAddresses arrays.length arrays.flatten = arrays.map bytesToHex := by
  induction arrays with
  | nil => rfl
  | cons bytes rest ih =>
      have hbytes := h bytes List.mem_cons_self
      have htake : (bytes ++ rest.flatten).take 20 = bytes := by
        rw [← hbytes, List.take_left]
      have hdrop : (bytes ++ rest.flatten).drop 20 = rest.flatten := by
        rw [← hbytes, List.drop_left]
      rw [List.length_cons, List.flatten_cons, packedAddresses, htake, hdrop,
        ih fun b hb => h b (List.mem_cons_of_mem _ hb), List.map_cons]

/-- Normalised addresses are the texts of twenty bytes each. -/
theorem exists_arrays {addresses : List String} (h : ∀ a ∈ addresses, IsAddress a) :
    ∃ arrays : List (List UInt8), addresses = arrays.map bytesToHex ∧
      ∀ bytes ∈ arrays, bytes.length = 20 := by
  induction addresses with
  | nil => exact ⟨[], rfl, by simp⟩
  | cons a rest ih =>
      obtain ⟨bytes, hbytes, rfl⟩ := h a List.mem_cons_self
      obtain ⟨arrays, rfl, harrays⟩ := ih fun b hb => h b (List.mem_cons_of_mem _ hb)
      refine ⟨bytes :: arrays, rfl, ?_⟩
      intro b hb
      rcases List.mem_cons.1 hb with rfl | hb
      · exact hbytes
      · exact harrays b hb

theorem length_concatBytes {arrays : List (List UInt8)}
    (h : ∀ bytes ∈ arrays, bytes.length = 20) :
    (concatBytes arrays).length = 20 * arrays.length := by
  induction arrays with
  | nil => rfl
  | cons bytes rest ih =>
      have hbytes := h bytes List.mem_cons_self
      have hrest := ih fun b hb => h b (List.mem_cons_of_mem _ hb)
      unfold concatBytes at hrest ⊢
      rw [List.flatten_cons, List.length_append, List.length_cons, hrest, hbytes]
      omega

theorem encodeAllowedTargetsTerms_bytesToHex {arrays : List (List UInt8)} (hne : arrays ≠ [])
    (h : ∀ bytes ∈ arrays, bytes.length = 20) :
    encodeAllowedTargetsTerms (arrays.map bytesToHex) = .ok (concatBytes arrays) := by
  have hread : (arrays.map bytesToHex).mapM (fun a => (normalizeAddress a).bind hexToBytes) =
      (.ok arrays : Except String (List (List UInt8))) := by
    clear hne
    induction arrays with
    | nil => rfl
    | cons bytes rest ih =>
        have hbytes := h bytes List.mem_cons_self
        have hnorm := normalizeAddress_of_bytes (hexToBytes_bytesToHex bytes) hbytes
        rw [List.map_cons, List.mapM_cons, hnorm, ih fun b hb => h b (List.mem_cons_of_mem _ hb)]
        simp only [Except.bind, hexToBytes_bytesToHex]
        rfl
  unfold encodeAllowedTargetsTerms
  rw [if_neg (by simpa using hne), hread]
  rfl

theorem decodeAllowedTargetsTerms_concatBytes {arrays : List (List UInt8)} (hne : arrays ≠ [])
    (h : ∀ bytes ∈ arrays, bytes.length = 20) :
    decodeAllowedTargetsTerms (bytesToHex (concatBytes arrays)) =
      .ok (arrays.map bytesToHex) := by
  have hpos : 0 < arrays.length := List.length_pos_of_ne_nil hne
  unfold decodeAllowedTargetsTerms
  rw [hexToBytes_bytesToHex]
  simp only [Except.bind, length_concatBytes h]
  rw [if_neg (by omega), Nat.mul_div_cancel_left _ (by decide)]
  exact congrArg Except.ok (packedAddresses_flatten arrays h)

/-- Normalised addresses come back as they are, in their order. -/
theorem decodeAllowedTargetsTerms_encode {addresses : List String} {terms : List UInt8}
    (haddresses : ∀ a ∈ addresses, IsAddress a)
    (h : encodeAllowedTargetsTerms addresses = .ok terms) :
    decodeAllowedTargetsTerms (bytesToHex terms) = .ok addresses := by
  obtain ⟨arrays, rfl, harrays⟩ := exists_arrays haddresses
  have hne : arrays ≠ [] := by
    rintro rfl
    cases h
  rw [encodeAllowedTargetsTerms_bytesToHex hne harrays] at h
  cases h
  exact decodeAllowedTargetsTerms_concatBytes hne harrays

end AgentWorth.Erc7710
