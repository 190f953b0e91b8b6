import AgentWorth.Erc7710.HexText

/-!
# The terms codec

Every encoder succeeds on the values its layout has room for, with the length
that is documented, and its decoder returns them; a word has room for 256 bits.
-/

namespace AgentWorth.Erc7710

open AgentWorth.Js AgentWorth.Lib

/-! ## Addresses -/

/-- `0x` and forty hexadecimal digits, in either case. -/
def AddressText (a : String) : Prop :=
  ∃ cs, a = String.ofList ('0' :: 'x' :: cs) ∧ cs.length = 40 ∧
    ∀ c ∈ cs, (hexDigit c.toNat).isSome

theorem hexDigit_char {c : Char} (h : (hexDigit c.toNat).isSome) :
    c.toNat < 0x80 ∧ ∀ d, hexDigit c.toNat = some d → Nat.digitChar d = c.toLower := by
  have hle : c.toNat ≤ 102 := by
    by_contra hlt
    have hnone : hexDigit c.toNat = none := by
      unfold hexDigit
      rw [if_neg (by omega), if_neg (by omega), if_neg (by omega)]
    rw [hnone] at h
    cases h
  have hall : ∀ u ≤ 102, ∀ d ∈ hexDigit u, Nat.digitChar d = (Char.ofNat u).toLower := by
    decide +kernel
  refine ⟨by omega, fun d hd => ?_⟩
  rw [hall _ hle d hd, Char.ofNat_toNat]

/-- Digits read in pairs are written in lower case. -/
theorem hexPairs_lower : ∀ cs : List Char, cs.length % 2 = 0 →
    (∀ c ∈ cs, (hexDigit c.toNat).isSome) →
    ∃ bytes, hexPairs (cs.map Char.toNat) = some bytes ∧ 2 * bytes.length = cs.length ∧
      bytes.flatMap byteHex = cs.map Char.toLower
  | [], _, _ => ⟨[], rfl, rfl, rfl⟩
  | [_], hlen, _ => by simp at hlen
  | a :: b :: cs, hlen, h => by
      have heven : cs.length % 2 = 0 := by
        simp only [List.length_cons] at hlen
        omega
      obtain ⟨bytes, hpairs, hcount, htext⟩ := hexPairs_lower cs heven fun c hc =>
        h c (List.mem_cons_of_mem _ (List.mem_cons_of_mem _ hc))
      have ha := h a List.mem_cons_self
      have hb := h b (List.mem_cons_of_mem _ List.mem_cons_self)
      obtain ⟨x, hx⟩ := Option.isSome_iff_exists.1 ha
      obtain ⟨y, hy⟩ := Option.isSome_iff_exists.1 hb
      have hxlt := (hexDigit_cases hx).1
      have hylt := (hexDigit_cases hy).1
      have hbyte : (toUint8 ((x * 16 + y : Nat) : Int)).toNat = x * 16 + y :=
        toUint8_natCast (by omega)
      refine ⟨toUint8 ((x * 16 + y : Nat) : Int) :: bytes, ?_, ?_, ?_⟩
      · rw [List.map_cons, List.map_cons, hexPairs, parseIntHex_pair hx hy, hpairs]
        rfl
      · simp only [List.length_cons]
        omega
      · rw [List.flatMap_cons, byteHex_eq, hbyte, htext, show (x * 16 + y) / 16 = x by omega,
          show (x * 16 + y) % 16 = y by omega, (hexDigit_char ha).2 x hx,
          (hexDigit_char hb).2 y hy]
        rfl

/-- **An address is normalised to lower case.** -/
theorem AddressText.bytes {a : String} (h : AddressText a) :
    ∃ bytes, hexToBytes a = .ok bytes ∧ bytes.length = 20 ∧ bytesToHex bytes = toLowerCase a := by
  obtain ⟨cs, rfl, hlen, hdigits⟩ := h
  obtain ⟨bytes, hpairs, hcount, htext⟩ := hexPairs_lower cs (by omega) hdigits
  have hunits : hexUnits (String.ofList ('0' :: 'x' :: cs)) = cs.map Char.toNat := by
    have hascii : ∀ c ∈ '0' :: 'x' :: cs, c.toNat < 0x80 := by
      intro c hc
      rw [List.mem_cons, List.mem_cons] at hc
      rcases hc with rfl | rfl | hc
      · decide
      · decide
      · exact (hexDigit_char (hdigits c hc)).1
    have heven : ¬ (cs.map Char.toNat).length % 2 ≠ 0 := by
      rw [List.length_map, hlen]
      decide
    unfold hexUnits
    rw [utf16_ofList_ascii hascii]
    exact if_neg heven
  refine ⟨bytes, ?_, by omega, ?_⟩
  · unfold hexToBytes
    rw [hunits, hpairs]
  · unfold bytesToHex toLowerCase
    rw [htext, String.toList_ofList]
    rfl

theorem AddressText.normalize {a : String} (h : AddressText a) :
    normalizeAddress a = .ok (toLowerCase a) := by
  obtain ⟨bytes, hread, hlen, htext⟩ := h.bytes
  rw [normalizeAddress_of_bytes hread hlen, htext]

theorem AddressText.isAddress {a : String} (h : AddressText a) : IsAddress (toLowerCase a) :=
  isAddress_of_normalize h.normalize

/-! ## Words -/

/-- A word has room for 256 bits. -/
theorem abiWord_bigint_of_lt {v : Int} (hpos : 0 ≤ v) (hv : v < 2 ^ 256) :
    ∃ word, abiWord (.bigint v) = .ok word := by
  obtain ⟨bytes, hbytes, hshort⟩ : ∃ bytes, abiBytes (.bigint v) = .ok bytes ∧
      bytes.length ≤ 32 := by
    simp only [abiBytes, if_neg (not_lt.2 hpos)]
    by_cases hzero : v = 0
    · exact ⟨[], if_pos hzero, by simp⟩
    · obtain ⟨bytes, hread, -, hlen⟩ := hexToBytes_bigintHex v.toNat
      have hdigits : (Nat.toDigits 16 v.toNat).length ≤ 64 := by
        refine (Nat.length_toDigits_le_iff (by decide) (by decide)).2 ?_
        have hpow : (16 : Nat) ^ 64 = 2 ^ 256 := by decide
        omega
      exact ⟨bytes, by rw [if_neg hzero]; exact hread, by omega⟩
  refine ⟨_, except_bind_eq_ok.2 ⟨bytes, hbytes, if_neg (by omega)⟩⟩

theorem abiWord_bigint_of_ge {v : Int} (hv : 2 ^ 256 ≤ v) :
    ∃ e, abiWord (.bigint v) = .error e := by
  cases hword : abiWord (.bigint v) with
  | error e => exact ⟨e, rfl⟩
  | ok word =>
      obtain ⟨hpos, hlen, hvalue⟩ := abiWord_bigint hword
      have hlt := bigEndian_lt word
      have hpow : (256 : Nat) ^ 32 = 2 ^ 256 := by decide
      rw [hlen, hvalue] at hlt
      omega

/-! ## Numbers -/

theorem requireInteger_natCast {n : Nat} {positive : Bool} (hpos : positive = true → 0 < n)
    (message : String) : requireInteger (n : JsNumber) positive message = .ok () := by
  have hinteger : (n : JsNumber).isInteger = true :=
    JsNumber.isInteger_iff.2 ⟨n, by rw [JsNumber.natCast_eq_fin, Int.cast_natCast]⟩
  unfold requireInteger
  rw [hinteger]
  cases positive with
  | false => simp
  | true =>
      have hn := hpos rfl
      simp only [Bool.not_true, if_true, Bool.false_or]
      exact if_neg (by simpa using hn.ne')

theorem requireNonNegative_ok {v : Int} (h : 0 ≤ v) (message : String) :
    requireNonNegative v message = .ok () := if_neg (not_lt.2 h)

/-- A safe integer fits a word. -/
theorem toWord_natCast {n : Nat} (hn : n < 2 ^ 53) :
    ∃ word, (toBigInt (n : JsNumber)).bind bigintToBytes32 = .ok word := by
  rw [toBigInt_natCast]
  exact abiWord_bigint_of_lt (by omega) (by omega)

/-! ## The six layouts -/

theorem timestamp_codec {before after : Nat} (hbefore : before < 2 ^ 53)
    (hafter : after < 2 ^ 53) : ∃ terms, encodeTimestampTerms before after = .ok terms ∧
      terms.length = 32 ∧ decodeTimestampTerms (bytesToHex terms) =
        .ok { afterUnix := (after : JsNumber), beforeUnix := (before : JsNumber) } := by
  obtain ⟨afterWord, ha⟩ := toWord_natCast hafter
  obtain ⟨beforeWord, hb⟩ := toWord_natCast hbefore
  have hencode : encodeTimestampTerms before after =
      .ok (afterWord.drop 16 ++ beforeWord.drop 16) :=
    except_bind_eq_ok.2 ⟨(), requireInteger_natCast (by simp) _,
      except_bind_eq_ok.2 ⟨(), requireInteger_natCast (by simp) _,
        except_bind_eq_ok.2 ⟨_, ha, except_bind_eq_ok.2 ⟨_, hb, rfl⟩⟩⟩⟩
  refine ⟨_, hencode, ?_, ?_⟩
  · rw [List.length_append, List.length_drop, List.length_drop, (abiWord_natCast ha).1,
      (abiWord_natCast hb).1]
  · rw [decodeTimestampTerms_encode (by omega) (by omega) hencode, ofBigInt_of_lt hbefore,
      ofBigInt_of_lt hafter]

theorem nativeAmount_codec {amount : Int} (hpos : 0 ≤ amount) (hlt : amount < 2 ^ 256) :
    ∃ terms, encodeNativeAmountTerms amount = .ok terms ∧ terms.length = 32 ∧
      decodeNativeAmountTerms (bytesToHex terms) = .ok amount.toNat := by
  obtain ⟨word, hword⟩ := abiWord_bigint_of_lt hpos hlt
  have hencode : encodeNativeAmountTerms amount = .ok word :=
    except_bind_eq_ok.2 ⟨(), requireNonNegative_ok hpos _, hword⟩
  exact ⟨word, hencode, (abiWord_bigint hword).2.1, decodeNativeAmountTerms_encode hencode⟩

theorem erc20Amount_codec {token : String} {amount : Int} (htoken : AddressText token)
    (hpos : 0 ≤ amount) (hlt : amount < 2 ^ 256) :
    ∃ terms, encodeErc20AmountTerms token amount = .ok terms ∧ terms.length = 64 ∧
      decodeErc20AmountTerms (bytesToHex terms) =
        .ok { token := toLowerCase token, allowance := amount.toNat } := by
  obtain ⟨word, hword⟩ := abiWord_bigint_of_lt hpos hlt
  obtain ⟨bytes, -, hlen, htext⟩ := htoken.bytes
  have haddress : (normalizeAddress token).bind (fun a => abiWord (.hex a)) =
      .ok (List.replicate 12 0 ++ bytes) :=
    except_bind_eq_ok.2 ⟨_, htoken.normalize, by rw [← htext, abiWord_address hlen]⟩
  have hencode : encodeErc20AmountTerms token amount =
      .ok (concatBytes [List.replicate 12 0 ++ bytes, word]) :=
    except_bind_eq_ok.2 ⟨(), requireNonNegative_ok hpos _,
      except_bind_eq_ok.2 ⟨_, haddress, except_bind_eq_ok.2 ⟨_, hword, rfl⟩⟩⟩
  refine ⟨_, hencode, ?_, ?_⟩
  · simp only [concatBytes, List.flatten_cons, List.flatten_nil, List.length_append,
      List.length_replicate, List.length_nil, hlen, (abiWord_bigint hword).2.1]
  · obtain ⟨address, hnormal, hdecode⟩ := decodeErc20AmountTerms_encode hencode
    rw [htoken.normalize] at hnormal
    rw [hdecode, Except.ok.inj hnormal]

theorem period_codec {token : String} {amount : Int} {duration start : Nat}
    (htoken : AddressText token) (hpos : 0 ≤ amount) (hlt : amount < 2 ^ 256)
    (hduration : 0 < duration) (hduration' : duration < 2 ^ 53) (hstart : start < 2 ^ 53) :
    ∃ terms, encodePeriodTerms token amount duration start = .ok terms ∧ terms.length = 116 ∧
      decodePeriodTerms (bytesToHex terms) =
        .ok { token := toLowerCase token, periodAmount := amount.toNat,
              periodDuration := (duration : JsNumber), startDate := (start : JsNumber) } := by
  obtain ⟨amountWord, ha⟩ := abiWord_bigint_of_lt hpos hlt
  obtain ⟨durationWord, hd⟩ := toWord_natCast hduration'
  obtain ⟨startWord, hs⟩ := toWord_natCast hstart
  obtain ⟨bytes, -, hlen, htext⟩ := htoken.bytes
  have haddress : (normalizeAddress token).bind hexToBytes = .ok bytes :=
    except_bind_eq_ok.2 ⟨_, htoken.normalize, by rw [← htext, hexToBytes_bytesToHex]⟩
  have hencode : encodePeriodTerms token amount duration start =
      .ok (concatBytes [bytes, amountWord, durationWord, startWord]) :=
    except_bind_eq_ok.2 ⟨(), requireNonNegative_ok hpos _,
      except_bind_eq_ok.2 ⟨(), requireInteger_natCast (fun _ => hduration) _,
        except_bind_eq_ok.2 ⟨(), requireInteger_natCast (by simp) _,
          except_bind_eq_ok.2 ⟨_, haddress, except_bind_eq_ok.2 ⟨_, ha,
            except_bind_eq_ok.2 ⟨_, hd, except_bind_eq_ok.2 ⟨_, hs, rfl⟩⟩⟩⟩⟩⟩⟩
  refine ⟨_, hencode, ?_, ?_⟩
  · simp only [concatBytes, List.flatten_cons, List.flatten_nil, List.length_append,
      List.length_nil, hlen, (abiWord_bigint ha).2.1, (abiWord_natCast hd).1,
      (abiWord_natCast hs).1]
  · obtain ⟨address, hnormal, hdecode⟩ := decodePeriodTerms_encode hencode
    rw [htoken.normalize] at hnormal
    rw [hdecode, Except.ok.inj hnormal, ofBigInt_of_lt hduration', ofBigInt_of_lt hstart]

theorem nativePeriod_codec {amount : Int} {duration start : Nat} (hpos : 0 ≤ amount)
    (hlt : amount < 2 ^ 256) (hduration : 0 < duration) (hduration' : duration < 2 ^ 53)
    (hstart : start < 2 ^ 53) :
    ∃ terms, encodeNativePeriodTerms amount duration start = .ok terms ∧ terms.length = 96 ∧
      decodeNativePeriodTerms (bytesToHex terms) =
        .ok { periodAmount := amount.toNat, periodDuration := (duration : JsNumber),
              startDate := (start : JsNumber) } := by
  obtain ⟨amountWord, ha⟩ := abiWord_bigint_of_lt hpos hlt
  obtain ⟨durationWord, hd⟩ := toWord_natCast hduration'
  obtain ⟨startWord, hs⟩ := toWord_natCast hstart
  have hencode : encodeNativePeriodTerms amount duration start =
      .ok (concatBytes [amountWord, durationWord, startWord]) :=
    except_bind_eq_ok.2 ⟨(), requireNonNegative_ok hpos _,
      except_bind_eq_ok.2 ⟨(), requireInteger_natCast (fun _ => hduration) _,
        except_bind_eq_ok.2 ⟨(), requireInteger_natCast (by simp) _,
          except_bind_eq_ok.2 ⟨_, ha, except_bind_eq_ok.2 ⟨_, hd,
            except_bind_eq_ok.2 ⟨_, hs, rfl⟩⟩⟩⟩⟩⟩
  refine ⟨_, hencode, ?_, ?_⟩
  · simp only [concatBytes, List.flatten_cons, List.flatten_nil, List.length_append,
      List.length_nil, (abiWord_bigint ha).2.1, (abiWord_natCast hd).1, (abiWord_natCast hs).1]
  · rw [decodeNativePeriodTerms_encode hencode, ofBigInt_of_lt hduration', ofBigInt_of_lt hstart]

theorem allowedTargets_codec {addresses : List String} (hne : addresses ≠ [])
    (h : ∀ a ∈ addresses, AddressText a) :
    ∃ terms, encodeAllowedTargetsTerms addresses = .ok terms ∧
      terms.length = 20 * addresses.length ∧
      decodeAllowedTargetsTerms (bytesToHex terms) = .ok (addresses.map toLowerCase) := by
  -- an address is encoded as its normal form is
  have hlower : encodeAllowedTargetsTerms (addresses.map toLowerCase) =
      encodeAllowedTargetsTerms addresses := by
    have hsame : ∀ as : List String, (∀ a ∈ as, AddressText a) →
        (as.map toLowerCase).mapM (fun a => (normalizeAddress a).bind hexToBytes) =
          as.mapM fun a => (normalizeAddress a).bind hexToBytes := by
      intro as has
      induction as with
      | nil => rfl
      | cons a as ih =>
          have ha := has a List.mem_cons_self
          rw [List.map_cons, List.mapM_cons, List.mapM_cons, ha.normalize,
            ha.isAddress.normalize, ih fun b hb => has b (List.mem_cons_of_mem _ hb)]
    unfold encodeAllowedTargetsTerms
    rw [hsame addresses h, if_neg hne, if_neg (by rwa [List.map_eq_nil_iff])]
  have haddresses : ∀ b ∈ addresses.map toLowerCase, IsAddress b := by
    intro b hb
    obtain ⟨a, ha, rfl⟩ := List.mem_map.1 hb
    exact (h a ha).isAddress
  obtain ⟨arrays, harrays, hlen⟩ := exists_arrays haddresses
  have hnonempty : arrays ≠ [] := by
    rintro rfl
    rw [List.map_nil, List.map_eq_nil_iff] at harrays
    exact hne harrays
  have hcount : arrays.length = addresses.length := by
    have := congrArg List.length harrays
    rwa [List.length_map, List.length_map, eq_comm] at this
  refine ⟨concatBytes arrays, ?_, ?_, ?_⟩
  · rw [← hlower, harrays, encodeAllowedTargetsTerms_bytesToHex hnonempty hlen]
  · rw [length_concatBytes hlen, hcount]
  · rw [decodeAllowedTargetsTerms_concatBytes hnonempty hlen, harrays]

/-! ## Amounts without room -/

theorem error_of_ne_ok {α : Type} {r : Except String α} (h : ∀ x, r ≠ .ok x) :
    ∃ e, r = .error e := by
  cases r with
  | error e => exact ⟨e, rfl⟩
  | ok x => exact absurd rfl (h x)

theorem bigintToBytes32_ne_ok {amount : Int} (h : 2 ^ 256 ≤ amount) (word : List UInt8) :
    bigintToBytes32 amount ≠ .ok word := by
  intro hword
  obtain ⟨e, he⟩ := abiWord_bigint_of_ge h
  rw [bigintToBytes32, he] at hword
  cases hword

/-- An amount of more than 256 bits is refused by every encoder that takes one. -/
theorem encoders_refuse {amount : Int} (h : 2 ^ 256 ≤ amount) (token : String)
    (duration start : JsNumber) :
    (∃ e, encodeNativeAmountTerms amount = .error e) ∧
      (∃ e, encodeErc20AmountTerms token amount = .error e) ∧
      (∃ e, encodePeriodTerms token amount duration start = .error e) ∧
      ∃ e, encodeNativePeriodTerms amount duration start = .error e := by
  refine ⟨error_of_ne_ok fun terms hok => ?_, error_of_ne_ok fun terms hok => ?_,
    error_of_ne_ok fun terms hok => ?_, error_of_ne_ok fun terms hok => ?_⟩
  · obtain ⟨-, -, hword⟩ := except_bind_eq_ok.1 hok
    exact bigintToBytes32_ne_ok h _ hword
  · obtain ⟨-, -, hok⟩ := except_bind_eq_ok.1 hok
    obtain ⟨tokenBytes, -, hok⟩ := except_bind_eq_ok.1 hok
    obtain ⟨word, hword, -⟩ := except_bind_eq_ok.1 hok
    exact bigintToBytes32_ne_ok h word hword
  · obtain ⟨-, -, hok⟩ := except_bind_eq_ok.1 hok
    obtain ⟨-, -, hok⟩ := except_bind_eq_ok.1 hok
    obtain ⟨-, -, hok⟩ := except_bind_eq_ok.1 hok
    obtain ⟨tokenBytes, -, hok⟩ := except_bind_eq_ok.1 hok
    obtain ⟨word, hword, -⟩ := except_bind_eq_ok.1 hok
    exact bigintToBytes32_ne_ok h word hword
  · obtain ⟨-, -, hok⟩ := except_bind_eq_ok.1 hok
    obtain ⟨-, -, hok⟩ := except_bind_eq_ok.1 hok
    obtain ⟨-, -, hok⟩ := except_bind_eq_ok.1 hok
    obtain ⟨word, hword, -⟩ := except_bind_eq_ok.1 hok
    exact bigintToBytes32_ne_ok h word hword

/-- **The terms codec**: within the room of its layout each encoder writes terms
of the documented length that its decoder reads back, addresses in lower case;
without it, it throws. -/
theorem terms_codec :
    (∀ before after : Nat, before < 2 ^ 53 → after < 2 ^ 53 →
      ∃ terms, encodeTimestampTerms before after = .ok terms ∧ terms.length = 32 ∧
        decodeTimestampTerms (bytesToHex terms) =
          .ok { afterUnix := (after : JsNumber), beforeUnix := (before : JsNumber) }) ∧
    (∀ amount : Int, 0 ≤ amount → amount < 2 ^ 256 →
      ∃ terms, encodeNativeAmountTerms amount = .ok terms ∧ terms.length = 32 ∧
        decodeNativeAmountTerms (bytesToHex terms) = .ok amount.toNat) ∧
    (∀ token, ∀ amount : Int, AddressText token → 0 ≤ amount → amount < 2 ^ 256 →
      ∃ terms, encodeErc20AmountTerms token amount = .ok terms ∧ terms.length = 64 ∧
        decodeErc20AmountTerms (bytesToHex terms) =
          .ok { token := toLowerCase token, allowance := amount.toNat }) ∧
    (∀ token, ∀ amount : Int, ∀ duration start : Nat, AddressText token → 0 ≤ amount →
      amount < 2 ^ 256 → 0 < duration → duration < 2 ^ 53 → start < 2 ^ 53 →
      ∃ terms, encodePeriodTerms token amount duration start = .ok terms ∧
        terms.length = 116 ∧ decodePeriodTerms (bytesToHex terms) =
          .ok { token := toLowerCase token, periodAmount := amount.toNat,
                periodDuration := (duration : JsNumber), startDate := (start : JsNumber) }) ∧
    (∀ amount : Int, ∀ duration start : Nat, 0 ≤ amount → amount < 2 ^ 256 → 0 < duration →
      duration < 2 ^ 53 → start < 2 ^ 53 →
      ∃ terms, encodeNativePeriodTerms amount duration start = .ok terms ∧
        terms.length = 96 ∧ decodeNativePeriodTerms (bytesToHex terms) =
          .ok { periodAmount := amount.toNat, periodDuration := (duration : JsNumber),
                startDate := (start : JsNumber) }) ∧
    (∀ addresses : List String, addresses ≠ [] → (∀ a ∈ addresses, AddressText a) →
      ∃ terms, encodeAllowedTargetsTerms addresses = .ok terms ∧
        terms.length = 20 * addresses.length ∧
        decodeAllowedTargetsTerms (bytesToHex terms) = .ok (addresses.map toLowerCase)) ∧
    ∀ amount : Int, 2 ^ 256 ≤ amount → ∀ token duration start,
      (∃ e, encodeNativeAmountTerms amount = .error e) ∧
        (∃ e, encodeErc20AmountTerms token amount = .error e) ∧
        (∃ e, encodePeriodTerms token amount duration start = .error e) ∧
        ∃ e, encodeNativePeriodTerms amount duration start = .error e := by
  refine ⟨?_, ?_, ?_, ?_, ?_, ?_, ?_⟩
  · exact fun before after hbefore hafter => timestamp_codec hbefore hafter
  · exact fun amount hpos hlt => nativeAmount_codec hpos hlt
  · exact fun token amount htoken hpos hlt => erc20Amount_codec htoken hpos hlt
  · exact fun token amount duration start htoken hpos hlt hduration hduration' hstart =>
      period_codec htoken hpos hlt hduration hduration' hstart
  · exact fun amount duration start hpos hlt hduration hduration' hstart =>
      nativePeriod_codec hpos hlt hduration hduration' hstart
  · exact fun addresses hne h => allowedTargets_codec hne h
  · exact fun amount h token duration start => encoders_refuse h token duration start

/-- A checksummed address and the greatest amount. -/
theorem terms_codec_greatest :
    ∃ terms, encodeErc20AmountTerms "0xA0b86991c6218b36c1d19D4a2e9Eb0cE3606eB48" (2 ^ 256 - 1) =
        .ok terms ∧ terms.length = 64 ∧ decodeErc20AmountTerms (bytesToHex terms) =
          .ok { token := toLowerCase "0xA0b86991c6218b36c1d19D4a2e9Eb0cE3606eB48",
                allowance := (2 ^ 256 - 1 : Int).toNat } :=
  terms_codec.2.2.1 _ _ ⟨"A0b86991c6218b36c1d19D4a2e9Eb0cE3606eB48".toList, rfl, by decide,
    forall_chars (by decide)⟩ (by decide) (by decide)

end AgentWorth.Erc7710
