import AgentWorth.Identity.SignatureBase
import AgentWorth.Lib.Decimal

/-!
# What `parseSignatureInput` reads

The parser splits outside quotes and parentheses three levels deep: the
dictionary at commas, an inner list at spaces, its parameters at semicolons.
`Unsplit` says of a text that such a split runs over it in one piece; a serialized
dictionary is put together from texts that do, so it comes apart again.
-/

namespace AgentWorth

open AgentWorth.Js

/-! ## Splitting -/

/-- The splitter runs over the text without a cut: what it is inside of before
and after. -/
def Unsplit (sep : Char) (depth : Int) (inQuotes : Bool) (text : List Char) (depth' : Int)
    (inQuotes' : Bool) : Prop :=
  ∀ cur rest, splitTopLevelFrom sep depth inQuotes cur (text ++ rest) =
    splitTopLevelFrom sep depth' inQuotes' (cur ++ text) rest

section Unsplit

variable {sep : Char} {depth depth' depth'' : Int} {q q' q'' : Bool} {text text' : List Char}

theorem Unsplit.nil : Unsplit sep depth q [] depth q := by
  intro cur rest
  rw [List.nil_append, List.append_nil]

theorem Unsplit.append (h : Unsplit sep depth q text depth' q')
    (h' : Unsplit sep depth' q' text' depth'' q'') :
    Unsplit sep depth q (text ++ text') depth'' q'' := by
  intro cur rest
  rw [List.append_assoc, h, h', List.append_assoc]

/-- A step of the splitter outside quotes. -/
theorem splitTopLevelFrom_cons {c : Char} (hquote : c ≠ '"') (cur rest : List Char) :
    splitTopLevelFrom sep depth false cur (c :: rest) =
      if depthAfter depth c = 0 ∧ c = sep then
        cur :: splitTopLevelFrom sep (depthAfter depth c) false [] rest
      else splitTopLevelFrom sep (depthAfter depth c) false (cur ++ [c]) rest := by
  have hdepth : (if c ≠ '"' ∧ false = false then depthAfter depth c else depth) =
      depthAfter depth c := if_pos ⟨hquote, rfl⟩
  rw [splitTopLevelFrom, if_neg hquote, hdepth]
  simp only [true_and]

/-- A character that is no mark of the splitter. -/
theorem Unsplit.plain {c : Char} (hquote : c ≠ '"') (hopen : c ≠ '(') (hclose : c ≠ ')')
    (hsep : c ≠ sep ∨ depth ≠ 0) : Unsplit sep depth false [c] depth false := by
  intro cur rest
  have hdepth : depthAfter depth c = depth := by
    rw [depthAfter, if_neg hopen, if_neg hclose]
  have hcut : ¬ (depth = 0 ∧ c = sep) := fun h => hsep.elim (· h.2) (· h.1)
  rw [List.singleton_append, splitTopLevelFrom_cons hquote, hdepth, if_neg hcut]

/-- Inside quotes nothing but a quote counts. -/
theorem Unsplit.inside {c : Char} (hquote : c ≠ '"') : Unsplit sep depth true [c] depth true := by
  intro cur rest
  simp [splitTopLevelFrom, hquote]

theorem Unsplit.quote (hsep : sep ≠ '"') : Unsplit sep depth q ['"'] depth (!q) := by
  intro cur rest
  have hcut : ¬ '"' = sep := fun h => hsep h.symm
  simp [splitTopLevelFrom, hcut]

theorem Unsplit.open (hsep : sep ≠ '(') : Unsplit sep depth false ['('] (depth + 1) false := by
  intro cur rest
  have hcut : ¬ '(' = sep := fun h => hsep h.symm
  simp [splitTopLevelFrom, depthAfter, hcut]

theorem Unsplit.close (hsep : sep ≠ ')') : Unsplit sep (depth + 1) false [')'] depth false := by
  intro cur rest
  have hcut : ¬ ')' = sep := fun h => hsep h.symm
  simp [splitTopLevelFrom, depthAfter, hcut]

theorem Unsplit.of_chars (h : ∀ c ∈ text, Unsplit sep depth q [c] depth q) :
    Unsplit sep depth q text depth q := by
  induction text with
  | nil => exact .nil
  | cons c cs ih =>
      exact (h c List.mem_cons_self).append (ih fun d hd => h d (List.mem_cons_of_mem _ hd))

/-- A quoted text, whatever it contains. -/
theorem Unsplit.quoted (hsep : sep ≠ '"') (htext : '"' ∉ text) :
    Unsplit sep depth false ('"' :: (text ++ ['"'])) depth false := by
  have hinside : Unsplit sep depth true text depth true :=
    .of_chars fun c hc => .inside fun hquote => htext (hquote ▸ hc)
  exact (Unsplit.quote hsep).append (hinside.append (Unsplit.quote hsep))

/-- Kept texts with a kept character between them. -/
theorem Unsplit.intercalate {c : Char} {parts : List (List Char)}
    (hc : Unsplit sep depth false [c] depth false)
    (hparts : ∀ part ∈ parts, Unsplit sep depth false part depth false) :
    Unsplit sep depth false ([c].intercalate parts) depth false := by
  induction parts with
  | nil => exact .nil
  | cons part parts ih =>
      have hpart := hparts part List.mem_cons_self
      cases parts with
      | nil => rwa [List.intercalate_singleton]
      | cons part' parts =>
          rw [List.intercalate_cons_cons]
          exact (hpart.append hc).append (ih fun p hp => hparts p (List.mem_cons_of_mem _ hp))

/-- **Kept texts joined by the separator come apart again.** -/
theorem splitTopLevel_intercalate (hquote : sep ≠ '"') (hopen : sep ≠ '(') (hclose : sep ≠ ')')
    {parts : List (List Char)} (hne : parts ≠ [])
    (hparts : ∀ part ∈ parts, Unsplit sep 0 false part 0 false) :
    splitTopLevel ([sep].intercalate parts) sep = parts := by
  unfold splitTopLevel
  induction parts with
  | nil => exact absurd rfl hne
  | cons part parts ih =>
      have hpart := hparts part List.mem_cons_self
      cases parts with
      | nil =>
          have hend := hpart [] []
          rw [List.append_nil, List.nil_append] at hend
          rw [List.intercalate_singleton, hend, splitTopLevelFrom]
      | cons part' parts =>
          have hrest := ih (List.cons_ne_nil _ _) fun p hp =>
            hparts p (List.mem_cons_of_mem _ hp)
          have hdepth : depthAfter 0 sep = 0 := by
            rw [depthAfter, if_neg hopen, if_neg hclose]
          rw [List.intercalate_cons_cons, List.append_assoc, hpart, List.nil_append,
            List.singleton_append, splitTopLevelFrom_cons hquote, hdepth, if_pos ⟨rfl, rfl⟩, hrest]

theorem mem_splitTopLevelFrom {cur input entry : List Char} {c : Char}
    (h : entry ∈ splitTopLevelFrom sep depth q cur input) (hc : c ∈ entry) :
    c ∈ cur ∨ c ∈ input := by
  induction input generalizing depth q cur with
  | nil =>
      rw [splitTopLevelFrom, List.mem_singleton] at h
      exact .inl (h ▸ hc)
  | cons d input ih =>
      rw [splitTopLevelFrom] at h
      generalize (if d = '"' then !q else q) = quoted at h
      generalize (if d ≠ '"' ∧ q = false then depthAfter depth d else depth) = deeper at h
      split at h
      · rcases List.mem_cons.1 h with rfl | h
        · exact .inl hc
        · rcases ih h with hcur | hinput
          · cases hcur
          · exact .inr (List.mem_cons_of_mem _ hinput)
      · rcases ih h with hcur | hinput
        · rcases List.mem_append.1 hcur with hcur | hd
          · exact .inl hcur
          · exact .inr (List.mem_singleton.1 hd ▸ List.mem_cons_self)
        · exact .inr (List.mem_cons_of_mem _ hinput)

end Unsplit

/-! ## What is read of an entry -/

/-- The parameters leave the components and the text alone. -/
theorem foldl_readParam (texts : List (List Char)) (params : ParsedSignatureParams) :
    (texts.foldl readParam params).components = params.components ∧
      (texts.foldl readParam params).raw = params.raw := by
  induction texts generalizing params with
  | nil => exact ⟨rfl, rfl⟩
  | cons text texts ih =>
      obtain ⟨hcomponents, hraw⟩ := ih (readParam params text)
      have hstep : (readParam params text).components = params.components ∧
          (readParam params text).raw = params.raw := by
        unfold readParam
        split
        · exact ⟨rfl, rfl⟩
        · dsimp only
          split_ifs <;> exact ⟨rfl, rfl⟩
      exact ⟨hcomponents.trans hstep.1, hraw.trans hstep.2⟩

theorem readEntry_raw {rest : List Char} {params : ParsedSignatureParams}
    (h : readEntry rest = some params) : params.raw = rest := by
  unfold readEntry at h
  split at h
  · cases h
    exact (foldl_readParam _ _).2
  · cases h

/-- What is parsed is the reading of its own text, which is a part of the
header. -/
theorem readEntry_of_parse {value name : String} {label : Option String}
    {params : ParsedSignatureParams}
    (h : parseSignatureInput value label = some (name, params)) :
    readEntry params.raw = some params ∧ ∀ c ∈ params.raw, c ∈ value.toList := by
  have hentries : ∀ entries : List (List Char),
      firstEntryOf label entries = some (name, params) →
      readEntry params.raw = some params ∧
        ∃ entry ∈ entries, ∀ c ∈ params.raw, c ∈ entry := by
    intro entries
    induction entries with
    | nil =>
        intro hfirst
        cases hfirst
    | cons entry entries ih =>
        intro hfirst
        have hlater : firstEntryOf label entries = some (name, params) →
            readEntry params.raw = some params ∧
              ∃ entry' ∈ entry :: entries, ∀ c ∈ params.raw, c ∈ entry' := by
          intro hrest
          obtain ⟨hread, entry', hentry', hmem⟩ := ih hrest
          exact ⟨hread, entry', List.mem_cons_of_mem _ hentry', hmem⟩
        unfold firstEntryOf at hfirst
        split at hfirst
        · exact hlater hfirst
        · next before after hcut =>
            dsimp only at hfirst
            split at hfirst
            · split at hfirst
              · next params' hread =>
                  cases hfirst
                  have hraw := readEntry_raw hread
                  refine ⟨by rw [hraw]; exact hread, entry, List.mem_cons_self, ?_⟩
                  intro c hc
                  rw [hraw] at hc
                  rw [(cut_eq_some hcut).1]
                  exact List.mem_append_right _ (List.mem_cons_of_mem _ (mem_trimChars hc))
              · exact hlater hfirst
            · exact hlater hfirst
  obtain ⟨hread, entry, hentry, hmem⟩ := hentries _ h
  refine ⟨hread, fun c hc => ?_⟩
  rcases mem_splitTopLevelFrom hentry (hmem c hc) with hnil | hinput
  · cases hnil
  · exact hinput

/-! ## Serialized dictionaries -/

/-- A character of a header token. -/
def isTokenChar (c : Char) : Bool := c.isAlphanum || "!#$%&'*+-.^_`|~".toList.contains c

/-- A labelled entry of a `Signature-Input` dictionary. -/
structure SignatureEntry where
  label : List Char
  /-- component names, without their quotes -/
  components : List (List Char)
  created : Option ℤ
  expires : Option ℤ
  keyid : Option (List Char)
  alg : Option (List Char)
  label_ne : label ≠ []
  label_token : ∀ c ∈ label, isTokenChar c = true
  component_chars : ∀ name ∈ components, ∀ c ∈ name, c = '@' ∨ isTokenChar c = true
  created_number : ∀ n ∈ created, IsNumber n
  expires_number : ∀ n ∈ expires, IsNumber n
  keyid_plain : ∀ v ∈ keyid, '"' ∉ v
  alg_plain : ∀ v ∈ alg, '"' ∉ v

/-- A text in quotes. -/
def quotedText (v : List Char) : List Char := '"' :: (v ++ ['"'])

/-- A parameter, if it is there. -/
def paramText {α : Type} (key : String) (text : α → List Char) (value : Option α) :
    List (List Char) := value.toList.map fun v => key.toList ++ '=' :: text v

def SignatureEntry.paramTexts (e : SignatureEntry) : List (List Char) :=
  paramText "created" intText e.created ++ (paramText "expires" intText e.expires ++
    (paramText "keyid" quotedText e.keyid ++ paramText "alg" quotedText e.alg))

/-- `(components);created=..;expires=..;keyid=..;alg=..`. -/
def SignatureEntry.valueText (e : SignatureEntry) : List Char :=
  '(' :: ([' '].intercalate (e.components.map quotedText) ++
    ')' :: e.paramTexts.flatMap fun p => ';' :: p)

def SignatureEntry.text (e : SignatureEntry) : List Char := e.label ++ '=' :: e.valueText

def serialize (entries : List SignatureEntry) : String :=
  String.ofList ([','].intercalate (entries.map SignatureEntry.text))

/-- What an entry is parsed to. -/
def SignatureEntry.params (e : SignatureEntry) : ParsedSignatureParams where
  components := e.components.map quotedText
  created := e.created.map fun n : ℤ => .fin (n : ℚ)
  expires := e.expires.map fun n : ℤ => .fin (n : ℚ)
  keyid := e.keyid.map String.ofList
  alg := e.alg.map String.ofList
  raw := e.valueText

theorem isSpace_of_isAlphanum {c : Char} (h : c.isAlphanum = true) : isSpace c = false := by
  have hrange : (48 ≤ c.toNat ∧ c.toNat ≤ 57) ∨ (65 ≤ c.toNat ∧ c.toNat ≤ 90) ∨
      (97 ≤ c.toNat ∧ c.toNat ≤ 122) := by
    rcases Bool.or_eq_true_iff.1 (show (c.isAlpha || c.isDigit) = true from h) with h | hdigit
    · rcases Bool.or_eq_true_iff.1 (show (c.isUpper || c.isLower) = true from h) with h | hlower
      · exact .inr (.inl (of_decide_eq_true h))
      · obtain ⟨hlo, hhi⟩ := Bool.and_eq_true_iff.1 hlower
        exact .inr (.inr ⟨of_decide_eq_true hlo, of_decide_eq_true hhi⟩)
    · obtain ⟨hlo, hhi⟩ := Bool.and_eq_true_iff.1 hdigit
      exact .inl ⟨of_decide_eq_true hlo, of_decide_eq_true hhi⟩
  simp only [isSpace, Bool.or_eq_false_iff, Bool.and_eq_false_iff, beq_eq_false_iff_ne,
    decide_eq_false_iff_not]
  omega

theorem isSpace_of_isTokenChar {c : Char} (h : isTokenChar c = true) : isSpace c = false := by
  rcases Bool.or_eq_true_iff.1 h with h | h
  · exact isSpace_of_isAlphanum h
  · have hall : ∀ d ∈ "!#$%&'*+-.^_`|~".toList, isSpace d = false :=
      forall_chars (by decide)
    exact hall c (List.contains_iff_mem.1 h)

/-- A token has no mark of the syntax around it. -/
theorem isTokenChar_ne {c d : Char} (h : isTokenChar c = true)
    (hd : d ∈ ['"', '(', ')', '=', ',', ';', ' ']) : c ≠ d := by
  have hbad : ∀ d ∈ ['"', '(', ')', '=', ',', ';', ' '], isTokenChar d = false :=
    forall_chars (by decide)
  rintro rfl
  rw [hbad c hd] at h
  cases h

/-- Nor has a component name. -/
theorem componentChar_ne {c d : Char} (h : c = '@' ∨ isTokenChar c = true)
    (hd : d ∈ ['"', '(', ')', '=', ',', ';', ' ']) : c ≠ d := by
  rcases h with rfl | h
  · rintro rfl
    exact absurd hd (by decide)
  · exact isTokenChar_ne h hd

theorem unsplit_token {sep : Char} {text : List Char} (h : ∀ c ∈ text, isTokenChar c = true)
    (hsep : sep ∈ [',', ';', ' ']) : Unsplit sep 0 false text 0 false := by
  refine .of_chars fun c hc => .plain ?_ ?_ ?_ (.inl ?_)
  · exact isTokenChar_ne (h c hc) (by simp)
  · exact isTokenChar_ne (h c hc) (by simp)
  · exact isTokenChar_ne (h c hc) (by simp)
  · exact isTokenChar_ne (h c hc) (by simp at hsep ⊢; tauto)

/-! ### Parameters -/

/-- What a parameter is set to: a token or a quoted text. -/
def ParamValue (v : List Char) : Prop :=
  v ≠ [] ∧ (∀ c ∈ v, isTokenChar c = true) ∨ ∃ u, v = quotedText u ∧ '"' ∉ u

theorem getLast?_quotedText (u : List Char) : (quotedText u).getLast? = some '"' := by
  rw [quotedText, ← List.cons_append, List.getLast?_concat]

theorem trimChars_quotedText (u : List Char) : trimChars (quotedText u) = quotedText u := by
  refine trimChars_eq_self ?_ ?_
  · intro c hc
    cases hc
    decide
  · intro c hc
    rw [getLast?_quotedText] at hc
    cases hc
    decide

@[simp] theorem unquote_quotedText (u : List Char) : unquote (quotedText u) = u := by
  unfold unquote
  rw [if_pos ⟨rfl, getLast?_quotedText u⟩]
  simp [quotedText]

theorem trimChars_token {text : List Char} (h : ∀ c ∈ text, isTokenChar c = true) :
    trimChars text = text :=
  trimChars_eq_self (fun c hc => isSpace_of_isTokenChar (h c (List.mem_of_mem_head? hc)))
    fun c hc => isSpace_of_isTokenChar (h c (List.mem_of_mem_getLast? hc))

theorem unquote_token {text : List Char} (h : ∀ c ∈ text, isTokenChar c = true) :
    unquote text = text := by
  refine if_neg fun hquotes => ?_
  exact isTokenChar_ne (h _ (List.mem_of_mem_head? hquotes.1)) (by simp) rfl

theorem isTokenChar_intText {n : ℤ} : ∀ c ∈ intText n, isTokenChar c = true := by
  intro c hc
  rcases List.mem_append.1 hc with hc | hc
  · split at hc
    · rw [List.mem_singleton.1 hc]
      decide
    · cases hc
  · have hdigit := Numeral.isDigit_toDigits c hc
    simp [isTokenChar, Char.isAlphanum, hdigit]

theorem paramValue_intText (n : ℤ) : ParamValue (intText n) :=
  .inl ⟨fun h => Nat.toDigits_ne_nil (List.append_eq_nil_iff.1 h).2, isTokenChar_intText⟩

theorem ParamValue.trim {v : List Char} (h : ParamValue v) : trimChars v = v := by
  rcases h with ⟨-, h⟩ | ⟨u, rfl, -⟩
  · exact trimChars_token h
  · exact trimChars_quotedText u

theorem ParamValue.last {v : List Char} (h : ParamValue v) :
    v ≠ [] ∧ ∀ c ∈ v.getLast?, isSpace c = false := by
  rcases h with ⟨hne, h⟩ | ⟨u, rfl, -⟩
  · exact ⟨hne, fun c hc => isSpace_of_isTokenChar (h c (List.mem_of_mem_getLast? hc))⟩
  · refine ⟨List.cons_ne_nil _ _, fun c hc => ?_⟩
    rw [getLast?_quotedText] at hc
    cases hc
    decide

theorem ParamValue.unsplit {v : List Char} (h : ParamValue v) {sep : Char}
    (hsep : sep ∈ [',', ';', ' ']) : Unsplit sep 0 false v 0 false := by
  rcases h with ⟨-, h⟩ | ⟨u, rfl, hu⟩
  · exact unsplit_token h hsep
  · refine .quoted ?_ hu
    rintro rfl
    exact absurd hsep (by decide)

/-- Each parameter of an entry is `key=value`. -/
theorem SignatureEntry.mem_paramTexts {e : SignatureEntry} {p : List Char}
    (h : p ∈ e.paramTexts) : ∃ key v, p = key ++ '=' :: v ∧ key ≠ [] ∧
      (∀ c ∈ key, isTokenChar c = true) ∧ ParamValue v := by
  simp only [SignatureEntry.paramTexts, paramText, List.mem_append, List.mem_map,
    Option.mem_toList] at h
  rcases h with ⟨n, -, rfl⟩ | ⟨n, -, rfl⟩ | ⟨v, hv, rfl⟩ | ⟨v, hv, rfl⟩
  · exact ⟨_, _, rfl, by decide, forall_chars (by decide), paramValue_intText n⟩
  · exact ⟨_, _, rfl, by decide, forall_chars (by decide), paramValue_intText n⟩
  · exact ⟨_, _, rfl, by decide, forall_chars (by decide), .inr ⟨v, rfl, e.keyid_plain v hv⟩⟩
  · exact ⟨_, _, rfl, by decide, forall_chars (by decide), .inr ⟨v, rfl, e.alg_plain v hv⟩⟩

theorem SignatureEntry.unsplit_param {e : SignatureEntry} {p : List Char}
    (h : p ∈ e.paramTexts) {sep : Char} (hsep : sep ∈ [',', ';']) :
    Unsplit sep 0 false p 0 false := by
  obtain ⟨key, v, rfl, -, hkey, hv⟩ := SignatureEntry.mem_paramTexts h
  have hmarks : sep ∈ [',', ';', ' '] ∧ '=' ≠ sep := by
    simp only [List.mem_cons, List.not_mem_nil, or_false] at hsep
    rcases hsep with rfl | rfl <;> decide
  have heq : Unsplit sep 0 false ['='] 0 false :=
    .plain (by decide) (by decide) (by decide) (.inl hmarks.2)
  exact (unsplit_token hkey hmarks.1).append (heq.append (hv.unsplit hmarks.1))

/-- A parameter is read by its key. -/
theorem readParam_text {key : String} {v : List Char} (params : ParsedSignatureParams)
    (hne : key.toList ≠ []) (hkey : ∀ c ∈ key.toList, isTokenChar c = true)
    (hv : ParamValue v) :
    readParam params (key.toList ++ '=' :: v) =
      if key = "created" then { params with created := some (stringToNumber (unquote v)) }
      else if key = "expires" then { params with expires := some (stringToNumber (unquote v)) }
      else if key = "keyid" then { params with keyid := some (String.ofList (unquote v)) }
      else if key = "alg" then { params with alg := some (String.ofList (unquote v)) }
      else params := by
  have htrim : trimChars (key.toList ++ '=' :: v) = key.toList ++ '=' :: v := by
    refine trimChars_eq_self ?_ ?_
    · intro c hc
      rw [List.head?_append_of_ne_nil _ hne] at hc
      exact isSpace_of_isTokenChar (hkey c (List.mem_of_mem_head? hc))
    · intro c hc
      rw [List.getLast?_append_of_ne_nil _ (List.cons_ne_nil _ _),
        List.getLast?_cons_of_ne_nil hv.last.1] at hc
      exact hv.last.2 c hc
  have hcut : cut '=' (key.toList ++ '=' :: v) = some (key.toList, v) :=
    cut_append (fun h => isTokenChar_ne (hkey _ h) (by simp) rfl) v
  unfold readParam
  rw [htrim, hcut]
  simp only [trimChars_token hkey, hv.trim, String.ofList_toList]

/-- An optional parameter is read if it is there. -/
theorem foldl_paramText {α : Type} {key : String} {text : α → List Char} {value : Option α}
    {params : ParsedSignatureParams} {set : Option α → ParsedSignatureParams}
    (hnone : set none = params)
    (hread : ∀ v ∈ value, readParam params (key.toList ++ '=' :: text v) = set (some v)) :
    (paramText key text value).foldl readParam params = set value := by
  cases value with
  | none => exact hnone.symm
  | some v => exact hread v rfl

theorem readParam_int {key : String} (params : ParsedSignatureParams)
    (hkey : key = "created" ∨ key = "expires") {n : ℤ} (hn : IsNumber n) :
    readParam params (key.toList ++ '=' :: intText n) =
      if key = "created" then { params with created := some (.fin n) }
      else { params with expires := some (.fin n) } := by
  have hne : key.toList ≠ [] := by rcases hkey with rfl | rfl <;> decide
  have htoken : ∀ c ∈ key.toList, isTokenChar c = true := by
    rcases hkey with rfl | rfl <;> exact forall_chars (by decide)
  have hread := readParam_text params hne htoken (paramValue_intText n)
  rw [unquote_token isTokenChar_intText, stringToNumber_intText hn] at hread
  rw [hread]
  rcases hkey with rfl | rfl <;> rfl

theorem SignatureEntry.foldl_paramTexts (e : SignatureEntry) (components : List (List Char))
    (raw : List Char) :
    e.paramTexts.foldl readParam
        { components := components, created := none, expires := none, keyid := none, alg := none
          raw := raw } =
      { e.params with components := components, raw := raw } := by
  have hcreated : (paramText "created" intText e.created).foldl readParam
      ⟨components, none, none, none, none, raw⟩ =
        ⟨components, e.params.created, none, none, none, raw⟩ :=
    @foldl_paramText _ _ _ _ _
      (fun created => ⟨components, created.map fun n : ℤ => .fin (n : ℚ), none, none, none, raw⟩)
      rfl fun n hn => readParam_int _ (.inl rfl) (e.created_number n hn)
  have hexpires : (paramText "expires" intText e.expires).foldl readParam
      ⟨components, e.params.created, none, none, none, raw⟩ =
        ⟨components, e.params.created, e.params.expires, none, none, raw⟩ :=
    @foldl_paramText _ _ _ _ _ (fun expires => ⟨components, e.params.created,
        expires.map fun n : ℤ => .fin (n : ℚ), none, none, raw⟩)
      rfl fun n hn => readParam_int _ (.inr rfl) (e.expires_number n hn)
  have hkeyid : (paramText "keyid" quotedText e.keyid).foldl readParam
      ⟨components, e.params.created, e.params.expires, none, none, raw⟩ =
        ⟨components, e.params.created, e.params.expires, e.params.keyid, none, raw⟩ := by
    refine @foldl_paramText _ _ _ _ _ (fun keyid => ⟨components, e.params.created,
      e.params.expires, keyid.map String.ofList, none, raw⟩) rfl fun v hv => ?_
    rw [readParam_text _ (by decide) (forall_chars (by decide)) (.inr ⟨v, rfl, e.keyid_plain v hv⟩),
      unquote_quotedText]
    rfl
  have halg : (paramText "alg" quotedText e.alg).foldl readParam
      ⟨components, e.params.created, e.params.expires, e.params.keyid, none, raw⟩ =
        { e.params with components := components, raw := raw } := by
    refine @foldl_paramText _ _ _ _ _ (fun alg => ⟨components, e.params.created,
      e.params.expires, e.params.keyid, alg.map String.ofList, raw⟩) rfl fun v hv => ?_
    rw [readParam_text _ (by decide) (forall_chars (by decide)) (.inr ⟨v, rfl, e.alg_plain v hv⟩),
      unquote_quotedText]
    rfl
  unfold SignatureEntry.paramTexts
  rw [List.foldl_append, List.foldl_append, List.foldl_append, hcreated, hexpires, hkeyid, halg]

/-! ### Entries -/

theorem mem_intercalate {sep c : Char} {parts : List (List Char)}
    (h : c ∈ [sep].intercalate parts) : c = sep ∨ ∃ part ∈ parts, c ∈ part := by
  induction parts with
  | nil => cases h
  | cons part parts ih =>
      cases parts with
      | nil =>
          rw [List.intercalate_singleton] at h
          exact .inr ⟨part, List.mem_cons_self, h⟩
      | cons part' parts =>
          rw [List.intercalate_cons_cons, List.mem_append, List.mem_append,
            List.mem_singleton] at h
          rcases h with (h | rfl) | h
          · exact .inr ⟨part, List.mem_cons_self, h⟩
          · exact .inl rfl
          · rcases ih h with rfl | ⟨p, hp, hc⟩
            · exact .inl rfl
            · exact .inr ⟨p, List.mem_cons_of_mem _ hp, hc⟩

/-- A separator in front of each part. -/
theorem flatMap_cons_eq_intercalate (sep : Char) (parts : List (List Char)) :
    (parts.flatMap fun p => sep :: p) = [sep].intercalate ([] :: parts) := by
  induction parts with
  | nil => rfl
  | cons part parts ih =>
      rw [List.flatMap_cons, ih, List.intercalate_cons_cons, List.nil_append]
      cases parts with
      | nil => simp [List.intercalate_singleton]
      | cons part' parts => simp [List.intercalate_cons_cons]

namespace SignatureEntry

variable (e : SignatureEntry)

def componentsText : List Char := [' '].intercalate (e.components.map quotedText)

theorem component_plain {name : List Char} (h : name ∈ e.components) : '"' ∉ name :=
  fun hquote => componentChar_ne (e.component_chars name h _ hquote) (by simp) rfl

theorem mem_componentsText {c : Char} (h : c ∈ e.componentsText) :
    c = ' ' ∨ c = '"' ∨ c = '@' ∨ isTokenChar c = true := by
  rcases mem_intercalate h with rfl | ⟨part, hpart, hc⟩
  · exact .inl rfl
  · obtain ⟨name, hname, rfl⟩ := List.mem_map.1 hpart
    simp only [quotedText, List.mem_cons, List.mem_append, List.not_mem_nil, or_false] at hc
    rcases hc with rfl | hc | rfl
    · exact .inr (.inl rfl)
    · exact .inr (.inr (e.component_chars name hname c hc))
    · exact .inr (.inl rfl)

/-- The list starts and ends with a quote. -/
theorem trimChars_componentsText : trimChars e.componentsText = e.componentsText := by
  have hends : ∀ names : List (List Char),
      (∀ c ∈ ([' '].intercalate (names.map quotedText)).head?, c = '"') ∧
        ∀ c ∈ ([' '].intercalate (names.map quotedText)).getLast?, c = '"' := by
    intro names
    induction names with
    | nil =>
        refine ⟨fun c hc => ?_, fun c hc => ?_⟩
        · cases hc
        · cases hc
    | cons name names ih =>
        cases names with
        | nil =>
            rw [List.map_cons, List.map_nil, List.intercalate_singleton, getLast?_quotedText]
            exact ⟨fun c hc => (Option.some.inj hc).symm, fun c hc => (Option.some.inj hc).symm⟩
        | cons name' names =>
            rw [List.map_cons, List.map_cons, List.intercalate_cons_cons]
            refine ⟨fun c hc => (Option.some.inj hc).symm, fun c hc => ih.2 c ?_⟩
            rwa [List.getLast?_append_of_ne_nil _ ?_] at hc
            cases names <;>
              simp [quotedText, List.intercalate_singleton, List.intercalate_cons_cons]
  refine trimChars_eq_self (fun c hc => ?_) fun c hc => ?_
  · rw [(hends e.components).1 c hc]
    decide
  · rw [(hends e.components).2 c hc]
    decide

theorem componentsText_eq_nil : e.componentsText = [] ↔ e.components = [] := by
  unfold componentsText
  cases e.components with
  | nil => simp
  | cons name names =>
      cases names <;> simp [quotedText, List.intercalate_singleton, List.intercalate_cons_cons]

theorem splitTopLevel_componentsText (h : e.components ≠ []) :
    splitTopLevel e.componentsText ' ' = e.components.map quotedText := by
  refine splitTopLevel_intercalate (by decide) (by decide) (by decide)
    (by rwa [ne_eq, List.map_eq_nil_iff]) ?_
  intro part hpart
  obtain ⟨name, hname, rfl⟩ := List.mem_map.1 hpart
  exact .quoted (by decide) (e.component_plain hname)

theorem splitTopLevel_paramTexts :
    splitTopLevel (e.paramTexts.flatMap fun p => ';' :: p) ';' = [] :: e.paramTexts := by
  rw [flatMap_cons_eq_intercalate]
  refine splitTopLevel_intercalate (by decide) (by decide) (by decide) (List.cons_ne_nil _ _) ?_
  intro part hpart
  rcases List.mem_cons.1 hpart with rfl | hpart
  · exact .nil
  · exact unsplit_param hpart (by simp)

theorem readEntry_valueText : readEntry e.valueText = some e.params := by
  have hclose : ')' ∉ '(' :: e.componentsText := by
    intro h
    rcases List.mem_cons.1 h with h | h
    · cases h
    · rcases e.mem_componentsText h with h | h | h | h
      · cases h
      · cases h
      · cases h
      · exact absurd h (by decide)
  have hcut : cut ')' e.valueText =
      some ('(' :: e.componentsText, e.paramTexts.flatMap fun p => ';' :: p) :=
    cut_append hclose _
  have hcomponents : (if e.componentsText = [] then []
      else (splitTopLevel e.componentsText ' ').filter fun c => c ≠ []) =
        e.components.map quotedText := by
    by_cases hnil : e.components = []
    · rw [if_pos (e.componentsText_eq_nil.2 hnil), hnil]
      rfl
    · rw [if_neg fun h => hnil (e.componentsText_eq_nil.1 h), e.splitTopLevel_componentsText hnil]
      refine List.filter_eq_self.2 fun part hpart => ?_
      obtain ⟨name, -, rfl⟩ := List.mem_map.1 hpart
      exact decide_eq_true (List.cons_ne_nil _ _)
  unfold readEntry
  simp only [hcut]
  rw [e.trimChars_componentsText, hcomponents, e.splitTopLevel_paramTexts, List.foldl_cons]
  exact congrArg some (e.foldl_paramTexts _ _)

theorem trimChars_valueText : trimChars e.valueText = e.valueText := by
  refine trimChars_eq_self (fun c hc => ?_) fun c hc => ?_
  · cases hc
    decide
  · rcases List.eq_nil_or_concat e.paramTexts with hnil | ⟨ps, p, hps⟩
    · have hvalue : e.valueText = ('(' :: e.componentsText) ++ [')'] := by
        unfold valueText componentsText
        rw [hnil]
        rfl
      rw [hvalue, List.getLast?_concat] at hc
      cases hc
      decide
    · have hvalue : e.valueText =
          ('(' :: (e.componentsText ++ ')' :: ps.flatMap fun p => ';' :: p)) ++ ';' :: p := by
        unfold valueText componentsText
        rw [hps]
        simp
      obtain ⟨key, v, rfl, -, -, hv⟩ :=
        mem_paramTexts (e := e) (p := p) (by rw [hps]; simp)
      rw [hvalue, List.getLast?_append_of_ne_nil _ (List.cons_ne_nil _ _), ← List.cons_append,
        List.getLast?_append_of_ne_nil _ (List.cons_ne_nil _ _),
        List.getLast?_cons_of_ne_nil hv.last.1] at hc
      exact hv.last.2 c hc

/-- A comma does not cut an entry. -/
theorem unsplit_text : Unsplit ',' 0 false e.text 0 false := by
  have hlabel : Unsplit ',' 0 false e.label 0 false :=
    unsplit_token e.label_token (by simp)
  have heq : Unsplit ',' 0 false ['='] 0 false :=
    .plain (by decide) (by decide) (by decide) (.inl (by decide))
  have hcomponents : Unsplit ',' 1 false e.componentsText 1 false := by
    refine .intercalate (.plain (by decide) (by decide) (by decide) (.inl (by decide))) ?_
    intro part hpart
    obtain ⟨name, hname, rfl⟩ := List.mem_map.1 hpart
    exact .quoted (by decide) (e.component_plain hname)
  have hparams : Unsplit ',' 0 false (e.paramTexts.flatMap fun p => ';' :: p) 0 false := by
    rw [flatMap_cons_eq_intercalate]
    refine .intercalate (.plain (by decide) (by decide) (by decide) (.inl (by decide))) ?_
    intro part hpart
    rcases List.mem_cons.1 hpart with rfl | hpart
    · exact .nil
    · exact unsplit_param hpart (by simp)
  exact hlabel.append (heq.append ((Unsplit.open (by decide)).append
    (hcomponents.append ((Unsplit.close (by decide)).append hparams))))

theorem cut_text : cut '=' e.text = some (e.label, e.valueText) :=
  cut_append (fun h => isTokenChar_ne (e.label_token _ h) (by simp) rfl) e.valueText

end SignatureEntry

/-- The first entry with the label is found among the texts of the entries. -/
theorem firstEntryOf_text {label : Option String} {entries : List SignatureEntry}
    {e : SignatureEntry} (he : e ∈ entries)
    (hmatch : ∀ e' ∈ entries, labelMatches label (String.ofList e'.label) = true → e' = e)
    (hself : labelMatches label (String.ofList e.label) = true) :
    firstEntryOf label (entries.map SignatureEntry.text) =
      some (String.ofList e.label, e.params) := by
  induction entries with
  | nil => cases he
  | cons e' entries ih =>
      rw [List.map_cons, firstEntryOf, e'.cut_text]
      simp only [trimChars_token e'.label_token, e'.trimChars_valueText, e'.readEntry_valueText]
      by_cases hlabel : labelMatches label (String.ofList e'.label) = true
      · rw [if_pos hlabel, hmatch e' List.mem_cons_self hlabel]
      · rw [if_neg hlabel]
        have hne : e ≠ e' := fun h => hlabel (h ▸ hself)
        exact ih ((List.mem_cons.1 he).resolve_left hne)
          fun e'' he'' => hmatch e'' (List.mem_cons_of_mem _ he'')

theorem splitTopLevel_serialize {entries : List SignatureEntry} (hne : entries ≠ []) :
    splitTopLevel (serialize entries).toList ',' = entries.map SignatureEntry.text := by
  rw [serialize, String.toList_ofList]
  refine splitTopLevel_intercalate (by decide) (by decide) (by decide)
    (by rwa [ne_eq, List.map_eq_nil_iff]) ?_
  intro part hpart
  obtain ⟨e, -, rfl⟩ := List.mem_map.1 hpart
  exact e.unsplit_text

/-- **A serialized dictionary is parsed back**: by a label to the entry of that
label, without one to the first entry. -/
theorem parseSignatureInput_serialize {entries : List SignatureEntry}
    (hlabels : (entries.map SignatureEntry.label).Nodup) :
    (∀ e ∈ entries, parseSignatureInput (serialize entries) (some (String.ofList e.label)) =
      some (String.ofList e.label, e.params)) ∧
    ∀ e ∈ entries.head?, parseSignatureInput (serialize entries) none =
      some (String.ofList e.label, e.params) := by
  constructor
  · intro e he
    have hne : (String.ofList e.label == "") = false := by
      rw [beq_eq_false_iff_ne]
      intro h
      have hnil := congrArg String.toList h
      rw [String.toList_ofList] at hnil
      exact e.label_ne hnil
    unfold parseSignatureInput
    rw [splitTopLevel_serialize (List.ne_nil_of_mem he)]
    refine firstEntryOf_text he (fun e' he' hmatch => ?_) (by simp [labelMatches])
    have hlabel : e'.label = e.label := by
      simp only [labelMatches, hne, Bool.false_or, beq_iff_eq] at hmatch
      exact String.ofList_injective hmatch
    exact List.inj_on_of_nodup_map hlabels he' he hlabel
  · intro e he
    cases entries with
    | nil => cases he
    | cons e' entries =>
        cases he
        unfold parseSignatureInput
        rw [splitTopLevel_serialize (List.cons_ne_nil _ _), List.map_cons, firstEntryOf, e.cut_text]
        simp only [trimChars_token e.label_token, e.trimChars_valueText, e.readEntry_valueText,
          labelMatches, if_true]

namespace Sample

/-- A key id that spells the syntax around it. -/
def guileful : SignatureEntry where
  label := "sig1".toList
  components := ["@method".toList, "content-digest".toList]
  created := some (-1)
  expires := some 1700000000
  keyid := some "k;alg=(none),sig2=()".toList
  alg := none
  label_ne := by decide
  label_token := forall_chars (by decide)
  component_chars := by
    simp only [List.forall_mem_cons]
    exact ⟨forall_chars (by decide), forall_chars (by decide),
      fun _ h => absurd h List.not_mem_nil⟩
  created_number := fun n hn => by
    cases hn
    exact isNumber_of_natAbs_lt (by decide)
  expires_number := fun n hn => by
    cases hn
    exact isNumber_of_natAbs_lt (by decide)
  keyid_plain := fun v hv => by
    cases hv
    decide
  alg_plain := fun v hv => by cases hv

/-- An entry without components or parameters. -/
def plainEntry : SignatureEntry where
  label := "sig2".toList
  components := []
  created := none
  expires := none
  keyid := none
  alg := none
  label_ne := by decide
  label_token := forall_chars (by decide)
  component_chars := fun _ h => by cases h
  created_number := fun n hn => by cases hn
  expires_number := fun n hn => by cases hn
  keyid_plain := fun v hv => by cases hv
  alg_plain := fun v hv => by cases hv

end Sample

open Sample in
theorem parseSignatureInput_serialize_guileful :
    (∀ e ∈ [guileful, plainEntry],
      parseSignatureInput (serialize [guileful, plainEntry]) (some (String.ofList e.label)) =
        some (String.ofList e.label, e.params)) ∧
    ∀ e ∈ [guileful, plainEntry].head?,
      parseSignatureInput (serialize [guileful, plainEntry]) none =
        some (String.ofList e.label, e.params) :=
  parseSignatureInput_serialize (by decide)

end AgentWorth
