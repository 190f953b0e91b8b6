import AgentWorth.Lib.Numeral
import AgentWorth.Lib.Text
import AgentWorth.Lib.Value

/-!
# JSON text

`JSON.stringify` and `JSON.parse`.  The serialiser leaves out members that hold
`undefined`, a function or a symbol, writes them as `null` in arrays, and writes
numbers that are not finite as `null`; what it keeps, the parser reads back.
-/

namespace AgentWorth.Js

namespace Json

/-! ## Strings -/

def hexDigit (n : Nat) : Char := Nat.digitChar (n % 16)

/-- One character inside a JSON string. -/
def quoteChar (c : Char) : List Char :=
  if c = '"' then ['\\', '"']
  else if c = '\\' then ['\\', '\\']
  else if c.toNat = 0x8 then ['\\', 'b']
  else if c.toNat = 0x9 then ['\\', 't']
  else if c.toNat = 0xA then ['\\', 'n']
  else if c.toNat = 0xC then ['\\', 'f']
  else if c.toNat = 0xD then ['\\', 'r']
  else if c.toNat < 0x20 then
    ['\\', 'u', '0', '0', hexDigit (c.toNat / 16), hexDigit c.toNat]
  else [c]

def quoted (s : String) : List Char := '"' :: (s.toList.flatMap quoteChar ++ ['"'])

/-- `JSON.stringify` of a string. -/
def quote (s : String) : String := String.ofList (quoted s)

/-- The characters that UTF-16 code units spell; a surrogate without its
partner stands for no character and reads as U+FFFD. -/
def charOfUnit (u : Nat) : Char :=
  if 0xD800 ≤ u ∧ u < 0xE000 then Char.ofNat 0xFFFD else Char.ofNat u

def ofUnits : List Nat → List Char
  | [] => []
  | [u] => [charOfUnit u]
  | u :: v :: us =>
      if 0xD800 ≤ u ∧ u < 0xDC00 ∧ 0xDC00 ≤ v ∧ v < 0xE000 then
        Char.ofNat (0x10000 + (u - 0xD800) * 0x400 + (v - 0xDC00)) :: ofUnits us
      else charOfUnit u :: ofUnits (v :: us)

def hexValue (c : Char) : Option Nat :=
  if c.isDigit then some (c.toNat - 48)
  else if 'a' ≤ c ∧ c ≤ 'f' then some (c.toNat - 87)
  else if 'A' ≤ c ∧ c ≤ 'F' then some (c.toNat - 55)
  else none

/-- The unit of `\uXXXX`. -/
def hexUnit (a b c d : Char) : Option Nat := do
  let a ← hexValue a
  let b ← hexValue b
  let c ← hexValue c
  let d ← hexValue d
  return ((a * 16 + b) * 16 + c) * 16 + d

/-- The unit of a two-character escape. -/
def simpleEscape (c : Char) : Option Nat :=
  if c = '"' ∨ c = '\\' ∨ c = '/' then some c.toNat
  else if c = 'b' then some 0x8
  else if c = 't' then some 0x9
  else if c = 'n' then some 0xA
  else if c = 'f' then some 0xC
  else if c = 'r' then some 0xD
  else none

/-- The units of a string, after its opening quote, and what follows it. -/
def parseUnits : List Char → Option (List Nat × List Char)
  | [] => none
  | c :: rest =>
      if c = '"' then some ([], rest)
      else if c = '\\' then
        match rest with
        | [] => none
        | e :: rest =>
            if e = 'u' then
              match rest with
              | a :: b :: c :: d :: rest =>
                  (hexUnit a b c d).bind fun u => (parseUnits rest).map fun r => (u :: r.1, r.2)
              | _ => none
            else (simpleEscape e).bind fun u => (parseUnits rest).map fun r => (u :: r.1, r.2)
      else if c.toNat < 0x20 then none
      else (parseUnits rest).map fun r => (charUnits c ++ r.1, r.2)

def parseString (cs : List Char) : Option (String × List Char) :=
  (parseUnits cs).map fun r => (String.ofList (ofUnits r.1), r.2)

/-! ## Serialising -/

/-- Members `JSON.stringify` drops from objects. -/
def isDropped : JsValue → Bool
  | .undefined | .function | .symbol => true
  | _ => false

theorem isDropped_of_isObject {v : JsValue} (h : v.isObject = true) : isDropped v = false := by
  cases v with
  | arr items => rfl
  | obj members => rfl
  | _ => cases h

/-- The line break before an element, when a gap is given. -/
def lineBreak (gap indent : List Char) : List Char :=
  if gap = [] then [] else '\n' :: indent

/-- The parts of an array or object between their brackets. -/
def bracketed (opening closing : Char) (gap indent : List Char) :
    List (List Char) → List Char
  | [] => [opening, closing]
  | p :: ps =>
      opening :: (lineBreak gap (indent ++ gap) ++ (p ++
        (ps.flatMap (fun q => ',' :: (lineBreak gap (indent ++ gap) ++ q)) ++
          (lineBreak gap indent ++ [closing]))))

mutual

/-- The text of a value at an indentation. -/
def render (gap indent : List Char) : JsValue → List Char
  | .bool true => ['t', 'r', 'u', 'e']
  | .bool false => ['f', 'a', 'l', 's', 'e']
  | .num (.fin q) => JsNumber.decimalText (JsNumber.shown q)
  | .str s => quoted s
  | .arr items => bracketed '[' ']' gap indent (renderItems gap (indent ++ gap) items)
  | .obj members =>
      bracketed '\x7b' '\x7d' gap indent (renderMembers gap (indent ++ gap) members)
  | _ => ['n', 'u', 'l', 'l']

def renderItems (gap indent : List Char) : List JsValue → List (List Char)
  | [] => []
  | v :: vs => render gap indent v :: renderItems gap indent vs

def renderMembers (gap indent : List Char) : List (String × JsValue) → List (List Char)
  | [] => []
  | (k, v) :: rest =>
      if isDropped v then renderMembers gap indent rest
      else (quoted k ++ ':' :: ((if gap = [] then [] else [' ']) ++ render gap indent v)) ::
        renderMembers gap indent rest

end

/-- `JSON.stringify(v, null, spaces)`. -/
def stringify (spaces : Nat) (v : JsValue) : Option String :=
  if isDropped v then none else some (String.ofList (render (List.replicate spaces ' ') [] v))

/-! ## Parsing -/

def isJsonSpace (c : Char) : Bool := c == ' ' || c == '\t' || c == '\n' || c == '\r'

def skipSpace (cs : List Char) : List Char := cs.dropWhile isJsonSpace

/-- The rest of a keyword. -/
def parseWord (word : List Char) (v : JsValue) (cs : List Char) :
    Option (JsValue × List Char) :=
  if word.isPrefixOf cs then some (v, cs.drop word.length) else none

/-- An object from its members in order: a repeated name takes its last value. -/
def objectOf (members : List (String × JsValue)) : JsValue :=
  .obj (JsMap.ofEntries members).entries

mutual

def parseValue : Nat → List Char → Option (JsValue × List Char)
  | 0, _ => none
  | fuel + 1, cs =>
      match skipSpace cs with
      | [] => none
      | c :: rest =>
          if c = '"' then (parseString rest).map fun r => (.str r.1, r.2)
          else if c = '[' then
            match skipSpace rest with
            | ']' :: rest => some (.arr [], rest)
            | rest => (parseItems fuel rest).map fun r => (.arr r.1, r.2)
          else if c = '\x7b' then
            match skipSpace rest with
            | '\x7d' :: rest => some (.obj [], rest)
            | rest => (parseMembers fuel rest).map fun r => (objectOf r.1, r.2)
          else if c = 'n' then parseWord ['u', 'l', 'l'] .null rest
          else if c = 't' then parseWord ['r', 'u', 'e'] (.bool true) rest
          else if c = 'f' then parseWord ['a', 'l', 's', 'e'] (.bool false) rest
          else (readNumeral (c :: rest)).map fun r => (.num (.fin r.1), r.2)

/-- The elements of a nonempty array, to its closing bracket. -/
def parseItems : Nat → List Char → Option (List JsValue × List Char)
  | 0, _ => none
  | fuel + 1, cs =>
      (parseValue fuel cs).bind fun item =>
        match skipSpace item.2 with
        | ',' :: rest => (parseItems fuel rest).map fun r => (item.1 :: r.1, r.2)
        | ']' :: rest => some ([item.1], rest)
        | _ => none

/-- The members of a nonempty object, to its closing brace. -/
def parseMembers : Nat → List Char → Option (List (String × JsValue) × List Char)
  | 0, _ => none
  | fuel + 1, cs =>
      match skipSpace cs with
      | '"' :: rest =>
          (parseString rest).bind fun k =>
            match skipSpace k.2 with
            | ':' :: rest =>
                (parseValue fuel rest).bind fun item =>
                  match skipSpace item.2 with
                  | ',' :: rest =>
                      (parseMembers fuel rest).map fun r => ((k.1, item.1) :: r.1, r.2)
                  | '\x7d' :: rest => some ([(k.1, item.1)], rest)
                  | _ => none
            | _ => none
      | _ => none

end

/-- `JSON.parse(s)`; `none` is a `SyntaxError`. -/
def parse (s : String) : Option JsValue :=
  (parseValue s.toList.length s.toList).bind fun r =>
    if skipSpace r.2 = [] then some r.1 else none

end Json

/-! ## What JSON keeps -/

namespace JsValue

open Json

mutual

/-- The value that parsing the text of `v` gives. -/
def persisted : JsValue → JsValue
  | .num (.fin q) => .num (.fin (JsNumber.shown q))
  | .bool b => .bool b
  | .str s => .str s
  | .arr items => .arr (persistedItems items)
  | .obj members => .obj (persistedMembers members)
  | _ => .null

def persistedItems : List JsValue → List JsValue
  | [] => []
  | v :: vs => persisted v :: persistedItems vs

def persistedMembers : List (String × JsValue) → List (String × JsValue)
  | [] => []
  | (k, v) :: rest =>
      if isDropped v then persistedMembers rest
      else (k, persisted v) :: persistedMembers rest

end

mutual

/-- No object has two members of one name, as no object of the language has. -/
def WellFormed : JsValue → Prop
  | .arr items => WellFormedItems items
  | .obj members => (members.map Prod.fst).Nodup ∧ WellFormedMembers members
  | _ => True

def WellFormedItems : List JsValue → Prop
  | [] => True
  | v :: vs => WellFormed v ∧ WellFormedItems vs

def WellFormedMembers : List (String × JsValue) → Prop
  | [] => True
  | (_, v) :: rest => WellFormed v ∧ WellFormedMembers rest

end

/-- What a member holds after its object was serialised and parsed. -/
def memberPersisted (v : JsValue) : JsValue := if isDropped v then .undefined else v.persisted

@[simp] theorem memberPersisted_str (s : String) : memberPersisted (.str s) = .str s := rfl

@[simp] theorem memberPersisted_undefined : memberPersisted .undefined = .undefined := rfl

theorem lookup_persistedMembers (k : String) : ∀ ms : List (String × JsValue),
    (ms.map Prod.fst).Nodup → ((persistedMembers ms).lookup k).getD .undefined =
      memberPersisted ((ms.lookup k).getD .undefined)
  | [], _ => rfl
  | (k', v) :: ms, hnodup => by
      obtain ⟨hnew, hrest⟩ := List.nodup_cons.1 hnodup
      have ih := lookup_persistedMembers k ms hrest
      unfold persistedMembers memberPersisted
      by_cases hk : k = k'
      · subst hk
        have habsent : ms.lookup k = none := by
          rw [List.lookup_eq_none_iff]
          intro p hp
          rw [bne_iff_ne]
          rintro rfl
          exact hnew (List.mem_map.2 ⟨p, hp, rfl⟩)
        rw [habsent] at ih
        split
        · next hdropped =>
            rw [ih, List.lookup_cons_self, Option.getD_some, if_pos hdropped]
            rfl
        · next hkept =>
            rw [List.lookup_cons_self, List.lookup_cons_self, Option.getD_some,
              Option.getD_some, if_neg hkept]
      · have hb : (k == k') = false := by simpa using hk
        split
        · rw [ih, List.lookup_cons, hb]
          rfl
        · rw [List.lookup_cons, List.lookup_cons, hb]
          exact ih

/-- A member of an object that was serialised and parsed. -/
theorem get_persisted {ms : List (String × JsValue)} (h : (ms.map Prod.fst).Nodup)
    (k : String) :
    (JsValue.obj ms).persisted.get k = memberPersisted ((JsValue.obj ms).get k) :=
  lookup_persistedMembers k ms h

/-- Serialising and parsing give the value back. -/
structure Stable (v : JsValue) : Prop where
  kept : isDropped v = false
  persisted_eq : v.persisted = v
  wellFormed : v.WellFormed

theorem stable_str (s : String) : (JsValue.str s).Stable := ⟨rfl, rfl, trivial⟩

theorem stable_null : JsValue.null.Stable := ⟨rfl, rfl, trivial⟩

theorem stable_num {q : ℚ} (h : JsNumber.Terminates q) : (JsValue.num (.fin q)).Stable := by
  refine ⟨rfl, ?_, trivial⟩
  rw [persisted, JsNumber.shown_of_terminates h]

theorem stable_arr {items : List JsValue} (h : ∀ v ∈ items, v.Stable) :
    (JsValue.arr items).Stable := by
  have hitems : persistedItems items = items ∧ WellFormedItems items := by
    induction items with
    | nil => exact ⟨rfl, trivial⟩
    | cons v vs ih =>
        obtain ⟨hsame, hwf⟩ := ih fun w hw => h w (List.mem_cons_of_mem _ hw)
        have hv := h v (List.mem_cons_self ..)
        exact ⟨by rw [persistedItems, hv.persisted_eq, hsame], hv.wellFormed, hwf⟩
  exact ⟨rfl, by rw [persisted, hitems.1], hitems.2⟩

theorem stable_obj {members : List (String × JsValue)} (hkeys : (members.map Prod.fst).Nodup)
    (h : ∀ m ∈ members, m.2.Stable) : (JsValue.obj members).Stable := by
  have hmembers : persistedMembers members = members ∧ WellFormedMembers members := by
    clear hkeys
    induction members with
    | nil => exact ⟨rfl, trivial⟩
    | cons m ms ih =>
        obtain ⟨hsame, hwf⟩ := ih fun w hw => h w (List.mem_cons_of_mem _ hw)
        have hm := h m (List.mem_cons_self ..)
        exact ⟨by rw [persistedMembers, hm.kept, if_neg Bool.false_ne_true, hm.persisted_eq,
          hsame], hm.wellFormed, hwf⟩
  exact ⟨rfl, by rw [persisted, hmembers.1], hkeys, hmembers.2⟩

end JsValue

/-! ## Strings read back -/

namespace Json

theorem ofUnits_charUnits (c : Char) (us : List Nat) :
    ofUnits (charUnits c ++ us) = c :: ofUnits us := by
  have hvalid : c.toNat < 0xD800 ∨ 0xDFFF < c.toNat ∧ c.toNat < 0x110000 := c.valid
  unfold charUnits
  split
  · next hsmall =>
      have hunit : charOfUnit c.toNat = c := by
        rw [charOfUnit, if_neg (by omega), Char.ofNat_toNat]
      cases us with
      | nil => simp [ofUnits, hunit]
      | cons v us =>
          rw [List.cons_append, List.nil_append, ofUnits, if_neg (by omega), hunit]
  · next hlarge =>
      have hpair : 0x10000 + (0xD800 + (c.toNat - 0x10000) / 0x400 - 0xD800) * 0x400 +
          (0xDC00 + (c.toNat - 0x10000) % 0x400 - 0xDC00) = c.toNat := by omega
      rw [List.cons_append, List.cons_append, List.nil_append, ofUnits, if_pos (by omega), hpair,
        Char.ofNat_toNat]

/-- Strings are determined by their code units. -/
theorem ofUnits_utf16 (cs : List Char) : ofUnits (cs.flatMap charUnits) = cs := by
  induction cs with
  | nil => rfl
  | cons c cs ih => rw [List.flatMap_cons, ofUnits_charUnits, ih]

theorem hexUnit_control : ∀ n < 32,
    hexUnit '0' '0' (hexDigit (n / 16)) (hexDigit n) = some n := by
  decide

theorem charUnits_of_lt {c : Char} (h : c.toNat < 0x10000) : charUnits c = [c.toNat] := if_pos h

theorem parseUnits_quoteChar (c : Char) (cs : List Char) :
    parseUnits (quoteChar c ++ cs) = (parseUnits cs).map fun r => (charUnits c ++ r.1, r.2) := by
  have hescape : ∀ (e : Char) (u : Nat), e ≠ 'u' → simpleEscape e = some u → c.toNat = u →
      u < 0x10000 → parseUnits ('\\' :: e :: cs) =
        (parseUnits cs).map fun r => (charUnits c ++ r.1, r.2) := by
    intro e u he hu hc hlt
    rw [charUnits_of_lt (by omega), hc, parseUnits.eq_def]
    simp [he, hu]
  unfold quoteChar
  split
  · next h => exact hescape '"' 0x22 (by decide) (by decide) (by rw [h]; decide) (by decide)
  split
  · next h => exact hescape '\\' 0x5C (by decide) (by decide) (by rw [h]; decide) (by decide)
  split
  · next h => exact hescape 'b' 0x8 (by decide) (by decide) h (by decide)
  split
  · next h => exact hescape 't' 0x9 (by decide) (by decide) h (by decide)
  split
  · next h => exact hescape 'n' 0xA (by decide) (by decide) h (by decide)
  split
  · next h => exact hescape 'f' 0xC (by decide) (by decide) h (by decide)
  split
  · next h => exact hescape 'r' 0xD (by decide) (by decide) h (by decide)
  split
  · next h =>
      rw [charUnits_of_lt (by omega)]
      rw [List.cons_append, List.cons_append, parseUnits.eq_def]
      simp [hexUnit_control c.toNat h]
  · next hquote hback _ _ _ _ _ hprint =>
      rw [List.cons_append, List.nil_append, parseUnits.eq_def]
      simp [hquote, hback, hprint]

/-- A quoted string reads back, up to its closing quote. -/
theorem parseString_quoted (s : String) (rest : List Char) :
    parseString (s.toList.flatMap quoteChar ++ '"' :: rest) = some (s, rest) := by
  have hunits : ∀ cs : List Char, parseUnits (cs.flatMap quoteChar ++ '"' :: rest) =
      some (cs.flatMap charUnits, rest) := by
    intro cs
    induction cs with
    | nil =>
        rw [List.flatMap_nil, List.nil_append, parseUnits.eq_def]
        simp
    | cons c cs ih =>
        rw [List.flatMap_cons, List.append_assoc, parseUnits_quoteChar, ih]
        rfl
  rw [parseString, hunits, Option.map_some, ofUnits_utf16, String.ofList_toList]

theorem quote_injective {s t : String} (h : quote s = quote t) : s = t := by
  have hquoted : quoted s = quoted t := String.ofList_injective h
  have hread := parseString_quoted s []
  rw [(List.cons.inj hquoted).2, parseString_quoted t []] at hread
  exact (Prod.mk.inj (Option.some.inj hread)).1.symm

/-! ## Values read back -/

/-- Nothing but white space. -/
def Blank (ws : List Char) : Prop := ∀ c ∈ ws, isJsonSpace c = true

theorem skipSpace_append {ws : List Char} (hws : Blank ws) (cs : List Char) :
    skipSpace (ws ++ cs) = skipSpace cs := List.dropWhile_append_of_pos hws

theorem skipSpace_cons {c : Char} (hc : isJsonSpace c = false) (cs : List Char) :
    skipSpace (c :: cs) = c :: cs := by
  simp [skipSpace, hc]

theorem parseValue_append {ws : List Char} (hws : Blank ws) (fuel : Nat) (cs : List Char) :
    parseValue fuel (ws ++ cs) = parseValue fuel cs := by
  cases fuel with
  | zero => rfl
  | succ fuel => simp only [parseValue, skipSpace_append hws]

theorem parseItems_append {ws : List Char} (hws : Blank ws) (fuel : Nat) (cs : List Char) :
    parseItems fuel (ws ++ cs) = parseItems fuel cs := by
  cases fuel with
  | zero => rfl
  | succ fuel => simp only [parseItems, parseValue_append hws]

theorem parseMembers_append {ws : List Char} (hws : Blank ws) (fuel : Nat) (cs : List Char) :
    parseMembers fuel (ws ++ cs) = parseMembers fuel cs := by
  cases fuel with
  | zero => rfl
  | succ fuel => simp only [parseMembers, skipSpace_append hws]

theorem blank_lineBreak {gap indent : List Char} (hindent : Blank indent) :
    Blank (lineBreak gap indent) := by
  unfold lineBreak
  split
  · simp [Blank]
  · intro c hc
    rcases List.mem_cons.1 hc with rfl | hc
    · decide
    · exact hindent c hc

theorem Blank.append {ws ws' : List Char} (h : Blank ws) (h' : Blank ws') :
    Blank (ws ++ ws') := by
  intro c hc
  rcases List.mem_append.1 hc with hc | hc
  · exact h c hc
  · exact h' c hc

/-- White space and brackets end a numeral. -/
theorem delimited_blank {ws : List Char} (hws : Blank ws) {c : Char}
    (hc : c = ',' ∨ c = ']' ∨ c = '\x7d') (rest : List Char) :
    Delimited (ws ++ c :: rest) := by
  cases ws with
  | nil =>
      intro d hd
      cases hd
      rcases hc with rfl | rfl | rfl <;> decide
  | cons w ws =>
      intro d hd
      cases hd
      have hw := hws w (List.mem_cons_self ..)
      simp only [isJsonSpace, Bool.or_eq_true, beq_iff_eq] at hw
      rcases hw with ((rfl | rfl) | rfl) | rfl <;> decide

/-- The separated parts after the first. -/
def following (brk : List Char) (ps : List (List Char)) : List Char :=
  ps.flatMap fun q => ',' :: (brk ++ q)

theorem decimalText_head (q : ℚ) :
    ∃ c cs, JsNumber.decimalText q = c :: cs ∧ (c = '-' ∨ c.isDigit = true) := by
  unfold JsNumber.decimalText
  split
  · exact ⟨'-', _, rfl, Or.inl rfl⟩
  · obtain ⟨c, ds, hds⟩ := List.exists_cons_of_ne_nil
      (Nat.toDigits_ne_nil (b := 10) (n := (q * 10 ^ JsNumber.fractionPlaces q).num.natAbs /
        10 ^ JsNumber.fractionPlaces q))
    refine ⟨c, _, by simp only [hds]; rfl, Or.inr ?_⟩
    exact Numeral.isDigit_toDigits c (by rw [hds]; exact List.mem_cons_self ..)

/-- A value's text starts with neither white space nor a closing bracket. -/
theorem render_head (gap indent : List Char) (v : JsValue) :
    ∃ c cs, render gap indent v = c :: cs ∧ isJsonSpace c = false ∧ c ≠ ']' := by
  have hbracketed : ∀ (opening closing : Char) (ps : List (List Char)),
      ∃ cs, bracketed opening closing gap indent ps = opening :: cs := by
    intro opening closing ps
    cases ps <;> exact ⟨_, rfl⟩
  cases v with
  | num x =>
      cases x with
      | fin q =>
          obtain ⟨c, cs, hcs, hc⟩ := decimalText_head (JsNumber.shown q)
          refine ⟨c, cs, hcs, ?_⟩
          rcases hc with rfl | hc
          · decide
          · constructor
            · cases hspace : isJsonSpace c with
              | false => rfl
              | true =>
                  simp only [isJsonSpace, Bool.or_eq_true, beq_iff_eq] at hspace
                  rcases hspace with ((rfl | rfl) | rfl) | rfl <;> simp at hc
            · rintro rfl
              simp at hc
      | nan => exact ⟨_, _, rfl, by decide, by decide⟩
      | posInf => exact ⟨_, _, rfl, by decide, by decide⟩
      | negInf => exact ⟨_, _, rfl, by decide, by decide⟩
  | bool b => cases b <;> exact ⟨_, _, rfl, by decide, by decide⟩
  | str s => exact ⟨'"', _, rfl, by decide, by decide⟩
  | arr items =>
      obtain ⟨cs, hcs⟩ := hbracketed '[' ']' (renderItems gap (indent ++ gap) items)
      exact ⟨'[', cs, hcs, by decide, by decide⟩
  | obj members =>
      obtain ⟨cs, hcs⟩ := hbracketed '\x7b' '\x7d' (renderMembers gap (indent ++ gap) members)
      exact ⟨'\x7b', cs, hcs, by decide, by decide⟩
  | undefined => exact ⟨_, _, rfl, by decide, by decide⟩
  | null => exact ⟨_, _, rfl, by decide, by decide⟩
  | function => exact ⟨_, _, rfl, by decide, by decide⟩
  | symbol => exact ⟨_, _, rfl, by decide, by decide⟩

theorem renderItems_eq_nil {gap indent : List Char} {items : List JsValue}
    (h : renderItems gap indent items = []) : items = [] := by
  cases items with
  | nil => rfl
  | cons v vs => simp [renderItems] at h

theorem persistedMembers_of_renderMembers {gap indent : List Char} :
    ∀ {members : List (String × JsValue)}, renderMembers gap indent members = [] →
      JsValue.persistedMembers members = []
  | [], _ => rfl
  | (k, v) :: rest, h => by
      unfold renderMembers at h
      unfold JsValue.persistedMembers
      split at h
      · next hdropped =>
          rw [if_pos hdropped]
          exact persistedMembers_of_renderMembers h
      · cases h

theorem renderMembers_head {gap indent p : List Char} {ps : List (List Char)} :
    ∀ {members : List (String × JsValue)}, renderMembers gap indent members = p :: ps →
      ∃ cs, p = '"' :: cs
  | [], h => by cases h
  | (k, v) :: rest, h => by
      unfold renderMembers at h
      split at h
      · exact renderMembers_head h
      · exact ⟨_, (List.cons.inj h).1.symm⟩

theorem keys_persistedMembers : ∀ (members : List (String × JsValue)),
    ((JsValue.persistedMembers members).map Prod.fst).Sublist (members.map Prod.fst)
  | [] => List.Sublist.slnil
  | (k, v) :: rest => by
      unfold JsValue.persistedMembers
      split
      · exact (keys_persistedMembers rest).cons k
      · exact (keys_persistedMembers rest).cons_cons k

theorem objectOf_of_nodup {members : List (String × JsValue)}
    (h : (members.map Prod.fst).Nodup) : objectOf members = .obj members :=
  congrArg (fun m : JsMap JsValue => JsValue.obj m.entries) (JsMap.ofEntries_entries ⟨members, h⟩)

/-! The three parsers call one another with less fuel, so what each reads back is
shown for all three at once, by induction on the fuel. -/

section Reading

variable (gap : List Char)

def ReadsValue (fuel : Nat) : Prop :=
  ∀ (v : JsValue) (indent rest : List Char), Blank indent → v.WellFormed →
    (render gap indent v).length ≤ fuel → Delimited rest →
    parseValue fuel (render gap indent v ++ rest) = some (v.persisted, rest)

def ReadsItems (fuel : Nat) : Prop :=
  ∀ (items : List JsValue) (indent brk brk' rest p : List Char) (ps : List (List Char)),
    Blank indent → Blank brk → Blank brk' → JsValue.WellFormedItems items →
    renderItems gap indent items = p :: ps → (p ++ following brk ps).length + 1 ≤ fuel →
    parseItems fuel (p ++ (following brk ps ++ (brk' ++ ']' :: rest))) =
      some (JsValue.persistedItems items, rest)

def ReadsMembers (fuel : Nat) : Prop :=
  ∀ (members : List (String × JsValue)) (indent brk brk' rest p : List Char)
    (ps : List (List Char)),
    Blank indent → Blank brk → Blank brk' → JsValue.WellFormedMembers members →
    renderMembers gap indent members = p :: ps → (p ++ following brk ps).length + 1 ≤ fuel →
    parseMembers fuel (p ++ (following brk ps ++ (brk' ++ '\x7d' :: rest))) =
      some (JsValue.persistedMembers members, rest)

variable {gap}

/-- What follows a part ends a numeral: a separator or the closing bracket. -/
theorem delimited_following {brk brk' : List Char} (hbrk' : Blank brk') {closing : Char}
    (hclosing : closing = ',' ∨ closing = ']' ∨ closing = '\x7d') (ps : List (List Char))
    (rest : List Char) : Delimited (following brk ps ++ (brk' ++ closing :: rest)) := by
  cases ps with
  | nil => exact delimited_blank hbrk' hclosing rest
  | cons q qs => exact delimited_blank (show Blank [] by simp [Blank]) (Or.inl rfl) _

theorem readsItems_succ {fuel : Nat} (hvalue : ReadsValue gap fuel)
    (hitems : ReadsItems gap fuel) : ReadsItems gap (fuel + 1) := by
  intro items indent brk brk' rest p ps hindent hbrk hbrk' hwf hparts hfuel
  cases items with
  | nil => cases hparts
  | cons v vs =>
      obtain ⟨rfl, hps⟩ := List.cons.inj hparts
      simp only [List.length_append] at hfuel
      have hv := hvalue v indent (following brk ps ++ (brk' ++ ']' :: rest)) hindent hwf.1
        (by omega) (delimited_following hbrk' (by simp) ps rest)
      rw [parseItems, hv, Option.bind_some]
      cases ps with
      | nil =>
          rw [renderItems_eq_nil hps]
          simp only [following, List.flatMap_nil, List.nil_append, skipSpace_append hbrk']
          rw [skipSpace_cons (by decide)]
          rfl
      | cons q qs =>
          simp only [following, List.flatMap_cons, List.cons_append, List.append_assoc,
            List.length_cons, List.length_append] at hfuel ⊢
          have hrest := hitems vs indent brk brk' rest q qs hindent hbrk hbrk' hwf.2 hps
            (by simp only [following, List.length_append]; omega)
          rw [skipSpace_cons (by decide)]
          simp only [parseItems_append hbrk]
          rw [following] at hrest
          rw [hrest]
          rfl

theorem readsMembers_succ {fuel : Nat} (hvalue : ReadsValue gap fuel)
    (hmembers : ReadsMembers gap fuel) : ReadsMembers gap (fuel + 1) := by
  intro members
  induction members with
  | nil =>
      intro indent brk brk' rest p ps _ _ _ _ hparts
      cases hparts
  | cons member members ih =>
      obtain ⟨k, v⟩ := member
      intro indent brk brk' rest p ps hindent hbrk hbrk' hwf hparts hfuel
      unfold renderMembers at hparts
      unfold JsValue.persistedMembers
      split at hparts
      · next hdropped =>
          rw [if_pos hdropped]
          exact ih indent brk brk' rest p ps hindent hbrk hbrk' hwf.2 hparts hfuel
      · next hkept =>
          rw [if_neg hkept]
          obtain ⟨rfl, hps⟩ := List.cons.inj hparts
          have hsep : Blank (if gap = [] then [] else [' ']) := by
            split
            · simp [Blank]
            · intro c hc
              rw [List.mem_singleton.1 hc]
              decide
          simp only [List.length_append, List.length_cons, quoted, List.length_nil] at hfuel
          have hv := hvalue v indent (following brk ps ++ (brk' ++ '\x7d' :: rest)) hindent hwf.1
            (by omega) (delimited_following hbrk' (by simp) ps rest)
          simp only [quoted, List.cons_append, List.append_assoc, List.nil_append]
          rw [parseMembers, skipSpace_cons (by decide)]
          simp only [parseString_quoted, Option.bind_some]
          rw [skipSpace_cons (by decide)]
          simp only [parseValue_append hsep, hv, Option.bind_some]
          cases ps with
          | nil =>
              rw [persistedMembers_of_renderMembers hps]
              simp only [following, List.flatMap_nil, List.nil_append, skipSpace_append hbrk']
              rw [skipSpace_cons (by decide)]
              rfl
          | cons q qs =>
              simp only [following, List.flatMap_cons, List.cons_append, List.append_assoc,
                List.length_cons, List.length_append] at hfuel ⊢
              have hrest := hmembers members indent brk brk' rest q qs hindent hbrk hbrk' hwf.2
                hps (by simp only [following, List.length_append]; omega)
              rw [skipSpace_cons (by decide)]
              simp only [parseMembers_append hbrk]
              rw [following] at hrest
              rw [hrest]
              rfl

theorem parseValue_numeral {c : Char} (hc : c = '-' ∨ c.isDigit = true) (fuel : Nat)
    (cs : List Char) : parseValue (fuel + 1) (c :: cs) =
      (readNumeral (c :: cs)).map fun r => (.num (.fin r.1), r.2) := by
  have hne : ∀ d : Char, d ≠ '-' → d.isDigit = false → c ≠ d := by
    rintro d hminus hdigit rfl
    rcases hc with hc | hc
    · exact hminus hc
    · rw [hdigit] at hc
      cases hc
  have hspace : isJsonSpace c = false := by
    cases h : isJsonSpace c with
    | false => rfl
    | true =>
        simp only [isJsonSpace, Bool.or_eq_true, beq_iff_eq] at h
        rcases h with ((h | h) | h) | h <;> exact absurd h (hne _ (by decide) (by decide))
  simp only [parseValue, skipSpace_cons hspace, hne '"' (by decide) (by decide),
    hne '[' (by decide) (by decide), hne '\x7b' (by decide) (by decide),
    hne 'n' (by decide) (by decide), hne 't' (by decide) (by decide),
    hne 'f' (by decide) (by decide), if_false]

theorem parseValue_null (fuel : Nat) (rest : List Char) :
    parseValue (fuel + 1) (['n', 'u', 'l', 'l'] ++ rest) = some (.null, rest) := rfl

theorem blank_nil : Blank [] := fun _ hc => by cases hc

theorem readsValue_succ (hgap : Blank gap) {fuel : Nat} (hitems : ReadsItems gap fuel)
    (hmembers : ReadsMembers gap fuel) : ReadsValue gap (fuel + 1) := by
  intro v indent rest hindent hwf hfuel hrest
  have hbrk : Blank (lineBreak gap (indent ++ gap)) := blank_lineBreak (hindent.append hgap)
  have hbrk' : Blank (lineBreak gap indent) := blank_lineBreak hindent
  cases v with
  | bool b => cases b <;> rfl
  | num x =>
      cases x with
      | fin q =>
          obtain ⟨c, cs, hcs, hc⟩ := decimalText_head (JsNumber.shown q)
          have hread := JsNumber.readNumeral_decimalText (JsNumber.terminates_shown q) hrest
          show parseValue (fuel + 1) (JsNumber.decimalText (JsNumber.shown q) ++ rest) = _
          rw [hcs, List.cons_append] at hread ⊢
          rw [parseValue_numeral hc, hread]
          rfl
      | nan => exact parseValue_null fuel rest
      | posInf => exact parseValue_null fuel rest
      | negInf => exact parseValue_null fuel rest
  | str s =>
      simp only [render, quoted, List.cons_append, List.append_assoc, List.nil_append]
      rw [parseValue, skipSpace_cons (by decide)]
      simp only [if_true, parseString_quoted]
      rfl
  | arr items =>
      have hopen : ∀ cs, parseValue (fuel + 1) ('[' :: cs) =
          match skipSpace cs with
          | ']' :: rest => some (.arr [], rest)
          | rest => (parseItems fuel rest).map fun r => (.arr r.1, r.2) := fun cs => rfl
      simp only [render] at hfuel ⊢
      cases hparts : renderItems gap (indent ++ gap) items with
      | nil =>
          rw [renderItems_eq_nil hparts]
          rfl
      | cons p ps =>
          simp only [hparts, bracketed, List.length_cons, List.length_append,
            List.length_nil] at hfuel
          have hread := hitems items (indent ++ gap) _ _ rest p ps (hindent.append hgap) hbrk hbrk'
            hwf hparts (by simp only [following, List.length_append]; omega)
          simp only [bracketed, List.cons_append, List.append_assoc, List.nil_append]
          rw [hopen, skipSpace_append hbrk]
          cases items with
          | nil => cases hparts
          | cons w ws =>
              obtain ⟨c, cs, hcs, hspace, hc⟩ := render_head gap (indent ++ gap) w
              have hp : p = c :: cs := by rw [← hcs, ← (List.cons.inj hparts).1]
              rw [following] at hread
              rw [hp, List.cons_append] at hread ⊢
              rw [skipSpace_cons hspace]
              split
              · next heq => exact absurd (List.cons.inj heq).1 hc
              · rw [hread]
                rfl
  | obj members =>
      have hopen : ∀ cs, parseValue (fuel + 1) ('\x7b' :: cs) =
          match skipSpace cs with
          | '\x7d' :: rest => some (.obj [], rest)
          | rest => (parseMembers fuel rest).map fun r => (objectOf r.1, r.2) := fun cs => rfl
      have hkept : (JsValue.persistedMembers members).map Prod.fst |>.Nodup :=
        hwf.1.sublist (keys_persistedMembers members)
      simp only [render] at hfuel ⊢
      cases hparts : renderMembers gap (indent ++ gap) members with
      | nil =>
          rw [JsValue.persisted, persistedMembers_of_renderMembers hparts]
          rfl
      | cons p ps =>
          simp only [hparts, bracketed, List.length_cons, List.length_append,
            List.length_nil] at hfuel
          have hread := hmembers members (indent ++ gap) _ _ rest p ps (hindent.append hgap) hbrk
            hbrk' hwf.2 hparts (by simp only [following, List.length_append]; omega)
          have hp : ∃ cs, p = '"' :: cs := renderMembers_head hparts
          obtain ⟨cs, rfl⟩ := hp
          simp only [bracketed, List.cons_append, List.append_assoc, List.nil_append]
          rw [hopen, skipSpace_append hbrk, skipSpace_cons (by decide)]
          rw [following, List.cons_append] at hread
          split
          · next heq => exact absurd (List.cons.inj heq).1 (by decide)
          · rw [hread, Option.map_some, objectOf_of_nodup hkept]
            rfl
  | undefined => exact parseValue_null fuel rest
  | null => exact parseValue_null fuel rest
  | function => exact parseValue_null fuel rest
  | symbol => exact parseValue_null fuel rest

theorem reads_all (hgap : Blank gap) (fuel : Nat) :
    ReadsValue gap fuel ∧ ReadsItems gap fuel ∧ ReadsMembers gap fuel := by
  induction fuel with
  | zero =>
      refine ⟨?_, ?_, ?_⟩
      · intro v indent rest _ _ hfuel
        obtain ⟨c, cs, hcs, -⟩ := render_head gap indent v
        rw [hcs] at hfuel
        cases hfuel
      · intro _ _ _ _ _ _ _ _ _ _ _ _ hfuel
        cases hfuel
      · intro _ _ _ _ _ _ _ _ _ _ _ _ hfuel
        cases hfuel
  | succ fuel ih =>
      obtain ⟨hvalue, hitems, hmembers⟩ := ih
      exact ⟨readsValue_succ hgap hitems hmembers, readsItems_succ hvalue hitems,
        readsMembers_succ hvalue hmembers⟩

end Reading

/-- **What `JSON.stringify` writes, `JSON.parse` reads back**: the value with
what JSON drops left out, at any indentation. -/
theorem parse_stringify {spaces : Nat} {v : JsValue} {text : String} (hv : v.WellFormed)
    (h : stringify spaces v = some text) : parse text = some v.persisted := by
  unfold stringify at h
  split at h
  · cases h
  · cases h
    have hgap : Blank (List.replicate spaces ' ') := by
      intro c hc
      rw [(List.mem_replicate.1 hc).2]
      decide
    have hread := (reads_all hgap _).1 v [] [] blank_nil hv le_rfl (fun c hc => by cases hc)
    rw [List.append_nil] at hread
    simp only [parse, String.toList_ofList, hread, Option.bind_some]
    rfl

end Json

/-! ## Reading back twice -/

namespace JsValue

open Json

mutual

/-- What was read back from a text is read back from its own text. -/
theorem stable_persisted : ∀ (v : JsValue), v.WellFormed → v.persisted.Stable
  | .num (.fin q), _ => stable_num (JsNumber.terminates_shown q)
  | .arr items, h => stable_arr (stable_persistedItems items h)
  | .obj members, h =>
      stable_obj (h.1.sublist (keys_persistedMembers members))
        (stable_persistedMembers members h.2)
  | .bool _, _ => ⟨rfl, rfl, trivial⟩
  | .str s, _ => stable_str s
  | .undefined, _ | .null, _ | .function, _ | .symbol, _ => stable_null
  | .num .nan, _ | .num .posInf, _ | .num .negInf, _ => stable_null

theorem stable_persistedItems : ∀ (items : List JsValue), WellFormedItems items →
    ∀ w ∈ persistedItems items, w.Stable
  | [], _, _, hw => by cases hw
  | v :: vs, h, w, hw => by
      rcases List.mem_cons.1 hw with rfl | hrest
      · exact stable_persisted v h.1
      · exact stable_persistedItems vs h.2 w hrest

theorem stable_persistedMembers : ∀ (members : List (String × JsValue)),
    WellFormedMembers members → ∀ m ∈ persistedMembers members, m.2.Stable
  | [], _, _, hm => by cases hm
  | (k, v) :: rest, h, m, hm => by
      unfold persistedMembers at hm
      split at hm
      · exact stable_persistedMembers rest h.2 m hm
      · rcases List.mem_cons.1 hm with rfl | hrest
        · exact stable_persisted v h.1
        · exact stable_persistedMembers rest h.2 m hrest

end

end JsValue

end AgentWorth.Js
