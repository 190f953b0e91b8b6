import AgentWorth.Lib.Double
import AgentWorth.Lib.Fields

/-!
# Sign-in messages

`formatSiwaMessage` and `parseSiwaMessage` of `src/identity/siwa.ts`.  The
parser looks a field up on the first line of the whole text that starts with
its label, so the header, the address and the statement can stand in for a
field below them.
-/

namespace AgentWorth

open AgentWorth.Js

/-- `SiwaMessage`, whose version is always `1`. -/
structure SiwaMessage where
  domain : String
  address : String
  uri : String
  agentId : String
  agentRegistry : String
  chainId : JsNumber
  nonce : String
  issuedAt : String
  expirationTime : Option String
  notBefore : Option String
  requestId : Option String
  statement : Option String
  deriving DecidableEq

/-! ## Formatting -/

def headerSuffix : List Char := " wants you to sign in with your Agent account:".toList

/-- The lines before the fields. -/
def SiwaMessage.preamble (m : SiwaMessage) : List (List Char) :=
  [m.domain.toList ++ headerSuffix, m.address.toList, []] ++
    match m.statement with
    | some statement => [statement.toList, []]
    | none => []

/-- The fields in the order of their lines. -/
def SiwaMessage.fields (m : SiwaMessage) : List (String × List Char) :=
  [("URI", m.uri.toList), ("Version", "1".toList), ("Agent ID", m.agentId.toList),
      ("Agent Registry", m.agentRegistry.toList), ("Chain ID", numberText m.chainId),
      ("Nonce", m.nonce.toList), ("Issued At", m.issuedAt.toList)] ++
    (m.expirationTime.toList.map fun t => ("Expiration Time", t.toList)) ++
    (m.notBefore.toList.map fun t => ("Not Before", t.toList)) ++
    (m.requestId.toList.map fun t => ("Request ID", t.toList))

def SiwaMessage.lines (m : SiwaMessage) : List (List Char) :=
  m.preamble ++ m.fields.map fieldLine

def formatSiwaMessage (m : SiwaMessage) : String :=
  String.ofList (['\n'].intercalate m.lines)

/-! ## Parsing -/

/-- What `.` of a regular expression does not match. -/
def isLineTerminator (c : Char) : Bool :=
  c == '\n' || c == '\r' || c == '\u2028' || c == '\u2029'

/-- `/^(.*) wants you to sign in with your Agent account:$/`. -/
def headerDomain (header : List Char) : Option (List Char) :=
  if headerSuffix.isSuffixOf header then
    let domain := header.take (header.length - headerSuffix.length)
    if domain.any isLineTerminator then none else some domain
  else none

/-- A required field, which must not be empty. -/
def requiredField (lines : List (List Char)) (key : String) : Option (List Char) :=
  (field lines key).filter (· ≠ [])

/-- The fourth line, unless it is where the fields start. -/
def statementLine (lines : List (List Char)) : Option (List Char) :=
  lines[3]?.filter fun line => !(label "URI").isPrefixOf line

def parseSiwaLines (lines : List (List Char)) : Except String SiwaMessage :=
  match headerDomain (lines[0]?.getD []) with
  | none => .error "SIWA: malformed header line"
  | some domain =>
      let address := lines[1]?.getD []
      if address = [] then .error "SIWA: missing address line"
      else
        match requiredField lines "URI", requiredField lines "Agent ID",
          requiredField lines "Agent Registry", requiredField lines "Chain ID",
          requiredField lines "Nonce", requiredField lines "Issued At" with
        | some uri, some agentId, some agentRegistry, some chainIdStr, some nonce,
          some issuedAt =>
            .ok
              { domain := String.ofList domain
                address := String.ofList address
                uri := String.ofList uri
                agentId := String.ofList agentId
                agentRegistry := String.ofList agentRegistry
                chainId := toNumber chainIdStr
                nonce := String.ofList nonce
                issuedAt := String.ofList issuedAt
                expirationTime := (field lines "Expiration Time").map String.ofList
                notBefore := (field lines "Not Before").map String.ofList
                requestId := (field lines "Request ID").map String.ofList
                statement := (statementLine lines).map String.ofList }
        | _, _, _, _, _, _ => .error "SIWA: missing one or more required fields"

def parseSiwaMessage (text : String) : Except String SiwaMessage :=
  parseSiwaLines (text.toList.splitOn '\n')

/-! ## What the parser accepts -/

/-- The lines carry the message. -/
structure Carries (lines : List (List Char)) (m : SiwaMessage) : Prop where
  header : headerDomain (lines[0]?.getD []) = some m.domain.toList
  address : lines[1]?.getD [] = m.address.toList
  address_ne : m.address ≠ ""
  uri : requiredField lines "URI" = some m.uri.toList
  agentId : requiredField lines "Agent ID" = some m.agentId.toList
  agentRegistry : requiredField lines "Agent Registry" = some m.agentRegistry.toList
  chainId : (requiredField lines "Chain ID").map toNumber = some m.chainId
  nonce : requiredField lines "Nonce" = some m.nonce.toList
  issuedAt : requiredField lines "Issued At" = some m.issuedAt.toList
  expirationTime : field lines "Expiration Time" = m.expirationTime.map String.toList
  notBefore : field lines "Not Before" = m.notBefore.map String.toList
  requestId : field lines "Request ID" = m.requestId.map String.toList
  statement : statementLine lines = m.statement.map String.toList

theorem ofList_eq_iff {cs : List Char} {s : String} : String.ofList cs = s ↔ cs = s.toList := by
  constructor
  · rintro rfl
    rw [String.toList_ofList]
  · rintro rfl
    rw [String.ofList_toList]

theorem map_ofList_eq_iff {o : Option (List Char)} {o' : Option String} :
    o.map String.ofList = o' ↔ o = o'.map String.toList := by
  cases o <;> cases o' <;> simp [ofList_eq_iff]

theorem parseSiwaLines_eq_ok_iff {lines : List (List Char)} {m : SiwaMessage} :
    parseSiwaLines lines = .ok m ↔ Carries lines m := by
  constructor
  · intro h
    unfold parseSiwaLines at h
    split at h
    · cases h
    · next domain hheader =>
        dsimp only at h
        split at h
        · cases h
        · next haddress =>
            split at h
            · next uri agentId registry chainIdStr nonce issuedAt huri hagent hregistry hchain
                  hnonce hissued =>
                have hm := Except.ok.inj h
                subst hm
                exact
                  { header := by rw [hheader, String.toList_ofList]
                    address := (String.toList_ofList).symm
                    address_ne := fun hempty => haddress (ofList_eq_iff.1 hempty)
                    uri := by rw [huri, String.toList_ofList]
                    agentId := by rw [hagent, String.toList_ofList]
                    agentRegistry := by rw [hregistry, String.toList_ofList]
                    chainId := by rw [hchain, Option.map_some]
                    nonce := by rw [hnonce, String.toList_ofList]
                    issuedAt := by rw [hissued, String.toList_ofList]
                    expirationTime := map_ofList_eq_iff.1 rfl
                    notBefore := map_ofList_eq_iff.1 rfl
                    requestId := map_ofList_eq_iff.1 rfl
                    statement := map_ofList_eq_iff.1 rfl }
            · cases h
  · intro h
    obtain ⟨chainIdStr, hchain, hnumber⟩ := Option.map_eq_some_iff.1 h.chainId
    have haddress : m.address.toList ≠ [] := fun hempty =>
      h.address_ne (String.toList_injective hempty)
    unfold parseSiwaLines
    rw [h.header]
    dsimp only
    rw [h.address, if_neg haddress, h.uri, h.agentId, h.agentRegistry, hchain, h.nonce,
      h.issuedAt]
    dsimp only
    rw [map_ofList_eq_iff.2 h.expirationTime, map_ofList_eq_iff.2 h.notBefore,
      map_ofList_eq_iff.2 h.requestId, map_ofList_eq_iff.2 h.statement, hnumber]
    simp only [String.ofList_toList]

/-! ## Formatted and parsed -/

/-- Every field is on one line. -/
structure SiwaMessage.OneLine (m : SiwaMessage) : Prop where
  domain : Js.OneLine m.domain.toList
  address : Js.OneLine m.address.toList
  uri : Js.OneLine m.uri.toList
  agentId : Js.OneLine m.agentId.toList
  agentRegistry : Js.OneLine m.agentRegistry.toList
  nonce : Js.OneLine m.nonce.toList
  issuedAt : Js.OneLine m.issuedAt.toList
  expirationTime : ∀ t ∈ m.expirationTime, Js.OneLine t.toList
  notBefore : ∀ t ∈ m.notBefore, Js.OneLine t.toList
  requestId : ∀ t ∈ m.requestId, Js.OneLine t.toList
  statement : ∀ t ∈ m.statement, Js.OneLine t.toList

/-- The required fields are not empty, and the domain is one a header can
name. -/
structure SiwaMessage.Filled (m : SiwaMessage) : Prop where
  domain : ∀ c ∈ m.domain.toList, isLineTerminator c = false
  address : m.address ≠ ""
  uri : m.uri ≠ ""
  agentId : m.agentId ≠ ""
  agentRegistry : m.agentRegistry ≠ ""
  nonce : m.nonce ≠ ""
  issuedAt : m.issuedAt ≠ ""

/-- No line before the fields is taken for one of them with another value, nor
the statement for the first field. -/
structure SiwaMessage.Unshadowed (m : SiwaMessage) : Prop where
  uri : ∀ v ∈ field m.preamble "URI", v = m.uri.toList
  agentId : ∀ v ∈ field m.preamble "Agent ID", v = m.agentId.toList
  agentRegistry : ∀ v ∈ field m.preamble "Agent Registry", v = m.agentRegistry.toList
  chainId : ∀ v ∈ field m.preamble "Chain ID", v ≠ [] ∧ toNumber v = m.chainId
  nonce : ∀ v ∈ field m.preamble "Nonce", v = m.nonce.toList
  issuedAt : ∀ v ∈ field m.preamble "Issued At", v = m.issuedAt.toList
  expirationTime : ∀ v ∈ field m.preamble "Expiration Time",
    m.expirationTime = some (String.ofList v)
  notBefore : ∀ v ∈ field m.preamble "Not Before", m.notBefore = some (String.ofList v)
  requestId : ∀ v ∈ field m.preamble "Request ID", m.requestId = some (String.ofList v)
  statement : ∀ s ∈ m.statement, ¬ label "URI" <+: s.toList

theorem SiwaMessage.OneLine.lines {m : SiwaMessage} (h : m.OneLine) :
    ∀ line ∈ m.lines, Js.OneLine line := by
  intro line hline
  have hlabel : ∀ (key : String) {v : List Char}, Js.OneLine key.toList → Js.OneLine v →
      Js.OneLine (fieldLine (key, v)) := fun key v hkey hv =>
    oneLine_append.2 ⟨oneLine_append.2 ⟨hkey, by decide⟩, hv⟩
  rcases List.mem_append.1 hline with hpre | hfields
  · unfold SiwaMessage.preamble at hpre
    rcases List.mem_append.1 hpre with hhead | hstatement
    · simp only [List.mem_cons, List.not_mem_nil, or_false] at hhead
      rcases hhead with rfl | rfl | rfl
      · exact oneLine_append.2 ⟨h.domain, by decide⟩
      · exact h.address
      · exact oneLine_nil
    · cases hs : m.statement with
      | none =>
          rw [hs] at hstatement
          cases hstatement
      | some s =>
          simp only [hs, List.mem_cons, List.not_mem_nil, or_false] at hstatement
          rcases hstatement with rfl | rfl
          · exact h.statement s hs
          · exact oneLine_nil
  · obtain ⟨entry, hentry, rfl⟩ := List.mem_map.1 hfields
    simp only [SiwaMessage.fields, List.mem_append, List.mem_cons, List.not_mem_nil, or_false,
      List.mem_map, Option.mem_toList] at hentry
    rcases hentry with (((rfl | rfl | rfl | rfl | rfl | rfl | rfl) | ⟨t, ht, rfl⟩) |
      ⟨t, ht, rfl⟩) | ⟨t, ht, rfl⟩
    · exact hlabel _ (by decide) h.uri
    · exact hlabel _ (by decide) (by decide)
    · exact hlabel _ (by decide) h.agentId
    · exact hlabel _ (by decide) h.agentRegistry
    · exact hlabel _ (by decide) (oneLine_numberText _)
    · exact hlabel _ (by decide) h.nonce
    · exact hlabel _ (by decide) h.issuedAt
    · exact hlabel _ (by decide) (h.expirationTime t ht)
    · exact hlabel _ (by decide) (h.notBefore t ht)
    · exact hlabel _ (by decide) (h.requestId t ht)

/-- The lines are read off the text. -/
theorem splitOn_formatSiwaMessage {m : SiwaMessage} (h : m.OneLine) :
    (formatSiwaMessage m).toList.splitOn '\n' = m.lines := by
  rw [formatSiwaMessage, String.toList_ofList]
  exact List.splitOn_intercalate '\n' h.lines (by simp [SiwaMessage.lines, SiwaMessage.preamble])

theorem SiwaMessage.keys_fields (m : SiwaMessage) : ∀ e ∈ m.fields, ':' ∉ e.1.toList := by
  intro entry hentry
  simp only [SiwaMessage.fields, List.mem_append, List.mem_cons, List.not_mem_nil, or_false,
    List.mem_map, Option.mem_toList] at hentry
  rcases hentry with (((rfl | rfl | rfl | rfl | rfl | rfl | rfl) | ⟨t, ht, rfl⟩) |
    ⟨t, ht, rfl⟩) | ⟨t, ht, rfl⟩ <;> dsimp only <;> decide

/-- A field is read off the first line before the fields that starts with its
label, or else off its own line. -/
theorem SiwaMessage.field_lines (m : SiwaMessage) {key : String} (hkey : ':' ∉ key.toList) :
    field m.lines key = (field m.preamble key).or (m.fields.lookup key) := by
  rw [SiwaMessage.lines, field_append, field_map_fieldLine hkey m.keys_fields]

/-- The line of each field. -/
theorem SiwaMessage.lookup_fields (m : SiwaMessage) :
    m.fields.lookup "URI" = some m.uri.toList ∧
      m.fields.lookup "Agent ID" = some m.agentId.toList ∧
      m.fields.lookup "Agent Registry" = some m.agentRegistry.toList ∧
      m.fields.lookup "Chain ID" = some (numberText m.chainId) ∧
      m.fields.lookup "Nonce" = some m.nonce.toList ∧
      m.fields.lookup "Issued At" = some m.issuedAt.toList ∧
      m.fields.lookup "Expiration Time" = m.expirationTime.map String.toList ∧
      m.fields.lookup "Not Before" = m.notBefore.map String.toList ∧
      m.fields.lookup "Request ID" = m.requestId.map String.toList := by
  unfold SiwaMessage.fields
  cases m.expirationTime <;> cases m.notBefore <;> cases m.requestId <;>
    simp [List.lookup_cons]

theorem or_eq_some_iff {α : Type} {o : Option α} {own : α} :
    o.or (some own) = some own ↔ ∀ v ∈ o, v = own := by
  cases o <;> simp

theorem requiredField_lines_iff {m : SiwaMessage} {key : String} (hkey : ':' ∉ key.toList)
    {own : List Char} (hown : m.fields.lookup key = some own) (hne : own ≠ []) :
    requiredField m.lines key = some own ↔ ∀ v ∈ field m.preamble key, v = own := by
  rw [requiredField, m.field_lines hkey, hown, Option.filter_eq_some_iff, or_eq_some_iff]
  simp [hne]

theorem optionalField_lines_iff {m : SiwaMessage} {key : String} (hkey : ':' ∉ key.toList)
    {own : Option String} (hown : m.fields.lookup key = own.map String.toList) :
    field m.lines key = own.map String.toList ↔
      ∀ v ∈ field m.preamble key, own = some (String.ofList v) := by
  rw [m.field_lines hkey, hown]
  cases hfield : field m.preamble key with
  | none => simp
  | some v =>
      rw [Option.some_or, ← map_ofList_eq_iff, Option.map_some]
      simp [eq_comm]

theorem chainId_lines_iff (m : SiwaMessage) :
    (requiredField m.lines "Chain ID").map toNumber = some m.chainId ↔
      (∀ v ∈ field m.preamble "Chain ID", v ≠ [] ∧ toNumber v = m.chainId) ∧
        (field m.preamble "Chain ID" = none →
          numberText m.chainId ≠ [] ∧ toNumber (numberText m.chainId) = m.chainId) := by
  rw [requiredField, m.field_lines (by decide), m.lookup_fields.2.2.2.1]
  cases field m.preamble "Chain ID" with
  | none => simp
  | some v => simp

theorem headerDomain_eq_some_iff {header domain : List Char} :
    headerDomain header = some domain ↔
      header = domain ++ headerSuffix ∧ ∀ c ∈ domain, isLineTerminator c = false := by
  unfold headerDomain
  constructor
  · intro h
    split at h
    · next hsuffix =>
        obtain ⟨front, rfl⟩ := List.isSuffixOf_iff_suffix.1 hsuffix
        rw [List.length_append, Nat.add_sub_cancel, List.take_left] at h
        dsimp only at h
        split at h
        · cases h
        · next hfree =>
            cases h
            refine ⟨rfl, fun c hc => ?_⟩
            rw [← Bool.not_eq_true]
            exact fun hterm => hfree (List.any_eq_true.2 ⟨c, hc, hterm⟩)
    · cases h
  · rintro ⟨rfl, hfree⟩
    rw [if_pos (List.isSuffixOf_iff_suffix.2 ⟨domain, rfl⟩), List.length_append,
      Nat.add_sub_cancel, List.take_left]
    dsimp only
    rw [if_neg]
    rw [List.any_eq_true]
    rintro ⟨c, hc, hterm⟩
    rw [hfree c hc] at hterm
    cases hterm

/-- The fourth line is the statement, or the first field where there is none. -/
theorem statementLine_lines_iff (m : SiwaMessage) :
    statementLine m.lines = m.statement.map String.toList ↔
      ∀ s ∈ m.statement, ¬ label "URI" <+: s.toList := by
  cases hs : m.statement with
  | none =>
      have hfourth : m.lines[3]? = some (fieldLine ("URI", m.uri.toList)) := by
        simp [SiwaMessage.lines, SiwaMessage.preamble, hs, SiwaMessage.fields]
      have hstarts : (label "URI").isPrefixOf (fieldLine ("URI", m.uri.toList)) = true :=
        List.isPrefixOf_iff_prefix.2 ⟨_, rfl⟩
      rw [statementLine, hfourth, Option.filter_some, hstarts]
      simp
  | some s =>
      have hfourth : m.lines[3]? = some s.toList := by
        simp [SiwaMessage.lines, SiwaMessage.preamble, hs]
      rw [statementLine, hfourth, Option.filter_some]
      by_cases hstarts : label "URI" <+: s.toList
      · simp [List.isPrefixOf_iff_prefix.2 hstarts, hstarts]
      · have hother : (label "URI").isPrefixOf s.toList = false := by
          rwa [← Bool.not_eq_true, List.isPrefixOf_iff_prefix]
        simp [hother, hstarts]

/-- The number of the chain, where its own line is the one that is read, is one
its text gives back. -/
def SiwaMessage.ChainReadable (m : SiwaMessage) : Prop :=
  field m.preamble "Chain ID" = none →
    numberText m.chainId ≠ [] ∧ toNumber (numberText m.chainId) = m.chainId

/-- A message is read back exactly if nothing shadows it. -/
theorem parse_formatSiwaMessage_iff {m : SiwaMessage} (hline : m.OneLine) (hfilled : m.Filled) :
    parseSiwaMessage (formatSiwaMessage m) = .ok m ↔ m.Unshadowed ∧ m.ChainReadable := by
  have hnonempty : ∀ {s : String}, s ≠ "" → s.toList ≠ [] := fun hs hempty =>
    hs (String.toList_injective hempty)
  obtain ⟨huri, hagent, hregistry, -, hnonce, hissued, hexpiration, hbefore, hrequest⟩ :=
    m.lookup_fields
  have hurii := requiredField_lines_iff (by decide) huri (hnonempty hfilled.uri)
  have hagenti := requiredField_lines_iff (by decide) hagent (hnonempty hfilled.agentId)
  have hregistryi :=
    requiredField_lines_iff (by decide) hregistry (hnonempty hfilled.agentRegistry)
  have hnoncei := requiredField_lines_iff (by decide) hnonce (hnonempty hfilled.nonce)
  have hissuedi := requiredField_lines_iff (by decide) hissued (hnonempty hfilled.issuedAt)
  have hexpirationi := optionalField_lines_iff (by decide) hexpiration
  have hbeforei := optionalField_lines_iff (by decide) hbefore
  have hrequesti := optionalField_lines_iff (by decide) hrequest
  rw [parseSiwaMessage, splitOn_formatSiwaMessage hline, parseSiwaLines_eq_ok_iff]
  constructor
  · intro h
    obtain ⟨hshadow, hown⟩ := (chainId_lines_iff m).1 h.chainId
    refine ⟨?_, hown⟩
    exact
      { uri := hurii.1 h.uri
        agentId := hagenti.1 h.agentId
        agentRegistry := hregistryi.1 h.agentRegistry
        chainId := hshadow
        nonce := hnoncei.1 h.nonce
        issuedAt := hissuedi.1 h.issuedAt
        expirationTime := hexpirationi.1 h.expirationTime
        notBefore := hbeforei.1 h.notBefore
        requestId := hrequesti.1 h.requestId
        statement := (statementLine_lines_iff m).1 h.statement }
  · rintro ⟨h, hown⟩
    exact
      { header := headerDomain_eq_some_iff.2 ⟨rfl, hfilled.domain⟩
        address := rfl
        address_ne := hfilled.address
        uri := hurii.2 h.uri
        agentId := hagenti.2 h.agentId
        agentRegistry := hregistryi.2 h.agentRegistry
        chainId := (chainId_lines_iff m).2 ⟨h.chainId, hown⟩
        nonce := hnoncei.2 h.nonce
        issuedAt := hissuedi.2 h.issuedAt
        expirationTime := hexpirationi.2 h.expirationTime
        notBefore := hbeforei.2 h.notBefore
        requestId := hrequesti.2 h.requestId
        statement := (statementLine_lines_iff m).2 h.statement }

/-! ## The round trip -/

/-- The fields that every message has. -/
def SiwaMessage.required (m : SiwaMessage) : List String :=
  [m.domain, m.address, m.uri, m.agentId, m.agentRegistry, m.nonce, m.issuedAt]

/-- A message of full fields without line terminators, on a chain whose number
is a safe integer. -/
structure SiwaMessage.WellFormed (m : SiwaMessage) : Prop where
  terminators : ∀ s ∈ m.required ++ m.expirationTime.toList ++ m.notBefore.toList ++
    m.requestId.toList ++ m.statement.toList, ∀ c ∈ s.toList, isLineTerminator c = false
  nonempty : ∀ s ∈ m.required, s ≠ ""
  chainId : ∃ n : Nat, n < 2 ^ 53 ∧ m.chainId = n

theorem SiwaMessage.WellFormed.oneLine {m : SiwaMessage} (h : m.WellFormed) : m.OneLine := by
  have hterm := h.terminators
  simp only [List.mem_append, Option.mem_toList] at hterm
  have hline : ∀ s : String, (∀ c ∈ s.toList, isLineTerminator c = false) →
      Js.OneLine s.toList := by
    intro s hs hbreak
    exact absurd (hs _ hbreak) (by decide)
  have hrequired : ∀ s ∈ m.required, Js.OneLine s.toList := fun s hs =>
    hline s (hterm s (.inl (.inl (.inl (.inl hs)))))
  simp only [SiwaMessage.required, List.forall_mem_cons, List.not_mem_nil, false_implies,
    implies_true, and_true] at hrequired
  obtain ⟨hdomain, haddress, huri, hagent, hregistry, hnonce, hissued⟩ := hrequired
  exact ⟨hdomain, haddress, huri, hagent, hregistry, hnonce, hissued,
    fun t ht => hline t (hterm t (.inl (.inl (.inl (.inr ht))))),
    fun t ht => hline t (hterm t (.inl (.inl (.inr ht)))),
    fun t ht => hline t (hterm t (.inl (.inr ht))), fun t ht => hline t (hterm t (.inr ht))⟩

theorem SiwaMessage.WellFormed.filled {m : SiwaMessage} (h : m.WellFormed) : m.Filled := by
  have hne := h.nonempty
  simp only [SiwaMessage.required, List.forall_mem_cons, List.not_mem_nil, false_implies,
    implies_true, and_true] at hne
  obtain ⟨-, haddress, huri, hagent, hregistry, hnonce, hissued⟩ := hne
  exact ⟨h.terminators _ (by simp [SiwaMessage.required]), haddress, huri, hagent, hregistry,
    hnonce, hissued⟩

/-- **The round trip holds exactly where no line before the fields passes for
one of them.** -/
theorem siwa_round_trip_iff {m : SiwaMessage} (h : m.WellFormed) :
    parseSiwaMessage (formatSiwaMessage m) = .ok m ↔ m.Unshadowed := by
  obtain ⟨n, hn, hchain⟩ := h.chainId
  have hread : m.ChainReadable := by
    intro _
    rw [hchain, JsNumber.natCast_eq_fin, numberText_natCast hn, toNumber_toDigits hn]
    exact ⟨Nat.toDigits_ne_nil, rfl⟩
  rw [parse_formatSiwaMessage_iff h.oneLine h.filled]
  exact and_iff_left hread

namespace Sample

/-- A message with a statement the user chose. -/
def login (statement : String) : SiwaMessage where
  domain := "app.example.com"
  address := "0xabc"
  uri := "https://app.example.com/login"
  agentId := "42"
  agentRegistry := "eip155:8453:0xdef"
  chainId := 8453
  nonce := "abc12345"
  issuedAt := "2026-06-25T11:59:00Z"
  expirationTime := none
  notBefore := none
  requestId := none
  statement := some statement

theorem wellFormed_login {statement : String}
    (h : ∀ c ∈ statement.toList, isLineTerminator c = false) : (login statement).WellFormed where
  terminators := by
    intro s hs
    have hmem : s ∈ (login statement).required ∨ s = statement := by
      simpa [login, eq_comm] using hs
    rcases hmem with hmem | rfl
    · have hall : ∀ s ∈ (login statement).required, ∀ c ∈ s.toList,
          isLineTerminator c = false := by
        simp only [SiwaMessage.required, login, List.forall_mem_cons]
        exact ⟨forall_chars (by decide +kernel), forall_chars (by decide +kernel),
          forall_chars (by decide +kernel), forall_chars (by decide +kernel),
          forall_chars (by decide +kernel), forall_chars (by decide +kernel),
          forall_chars (by decide +kernel), fun _ h => absurd h List.not_mem_nil⟩
      exact hall s hmem
    · exact h
  nonempty := by simp [SiwaMessage.required, login]
  chainId := ⟨8453, by norm_num, rfl⟩

end Sample

open Sample in
theorem siwa_round_trip_login :
    parseSiwaMessage (formatSiwaMessage (login "I accept the terms")) =
      .ok (login "I accept the terms") := by
  have hnone : ∀ key ∈ ["URI", "Agent ID", "Agent Registry", "Chain ID", "Nonce", "Issued At",
      "Expiration Time", "Not Before", "Request ID"],
      field (login "I accept the terms").preamble key = none := by
    decide +kernel
  have hfree : ∀ {key : String} {P : List Char → Prop},
      field (login "I accept the terms").preamble key = none →
        ∀ v ∈ field (login "I accept the terms").preamble key, P v := by
    intro key P hkey v hv
    rw [hkey] at hv
    cases hv
  refine (siwa_round_trip_iff (wellFormed_login (forall_chars (by decide +kernel)))).2 ?_
  exact ⟨hfree (hnone _ (by simp)), hfree (hnone _ (by simp)), hfree (hnone _ (by simp)),
    hfree (hnone _ (by simp)), hfree (hnone _ (by simp)), hfree (hnone _ (by simp)),
    hfree (hnone _ (by simp)), hfree (hnone _ (by simp)), hfree (hnone _ (by simp)), by
      intro s hs
      cases hs
      decide +kernel⟩

open Sample in
/-- A statement that looks like a nonce replaces the nonce. -/
theorem siwa_statement_replaces_nonce :
    (login "Nonce: x").WellFormed ∧
      parseSiwaMessage (formatSiwaMessage (login "Nonce: x")) ≠ .ok (login "Nonce: x") := by
  have hwf : (login "Nonce: x").WellFormed :=
    wellFormed_login (forall_chars (by decide +kernel))
  refine ⟨hwf, ?_⟩
  rw [Ne, parse_formatSiwaMessage_iff hwf.oneLine hwf.filled]
  rintro ⟨hshadow, -⟩
  have hnonce := hshadow.nonce "x".toList (by decide +kernel)
  exact absurd hnonce (by decide +kernel)

end AgentWorth
