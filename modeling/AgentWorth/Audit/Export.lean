import AgentWorth.Core.Records
import AgentWorth.Core.Tamper

/-!
# Exported chains

`src/audit/export.ts`: the chain as a portable text, as one JSON array or with
one entry a line, and its verification from that text alone.
-/

namespace AgentWorth

open AgentWorth.Js AgentWorth.Js.Json AgentWorth.Lib

inductive AuditExportFormat where
  | json
  | jsonl
  deriving DecidableEq, Repr

/-- `JSON.stringify(e)`. -/
def entryText (e : AuditEntry) : String := (stringify 0 (entryCodec.encode e)).getD "undefined"

def exportAuditChain (entries : List AuditEntry) : AuditExportFormat → String
  | .json => (stringify 2 (.arr (entries.map entryCodec.encode))).getD "undefined"
  | .jsonl => "\n".intercalate (entries.map entryText)

/-- One line of a `jsonl` export.  There is no result when `JSON.parse` throws,
or when its result, which the source casts, is no entry. -/
def parseEntry (line : String) : Option AuditEntry := (parse line).bind entryCodec.decode

def parseLines : List String → Option (List AuditEntry)
  | [] => some []
  | line :: rest =>
      (parseEntry line).bind fun e => (parseLines rest).map fun es => e :: es

/-- `s.split("\n")`. -/
def splitLines (s : String) : List String := (s.toList.splitOn '\n').map String.ofList

/-- The format is recognised by the first character. -/
def parseAuditExport (serialized : String) : Option (List AuditEntry) :=
  let trimmed := trim serialized
  if trimmed = "" then some []
  else if trimmed.toList.head? = some '[' then
    (parse trimmed).bind (Codec.list entryCodec).decode
  else parseLines ((splitLines trimmed).filter fun l => trim l ≠ "")

/-- `verifyAuditExport`; a log must be given a key. -/
def verifyAuditExport (crypto : Crypto) (serialized operatorKey : String) :
    Option VerifyResult :=
  (parseAuditExport serialized).bind fun entries =>
    if operatorKey = "" then none
    else some (AuditLog.verify crypto ⟨operatorSigner operatorKey, entries⟩)

/-! ## Entries read back -/

/-- A plain object, as JSON sees one: no member name occurs twice. -/
def PlainObject (v : JsValue) : Prop := (∃ members, v = .obj members) ∧ v.WellFormed

theorem stringify_entry (spaces : Nat) (e : AuditEntry) :
    stringify spaces (entryCodec.encode e) =
      some (String.ofList (render (List.replicate spaces ' ') [] (entryCodec.encode e))) := rfl

theorem entryText_toList (e : AuditEntry) :
    (entryText e).toList = render [] [] (entryCodec.encode e) := by
  rw [entryText, stringify_entry, Option.getD_some, String.toList_ofList]
  rfl

theorem framed_entryText (e : AuditEntry) : Framed '\x7b' '\x7d' (entryText e).toList := by
  rw [entryText_toList]
  obtain ⟨members, hmembers⟩ : ∃ members, entryCodec.encode e = .obj members := ⟨_, rfl⟩
  rw [hmembers, render]
  exact framed_bracketed _ _ _ _ _

theorem oneLine_entryText (e : AuditEntry) : OneLine (entryText e).toList := by
  rw [entryText_toList]
  exact oneLine_render _

theorem parseEntry_entryText {e : AuditEntry} (hpayload : e.payload.WellFormed) {n : Nat}
    (hseq : e.seq = n) : parseEntry (entryText e) = some e.persisted := by
  have hparse := parse_stringify (wellFormed_entry hpayload) (stringify_entry 0 e)
  unfold parseEntry entryText
  rw [stringify_entry, Option.getD_some, hparse, Option.bind_some]
  rw [decode_persisted_entry (hseq ▸ isFinite_natCast n)]

/-- What the entries of a chain must be for their text to read back. -/
def Readable (entries : List AuditEntry) : Prop :=
  ∀ e ∈ entries, e.payload.WellFormed ∧ ∃ n : Nat, e.seq = n

theorem parseLines_entryText {entries : List AuditEntry} (h : Readable entries) :
    parseLines (entries.map entryText) = some (entries.map AuditEntry.persisted) := by
  induction entries with
  | nil => rfl
  | cons e es ih =>
      obtain ⟨hpayload, n, hseq⟩ := h e (List.mem_cons_self ..)
      have hrest := ih fun e' he' => h e' (List.mem_cons_of_mem _ he')
      rw [List.map_cons, parseLines, parseEntry_entryText hpayload hseq, Option.bind_some, hrest]
      rfl

theorem decodeAll_persistedItems {entries : List AuditEntry} (h : Readable entries) :
    entryCodec.decodeAll (JsValue.persistedItems (entries.map entryCodec.encode)) =
      some (entries.map AuditEntry.persisted) := by
  induction entries with
  | nil => rfl
  | cons e es ih =>
      obtain ⟨hpayload, n, hseq⟩ := h e (List.mem_cons_self ..)
      have hrest := ih fun e' he' => h e' (List.mem_cons_of_mem _ he')
      rw [List.map_cons, JsValue.persistedItems, Codec.decodeAll,
        decode_persisted_entry (hseq ▸ isFinite_natCast n), Option.bind_some, hrest]
      rfl

theorem wellFormedItems_entries {entries : List AuditEntry} (h : Readable entries) :
    JsValue.WellFormedItems (entries.map entryCodec.encode) := by
  induction entries with
  | nil => trivial
  | cons e es ih =>
      exact ⟨wellFormed_entry (h e (List.mem_cons_self ..)).1,
        ih fun e' he' => h e' (List.mem_cons_of_mem _ he')⟩

/-! ## Exports read back -/

theorem parse_export_json {entries : List AuditEntry} (h : Readable entries) :
    parseAuditExport (exportAuditChain entries .json) =
      some (entries.map AuditEntry.persisted) := by
  have htext : stringify 2 (.arr (entries.map entryCodec.encode)) = some (String.ofList
      (render (List.replicate 2 ' ') [] (.arr (entries.map entryCodec.encode)))) := rfl
  have hparse := parse_stringify
    (show (JsValue.arr (entries.map entryCodec.encode)).WellFormed from
      wellFormedItems_entries h) htext
  have hframed : Framed '[' ']' (String.ofList
      (render (List.replicate 2 ' ') [] (.arr (entries.map entryCodec.encode)))).toList := by
    rw [String.toList_ofList]
    exact framed_bracketed _ _ _ _ _
  have htrim := trim_framed (by decide) (by decide) hframed
  obtain ⟨mid, hmid⟩ := hframed
  unfold parseAuditExport exportAuditChain
  simp only [htext, Option.getD_some, htrim]
  rw [if_neg, if_pos, hparse, Option.bind_some]
  · exact decodeAll_persistedItems h
  · rw [hmid, List.head?_cons]
  · intro hempty
    rw [hempty] at hmid
    cases hmid

theorem splitLines_entries {entries : List AuditEntry} (hne : entries ≠ []) :
    splitLines ("\n".intercalate (entries.map entryText)) = entries.map entryText := by
  unfold splitLines
  rw [String.toList_intercalate, show "\n".toList = ['\n'] from rfl,
    List.splitOn_intercalate]
  · rw [List.map_map, List.map_map]
    exact List.map_congr_left fun e _ => String.ofList_toList
  · intro line hline
    rw [List.map_map] at hline
    obtain ⟨e, -, rfl⟩ := List.mem_map.1 hline
    exact oneLine_entryText e
  · simpa using hne

theorem parse_export_jsonl {entries : List AuditEntry} (h : Readable entries) :
    parseAuditExport (exportAuditChain entries .jsonl) =
      some (entries.map AuditEntry.persisted) := by
  by_cases hne : entries = []
  · subst hne
    rfl
  have hframed : Framed '\x7b' '\x7d' ("\n".intercalate (entries.map entryText)).toList := by
    rw [String.toList_intercalate]
    refine framed_intercalate ?_ (by simpa using hne)
    intro line hline
    rw [List.map_map] at hline
    obtain ⟨e, -, rfl⟩ := List.mem_map.1 hline
    exact framed_entryText e
  have htrim := trim_framed (by decide) (by decide) hframed
  have hnonblank : ∀ line ∈ entries.map entryText, decide (trim line ≠ "") = true := by
    intro line hline
    obtain ⟨e, -, rfl⟩ := List.mem_map.1 hline
    rw [trim_framed (by decide) (by decide) (framed_entryText e), decide_eq_true_iff]
    obtain ⟨mid, hmid⟩ := framed_entryText e
    intro hempty
    rw [hempty] at hmid
    cases hmid
  obtain ⟨mid, hmid⟩ := hframed
  unfold parseAuditExport exportAuditChain
  simp only [htrim]
  rw [if_neg, if_neg, splitLines_entries hne, List.filter_eq_self.2 hnonblank]
  · exact parseLines_entryText h
  · rw [hmid, List.head?_cons]
    decide
  · intro hempty
    rw [hempty] at hmid
    cases hmid

theorem parse_exportAuditChain {entries : List AuditEntry} (h : Readable entries)
    (format : AuditExportFormat) :
    parseAuditExport (exportAuditChain entries format) =
      some (entries.map AuditEntry.persisted) := by
  cases format with
  | json => exact parse_export_json h
  | jsonl => exact parse_export_jsonl h

/-! ## Hashes survive -/

theorem signedPart_persisted (e : AuditEntry) : e.persisted.signedPart = e.signedPart := by
  simp [AuditEntry.signedPart, AuditEntry.persisted, canonicalize_memberPersisted]

/-- A chain whose entries are linked and sealed under a key verifies under it
after its entries were parsed from their text. -/
theorem verify_persisted {crypto : Crypto} {key : String} {entries : List AuditEntry}
    (hlinked : LinkedFrom genesis entries) (hsealed : ∀ e ∈ entries, Sealed crypto key e) :
    AuditLog.verify crypto ⟨operatorSigner key, entries.map AuditEntry.persisted⟩ = .intact := by
  unfold AuditLog.verify
  rw [verifyFrom_of_sealed]
  · refine (linkedFrom_congr ?_).2 hlinked
    rw [List.map_map]
    exact List.map_congr_left fun e _ => signedPart_persisted e
  · intro e he
    obtain ⟨e₀, he₀, rfl⟩ := List.mem_map.1 he
    exact ⟨key, rfl, (hsealed e₀ he₀).congr (signedPart_persisted e₀).symm⟩

/-- **Hashes are stable under persistence and export**: parsing the text of a
plain object keeps its canonical form, and the export of a chain of such
payloads verifies, in either format. -/
theorem exported_chain_verifies :
    (∀ payload, PlainObject payload → ∃ text parsed, stringify 0 payload = some text ∧
      parse text = some parsed ∧ canonicalize parsed = canonicalize payload) ∧
    ∀ (crypto : Crypto) (key : String) (entries : List AuditEntry)
      (format : AuditExportFormat), key ≠ "" →
      Genuine crypto (operatorSigner key) entries →
      (∀ e ∈ entries, PlainObject e.payload) →
      verifyAuditExport crypto (exportAuditChain entries format) key = some .intact := by
  constructor
  · rintro payload ⟨⟨members, rfl⟩, hwf⟩
    have htext : stringify 0 (.obj members) =
        some (String.ofList (render (List.replicate 0 ' ') [] (.obj members))) := rfl
    exact ⟨_, _, htext, parse_stringify hwf htext, canonicalize_persisted _⟩
  · intro crypto key entries format hkey hgenuine hplain
    have hreadable : Readable entries := by
      intro e he
      exact ⟨(hplain e he).2, hgenuine.numbered e he⟩
    unfold verifyAuditExport
    rw [parse_exportAuditChain hreadable, Option.bind_some, if_neg hkey,
      verify_persisted hgenuine.linked hgenuine.sealed]

/-- A payload with a line break, a bracket and values that JSON drops or turns
into `null`, and a chain of two entries. -/
theorem sample_export_verifies :
    (∃ text parsed, stringify 0 (.obj [("note", .str "[\n"), ("rate", .num .nan),
        ("tags", .arr [.undefined, .function]), ("extra", .undefined)]) = some text ∧
      parse text = some parsed ∧ canonicalize parsed = canonicalize (.obj [("note", .str "[\n"),
        ("rate", .num .nan), ("tags", .arr [.undefined, .function]), ("extra", .undefined)])) ∧
    verifyAuditExport Sample.quoteCrypto
      (exportAuditChain [Sample.firstEntry, Sample.secondEntry] .jsonl) "key" =
        some .intact := by
  refine ⟨exported_chain_verifies.1 _ ⟨⟨_, rfl⟩, ?_⟩,
    exported_chain_verifies.2 _ _ _ _ (by decide) Sample.genuine_chain ?_⟩
  · simp [JsValue.WellFormed, JsValue.WellFormedMembers, JsValue.WellFormedItems]
  · intro e he
    have hpayload : e.payload = .obj [("id", .str "m")] := by
      rcases List.mem_cons.1 he with rfl | he
      · rfl
      · rw [List.mem_singleton.1 he]
        rfl
    rw [hpayload]
    exact ⟨⟨_, rfl⟩, by simp [JsValue.WellFormed, JsValue.WellFormedMembers]⟩

end AgentWorth
